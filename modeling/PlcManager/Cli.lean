/-
# The CLI application

Embeds the part of `cli.c` that learns four attributes of the base node and writes them to
a file: the requests that `cli_process` makes one after the other, the callback for their
confirms, and the commands of a client, whose requests lead to confirms of the same kind.

`fw_version` and `mac_addr` of the record are one memory, because the one is copied to
right in front of the other.
-/
import PlcManager.FlatMemory

namespace Cli

/-! ## Constants -/

/-- `PIB_MAC_EUI_48`. -/
def pibMacEui48 : UInt16 := 0x8100
/-- `PIB_MAC_APP_FW_VERSION`. -/
def pibMacAppFwVersion : UInt16 := 0x0075
/-- `PIB_MAC_APP_VENDOR_ID`. -/
def pibMacAppVendorId : UInt16 := 0x0076
/-- `PIB_MAC_APP_PRODUCT_ID`. -/
def pibMacAppProductId : UInt16 := 0x0077
/-- `PIB_MAC_LIST_REGISTER_DEVICES`. -/
def pibMacListRegisterDevices : UInt16 := 0x0050

/-- `PRIME_CMD_UPDATE_NODE_LIST` of `cli_commands`. -/
def primeCmdUpdateNodeList : UInt8 := 0x30
/-- `PRIME_CMD_GET_NODE_VERSIONS`. -/
def primeCmdGetNodeVersions : UInt8 := 0x31
/-- `PRIME_CMD_PLME_GET_PIB_RSP`. -/
def primeCmdPlmeGetPibRsp : UInt8 := 0x33
/-- `PRIME_CMD_MLME_GET_PIB`. -/
def primeCmdMlmeGetPib : UInt8 := 0x36
/-- `PRIME_CMD_MLME_SET_PIB`. -/
def primeCmdMlmeSetPib : UInt8 := 0x3a

/-! ## State -/

/-- `cli_get_info_status`. -/
inductive CliGetInfoStatus where
  | getMac | getFwv | getVid | getPid | waitRsp | createFile | ok
  deriving DecidableEq, Repr

/-- `x_cli_prime_info_t`; `fw_version` is at 0 of the memory, `mac_addr` at 32. -/
structure XCliPrimeInfo where
  usVendorId : UInt16
  usProductId : UInt16
  bytes : Mem UInt8

/-- `fw_version`. -/
def XCliPrimeInfo.fwVersion (x : XCliPrimeInfo) : List UInt8 := x.bytes.slice 0 32

/-- `mac_addr`. -/
def XCliPrimeInfo.macAddr (x : XCliPrimeInfo) : List UInt8 := x.bytes.slice 32 6

/-- The static variables. -/
structure State where
  siCliAppId : ℤ
  siCliDataFd : ℤ
  sucCliRcvBuf : Mem UInt8
  sbUpdateToXml : Bool
  sxPrimeInfo : XCliPrimeInfo
  sucInfoStatus : CliGetInfoStatus

/-- What the CLI asks of the PRIME API, of the file system and of its socket. -/
inductive Output where
  | ifacePrimeSelectApi (appId : ℤ)
  | mlmeGetRequest (usPibAttrib : UInt16)
  | mlmeSetRequest (usPibAttrib : UInt16) (pvPibValue : List UInt8)
  | mlmeListGetRequest (usPibAttrib : UInt16)
  | fupGetVersionRequest (pucEui48 : List UInt8)
  | write (fd : ℤ) (bytes : List UInt8)
  | xmlRepPrimeInfo (usVendorId usProductId : UInt16) (fwVersion macAddr : List UInt8)
  deriving DecidableEq, Repr

/-- Two bytes, the higher one first. -/
def word (hi lo : UInt8) : UInt16 := (hi.toUInt16 <<< 8) + lo.toUInt16

/-! ## Functions -/

/-- `_get_registered_nodes`. -/
def getRegisteredNodes (s : State) : State × List Output :=
  ({ s with sbUpdateToXml := true },
    [.ifacePrimeSelectApi s.siCliAppId, .mlmeListGetRequest pibMacListRegisterDevices])

/-- `_get_version_nodes`. -/
def getVersionNodes (s : State) : List Output :=
  [.ifacePrimeSelectApi s.siCliAppId, .fupGetVersionRequest (List.replicate 6 0xff)]

/-- `_get_pib`. -/
def getPib (usPib : UInt16) (s : State) : List Output :=
  [.ifacePrimeSelectApi s.siCliAppId, .mlmeGetRequest usPib]

/-- An id as the callback puts it together: the lower byte is not the second byte of the
value, but one more than the first. -/
def idOf (pvPibValue : List UInt8) : UInt16 :=
  ((pvPibValue.headD 0).toUInt16 <<< 8) + ((pvPibValue.headD 0).toUInt16 + 1)

/-- The `switch` of `_prime_cl_null_mlme_get_cfm_cb`. -/
def storePib (usPibAttrib : UInt16) (pvPibValue : List UInt8) (s : State) : State :=
  let x := s.sxPrimeInfo
  if usPibAttrib = pibMacEui48 then
    { s with
      sxPrimeInfo := { x with bytes := x.bytes.storeList 32 pvPibValue }
      sucInfoStatus := .getFwv }
  else if usPibAttrib = pibMacAppFwVersion then
    { s with
      sxPrimeInfo :=
        { x with bytes := (x.bytes.storeList 0 pvPibValue).store pvPibValue.length 0 }
      sucInfoStatus := .getVid }
  else if usPibAttrib = pibMacAppVendorId then
    { s with sxPrimeInfo := { x with usVendorId := idOf pvPibValue }, sucInfoStatus := .getPid }
  else if usPibAttrib = pibMacAppProductId then
    { s with
      sxPrimeInfo := { x with usProductId := idOf pvPibValue }
      sucInfoStatus := .createFile }
  else s

/-- `_prime_cl_null_mlme_get_cfm_cb`. -/
def primeClNullMlmeGetCfmCb (xStatus : UInt8) (usPibAttrib : UInt16) (pvPibValue : List UInt8)
    (s : State) : State × List Output :=
  if pvPibValue.length = 0 then (s, [])
  else
    let s := storePib usPibAttrib pvPibValue s
    if 0 < s.siCliDataFd then
      (s, [.write s.siCliDataFd (primeCmdPlmeGetPibRsp :: xStatus :: (usPibAttrib >>> 8).toUInt8
        :: usPibAttrib.toUInt8 :: pvPibValue)])
    else (s, [])

/-- `_cli_rcv_cmd`, on what is in `suc_cli_rcv_buf`. -/
def cliRcvCmd (s : State) : State × List Output :=
  let buf := s.sucCliRcvBuf.cell
  if buf 0 = primeCmdMlmeGetPib then (s, getPib (word (buf 1) (buf 2)) s)
  else if buf 0 = primeCmdMlmeSetPib then
    (s, [.ifacePrimeSelectApi s.siCliAppId,
      .mlmeSetRequest (word (buf 1) (buf 2)) (s.sucCliRcvBuf.slice 4 (buf 3).toNat)])
  else if buf 0 = primeCmdUpdateNodeList then getRegisteredNodes s
  else (s, [])

/-- The data event of `cli_callback`, with the bytes that have been read. -/
def cliCallback (fd : ℤ) (bytes : List UInt8) (s : State) : State × List Output :=
  cliRcvCmd { s with siCliDataFd := fd, sucCliRcvBuf := s.sucCliRcvBuf.storeList 0 bytes }

/-- The first part of `cli_process`: the next attribute is asked for, or the file is written. -/
def cliProcessInfo (s : State) : State × List Output :=
  match s.sucInfoStatus with
  | .getMac => ({ s with sucInfoStatus := .waitRsp }, getPib pibMacEui48 s)
  | .getFwv => ({ s with sucInfoStatus := .waitRsp }, getPib pibMacAppFwVersion s)
  | .getVid => ({ s with sucInfoStatus := .waitRsp }, getPib pibMacAppVendorId s)
  | .getPid => ({ s with sucInfoStatus := .waitRsp }, getPib pibMacAppProductId s)
  | .waitRsp => (s, [])
  | .createFile =>
      ({ s with sucInfoStatus := .ok },
        [.xmlRepPrimeInfo s.sxPrimeInfo.usVendorId s.sxPrimeInfo.usProductId
          s.sxPrimeInfo.fwVersion s.sxPrimeInfo.macAddr])
  | .ok => (s, [])

/-- The second part: the command that the file `message.txt` begins with, if there is one. -/
def cliProcessMessage (message : Option UInt8) (s : State) : State × List Output :=
  if message = some primeCmdUpdateNodeList then getRegisteredNodes s
  else if message = some primeCmdGetNodeVersions then (s, getVersionNodes s)
  else (s, [])

/-- `cli_process`. -/
def cliProcess (message : Option UInt8) (s : State) : State × List Output :=
  let r := cliProcessInfo s
  let t := cliProcessMessage message r.1
  (t.1, r.2 ++ t.2)

/-- Program start and `cli_init`. -/
def cliInit (appId : ℤ) : State × List Output :=
  getRegisteredNodes
    { siCliAppId := appId
      siCliDataFd := 0
      sucCliRcvBuf := Mem.init fun _ => 0
      sbUpdateToXml := false
      sxPrimeInfo := ⟨0, 0, Mem.init fun _ => 0⟩
      sucInfoStatus := .getMac }

end Cli
