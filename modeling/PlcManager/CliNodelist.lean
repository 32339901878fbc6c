/-
# The CLI application and the list of the nodes

Embeds the rest of `cli.c`: the confirm with the list of the registered nodes, which is put
into the file of `xml_rep.c` if an update of it has been asked for, the network events that
ask for one, and with them one step of the whole application, on its static variables, the
table of the node versions and the files.
-/
import PlcManager.Cli
import PlcManager.CliNodeVersions
import PlcManager.XmlUpdate

namespace Cli

open XmlRep

/-! ## Constants -/

/-- `PRIME_CMD_PLME_SET_PIB_RSP` of `cli_commands`. -/
def primeCmdPlmeSetPibRsp : UInt8 := 0x35
/-- `PRIME_CMD_MLME_GET_LIST_PIB_RSP`. -/
def primeCmdMlmeGetListPibRsp : UInt8 := 0x39

/-- The size of an `x_cli_node_reg_t`. -/
def sizeofNodeReg : ℕ := 16

/-- `bmng_event_t`. -/
inductive BmngEvent where
  | register | unregister | promote | demote | alive
  deriving DecidableEq, Repr

/-! ## The entries of the table -/

/-- The string at `a` of the table, where it ends before the end of the entry behind the
table. -/
def tableString (t : Mem UInt8) (a : ℕ) : CString :=
  cString (t.slice a (sizeofNodeVs * (cliNumMaxNodeVs + 1) - a))

/-- The strings of entry `i`. -/
def nodeTexts (t : Mem UInt8) (i : ℕ) : NodeTexts where
  pucVendor := tableString t (sizeofNodeVs * i)
  pucModel := tableString t (sizeofNodeVs * i + 32)
  pucFwVersion := tableString t (sizeofNodeVs * i + 64)

/-- Entry `i`. -/
def nodeVs (t : Mem UInt8) (i : ℕ) : XCliNodeVs where
  pucEui48 := nodeEui48 t i
  texts := nodeTexts t i
  length_eui48 := Mem.length_slice

/-! ## The whole application -/

/-- The static variables, the table of the node versions and the files. -/
structure System where
  cli : State
  sxCliNodesVersion : Mem UInt8
  files : Files

/-- One record of the list, at `a` of the buffer. -/
def readNode (pucBuff : Mem UInt8) (a : ℕ) : XCliNodeReg where
  macAddr := pucBuff.slice a 6
  usLnid := word (pucBuff.cell (a + 6)) (pucBuff.cell (a + 7))
  ucState := pucBuff.cell (a + 8)
  usLsid := word (pucBuff.cell (a + 9)) (pucBuff.cell (a + 10))
  usSid := word (pucBuff.cell (a + 11)) (pucBuff.cell (a + 12))
  ucLevel := pucBuff.cell (a + 13)
  ucMacCap1 := pucBuff.cell (a + 14)
  ucMacCap2 := pucBuff.cell (a + 15)
  length_macAddr := Mem.length_slice

/-- The first entry of a node. -/
def findNodeVs (t : Mem UInt8) (macAddr : List UInt8) : Option ℕ :=
  (List.range cliNumMaxNodeVs).find? fun i => nodeEui48 t i = macAddr

/-- The loop over the records, with `n` rounds to go. -/
def addNodes (t pucBuff : Mem UInt8) : ℕ → ℕ → Files → Files
  | 0, _, f => f
  | n + 1, a, f =>
      let xNode := readNode pucBuff a
      let f := xmlRepAddNode xNode ((findNodeVs t xNode.macAddr).map (nodeTexts t)) f
      addNodes t pucBuff n (a + sizeofNodeReg) f

/-- How many rounds `for (i = us_pib_len; i > 0; i -= 16)` has. -/
def rounds (usPibLen : ℕ) : ℕ := (usPibLen + (sizeofNodeReg - 1)) / sizeofNodeReg

/-- `_prime_cl_null_mlme_list_get_cfm_cb`, where the file can be opened or not. -/
def primeClNullMlmeListGetCfmCb (opens : Bool) (pucPibBuff : Mem UInt8) (usPibLen : ℕ)
    (s : System) : System × List Output :=
  if usPibLen = 0 then (s, [])
  else if s.cli.sbUpdateToXml then
    let cli := { s.cli with sbUpdateToXml := false }
    let f := xmlRepOpenNodelist opens s.files
    if opens then
      let f := addNodes s.sxCliNodesVersion pucPibBuff (rounds usPibLen) 0 f
      ({ s with cli := cli, files := xmlRepCloseNodelist f }, [])
    else ({ s with cli := cli, files := f }, [])
  else (s, [.write s.cli.siCliDataFd [primeCmdMlmeGetListPibRsp]])

/-- `_prime_cl_null_mlme_set_cfm_cb`. -/
def primeClNullMlmeSetCfmCb (xResult : UInt8) (s : State) : List Output :=
  [.write s.siCliDataFd [primeCmdPlmeSetPibRsp, xResult]]

/-- `_network_event_ind_cb`. -/
def networkEventIndCb (netEvent : BmngEvent) (s : State) : State × List Output :=
  let bUpdateNodeList :=
    match netEvent with
    | .register => true
    | .unregister => true
    | .promote => true
    | .demote => true
    | .alive => false
  if bUpdateNodeList then getRegisteredNodes s else (s, [])

/-- `_fup_version_ind_cb`, with the update of the file. -/
def fupVersionInd (g : Growth) (ind : VersionInd) (s : System) : System :=
  let r := fupVersionIndCb ind s.sxCliNodesVersion
  { s with
    sxCliNodesVersion := r.1
    files := r.2.foldl (fun f i => xmlRepUpdateNodeVersion g (nodeVs r.1 i) f) s.files }

/-- What an output is to the files. -/
def writeFile (f : Files) : Output → Files
  | .xmlRepPrimeInfo usVendorId usProductId fwVersion macAddr =>
      xmlRepPrimeInfo usVendorId usProductId fwVersion macAddr f
  | _ => f

/-- What the application is called for. -/
inductive SystemEvent where
  | getCfm (xStatus : UInt8) (usPibAttrib : UInt16) (pvPibValue : List UInt8)
  | setCfm (xResult : UInt8)
  | listGetCfm (opens : Bool) (pucPibBuff : Mem UInt8) (usPibLen : ℕ)
  | networkEvent (netEvent : BmngEvent)
  | versionInd (ind : VersionInd)
  | callback (fd : ℤ) (bytes : List UInt8)
  | process (message : Option UInt8)

/-- One call.  Of a data event without data the socket is closed. -/
def systemStep (g : Growth) (s : System) : SystemEvent → System × List Output
  | .getCfm xStatus usPibAttrib pvPibValue =>
      let r := primeClNullMlmeGetCfmCb xStatus usPibAttrib pvPibValue s.cli
      ({ s with cli := r.1 }, r.2)
  | .setCfm xResult => (s, primeClNullMlmeSetCfmCb xResult s.cli)
  | .listGetCfm opens pucPibBuff usPibLen =>
      primeClNullMlmeListGetCfmCb opens pucPibBuff usPibLen s
  | .networkEvent netEvent =>
      let r := networkEventIndCb netEvent s.cli
      ({ s with cli := r.1 }, r.2)
  | .versionInd ind => (fupVersionInd g ind s, [])
  | .callback fd bytes =>
      if bytes = [] then ({ s with cli := { s.cli with siCliDataFd := fd } }, [])
      else
        let r := cliCallback fd bytes s.cli
        ({ s with cli := r.1 }, r.2)
  | .process message =>
      let r := cliProcess message s.cli
      ({ s with cli := r.1, files := r.2.foldl writeFile s.files }, r.2)

/-- Program start and `cli_init`, which removes `NODELIST_END_FILE`. -/
def systemInit (appId : ℤ) (behind : ℕ → UInt8) (f : Files) : System where
  cli := (cliInit appId).1
  sxCliNodesVersion := zeroNodesVersion behind
  files := { f with nodelistEnd := none, sprintfs := [], getlines := [] }

/-- The calls one after the other. -/
def systemRun (g : Growth) (s : System) (es : List SystemEvent) : System :=
  es.foldl (fun s e => (systemStep g s e).1) s

end Cli
