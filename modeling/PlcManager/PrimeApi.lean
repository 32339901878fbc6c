/-
# The PRIME API on the host: received commands

Embeds the receive half of `ifacePrime_api.c`: the table of the callbacks that the
applications register, the application that is selected for requests, and
`ifacePrime_api_ReceivedCmd` with its handlers.  Of a request only what the API itself
keeps is here, the pointer table of the null data requests.

Every handler takes the fields off the message and calls callbacks with them.  There
are two families: some call the callback of the selected application only, the others
the callback of every application that has registered one.

A callback is called with the bytes its pointers point to, as many as it is told.  What
a callback does itself, a request say, comes after its call as an event of its own.
-/
import PlcManager.MessageReader
import PlcManager.Runs

namespace PrimeApi

open Read

/-! ## Constants -/

/-- `PRIME_API_MAX_NUM`. -/
def primeApiMaxNum : ℕ := 8
/-- `PRIME_API_INVALID`. -/
def primeApiInvalid : UInt8 := 0xff
/-- `NUM_ELEMENTS_POINTER_TABLE`. -/
def numElementsPointerTable : ℕ := 20
/-- `LEN_ID_EUI48`. -/
def lenIdEui48 : ℕ := 6

/-! ## Callbacks -/

/-- The functions that register callbacks, each its own part of `prime_api_cbs_t`. -/
inductive Group where
  | clNull
  | cl432
  | bmng
  deriving DecidableEq, Repr

/-- The callbacks of `prime_api_cbs_t`. -/
inductive Cb where
  | clNullEstablishInd | clNullEstablishCfm | clNullReleaseInd | clNullReleaseCfm
  | clNullJoinInd | clNullJoinCfm | clNullLeaveCfm | clNullLeaveInd
  | clNullDataCfm | clNullDataInd
  | clNullPlmeResetCfm | clNullPlmeSleepCfm | clNullPlmeResumeCfm | clNullPlmeTestmodeCfm
  | clNullPlmeGetCfm | clNullPlmeSetCfm
  | clNullMlmeRegisterCfm | clNullMlmeRegisterInd
  | clNullMlmeUnregisterCfm | clNullMlmeUnregisterInd
  | clNullMlmePromoteCfm | clNullMlmePromoteInd | clNullMlmeDemoteCfm | clNullMlmeDemoteInd
  | clNullMlmeResetCfm | clNullMlmeGetCfm | clNullMlmeListGetCfm | clNullMlmeSetCfm
  | cl432EstablishCfm | cl432ReleaseCfm | cl432DlDataCfm | cl432DlDataInd
  | cl432DlLeaveInd | cl432DlJoinInd
  | bmngFupAckInd | bmngFupStatusInd | bmngFupErrorInd | bmngFupVersionInd | bmngFupKillInd
  | bmngNetworkEventInd
  | bmngPprofGetResponse | bmngPprofGetEnhancedResponse | bmngPprofAckInd
  deriving DecidableEq, Repr

/-- Which function registers a callback. -/
def Cb.group : Cb → Group
  | cl432EstablishCfm | cl432ReleaseCfm | cl432DlDataCfm | cl432DlDataInd
  | cl432DlLeaveInd | cl432DlJoinInd => .cl432
  | bmngFupAckInd | bmngFupStatusInd | bmngFupErrorInd | bmngFupVersionInd | bmngFupKillInd
  | bmngNetworkEventInd
  | bmngPprofGetResponse | bmngPprofGetEnhancedResponse | bmngPprofAckInd => .bmng
  | _ => .clNull

/-- The command in `prime_api_cmd_t` of the message that the callback is for. -/
def Cb.cmd : Cb → UInt8
  | clNullEstablishInd => 0x02
  | clNullEstablishCfm => 0x03
  | clNullReleaseInd => 0x06
  | clNullReleaseCfm => 0x07
  | clNullJoinInd => 0x0a
  | clNullJoinCfm => 0x0c
  | clNullLeaveCfm => 0x0e
  | clNullLeaveInd => 0x0f
  | clNullDataCfm => 0x11
  | clNullDataInd => 0x12
  | clNullPlmeResetCfm => 0x14
  | clNullPlmeSleepCfm => 0x16
  | clNullPlmeResumeCfm => 0x18
  | clNullPlmeTestmodeCfm => 0x1a
  | clNullPlmeGetCfm => 0x1c
  | clNullPlmeSetCfm => 0x1e
  | clNullMlmeRegisterCfm => 0x20
  | clNullMlmeRegisterInd => 0x21
  | clNullMlmeUnregisterCfm => 0x23
  | clNullMlmeUnregisterInd => 0x24
  | clNullMlmePromoteCfm => 0x26
  | clNullMlmePromoteInd => 0x27
  | clNullMlmeDemoteCfm => 0x29
  | clNullMlmeDemoteInd => 0x2a
  | clNullMlmeResetCfm => 0x2c
  | clNullMlmeGetCfm => 0x2e
  | clNullMlmeListGetCfm => 0x30
  | clNullMlmeSetCfm => 0x32
  | cl432EstablishCfm => 0x34
  | cl432ReleaseCfm => 0x36
  | cl432DlDataInd => 0x38
  | cl432DlDataCfm => 0x39
  | cl432DlJoinInd => 0x3a
  | cl432DlLeaveInd => 0x3b
  | bmngFupAckInd => 0x49
  | bmngFupStatusInd => 0x4a
  | bmngFupErrorInd => 0x4b
  | bmngFupVersionInd => 0x4c
  | bmngFupKillInd => 0x4d
  | bmngNetworkEventInd => 0x4f
  | bmngPprofAckInd => 0x55
  | bmngPprofGetResponse => 0x56
  | bmngPprofGetEnhancedResponse => 0x57

/-- An argument of a callback. -/
inductive Arg where
  | u8 (x : UInt8)
  | u16 (x : UInt16)
  | u32 (x : UInt32)
  /-- The bytes a pointer points to. -/
  | bytes (xs : List UInt8)
  /-- A pointer that an application has handed to the API. -/
  | pointer (p : ℕ)
  | null
  deriving DecidableEq, Repr

/-- A call of a callback. -/
structure Call where
  appId : ℕ
  cb : Cb
  args : List Arg
  deriving DecidableEq, Repr

/-! ## State -/

/-- `cl_null_data_pointer`. -/
structure DataPointer where
  valid : Bool
  pucData : ℕ
  conHandle : UInt16

/-- The static variables; of a callback only whether it is set. -/
structure State where
  sxPrimeApi : ℕ → Cb → Bool
  sucPrimeAppIdReq : UInt8
  sxDataPointerTable : ℕ → DataPointer
  /-- The callbacks called so far. -/
  calls : List Call

/-- A callback is called. -/
def State.call (s : State) (c : Call) : State := { s with calls := s.calls ++ [c] }

/-- `ifacePrime_api_init`. -/
def ifacePrimeApiInit : State where
  sxPrimeApi _ _ := false
  sucPrimeAppIdReq := primeApiInvalid
  sxDataPointerTable _ := ⟨false, 0, 0⟩
  calls := []

/-- `ifacePrime_select_api`. -/
def ifacePrimeSelectApi (primeAppId : UInt8) (s : State) : State :=
  { s with
    sucPrimeAppIdReq :=
      if primeAppId.toNat < primeApiMaxNum then primeAppId else primeApiInvalid }

/-- The callbacks of a group are copied from the structure of an application. -/
def setCallbacks (group : Group) (primeAppId : UInt8) (cbs : Cb → Bool) (s : State) : State :=
  if primeAppId.toNat < primeApiMaxNum then
    { s with
      sxPrimeApi := fun i cb =>
        if i = primeAppId.toNat ∧ cb.group = group then cbs cb else s.sxPrimeApi i cb }
  else s

/-- `prime_cl_null_set_callbacks`. -/
def primeClNullSetCallbacks : UInt8 → (Cb → Bool) → State → State := setCallbacks .clNull

/-- `prime_cl_432_set_callbacks`. -/
def primeCl432SetCallbacks : UInt8 → (Cb → Bool) → State → State := setCallbacks .cl432

/-- `bmng_set_callbacks`. -/
def bmngSetCallbacks : UInt8 → (Cb → Bool) → State → State := setCallbacks .bmng

/-- `prime_cl_null_data_request` remembers the pointer for the confirm, in the first
element of the table that is free. -/
def primeClNullDataRequest (usConHandle : UInt16) (pucData : ℕ) (s : State) : State :=
  match (List.range numElementsPointerTable).find? fun i => !(s.sxDataPointerTable i).valid with
  | none => s
  | some i =>
      { s with
        sxDataPointerTable :=
          Function.update s.sxDataPointerTable i ⟨true, pucData, usConHandle⟩ }

/-! ## The two families of handlers -/

/-- The selected application has registered the callback. -/
def State.Selected (s : State) (cb : Cb) : Prop :=
  s.sucPrimeAppIdReq.toNat < primeApiMaxNum
    ∧ s.sxPrimeApi s.sucPrimeAppIdReq.toNat cb = true

instance (s : State) (cb : Cb) : Decidable (s.Selected cb) :=
  inferInstanceAs (Decidable (_ ∧ _))

/-- A handler that calls the callback of the selected application; without one it does
not look at the message and returns `unset`. -/
def handleSelected (unset : Bool) (cb : Cb) (read : Read (List Arg)) (ptrMsg : Cursor)
    (s : State) : Bool × State :=
  if s.Selected cb then
    match (read ptrMsg).1 with
    | none => (false, s)
    | some args => (true, s.call ⟨s.sucPrimeAppIdReq.toNat, cb, args⟩)
  else (unset, s)

/-- A handler that calls the callback of every application that has registered one. -/
def handleAll (cb : Cb) (read : Read (List Arg)) (ptrMsg : Cursor) (s : State) :
    Bool × State :=
  match (read ptrMsg).1 with
  | none => (false, s)
  | some args =>
      (true, forRange 0 primeApiMaxNum
        (fun i s => if s.sxPrimeApi i cb then s.call ⟨i, cb, args⟩ else s) s)

/-! ## Messages that several handlers read in the same way -/

/-- A result. -/
def readResult (len : UInt16) : Read (List Arg) := do
  require (len = 1)
  let xResult ← byte
  return [.u8 xResult]

/-- A handle or an address, and a result. -/
def readHandleResult (len : UInt16) : Read (List Arg) := do
  require (len = 3)
  let usConHandle ← word
  let ucResult ← byte
  return [.u16 usConHandle, .u8 ucResult]

/-- Nothing. -/
def readNothing (len : UInt16) : Read (List Arg) := do
  require (len = 0)
  return []

/-- The value of an attribute. -/
def readPib (len : UInt16) : Read (List Arg) := do
  let xStatus ← byte
  let usPibAttrib ← word
  let ucPibSize ← byte
  require (len.toNat = 4 + ucPibSize.toNat)
  let pvPibValue ← field ucPibSize.toNat
  return [.u8 xStatus, .u16 usPibAttrib, .bytes pvPibValue, .u8 ucPibSize]

/-- A value of the profiler; the length of the message is not looked at. -/
def readPprof : Read (List Arg) := do
  let pucEui48 ← copy lenIdEui48 lenIdEui48
  let usDataLen ← word
  let pvPibValue ← field usDataLen.toNat
  return [.bytes pucEui48, .u16 usDataLen, .bytes pvPibValue]

/-! ## The handlers of the null layer -/

/-- What `clNullEstablishInd` reads. -/
def readClNullEstablishInd (len : UInt16) : Read (List Arg) := do
  let usConHandle ← word
  let pucEui48 ← field lenIdEui48
  let ucType ← byte
  let usDataLen ← word
  require (len.toNat = 12 + usDataLen.toNat)
  let pucData ← field usDataLen.toNat
  let ucCfbytes ← byte
  return [.u16 usConHandle, .bytes pucEui48, .u8 ucType, .bytes pucData, .u16 usDataLen,
    .u8 ucCfbytes]

/-- `_cl_null_establish_ind`. -/
def clNullEstablishInd (len : UInt16) : Cursor → State → Bool × State :=
  handleAll .clNullEstablishInd (readClNullEstablishInd len)

/-- What `clNullEstablishCfm` reads. -/
def readClNullEstablishCfm (len : UInt16) : Read (List Arg) := do
  let usConHandle ← word
  let ucResult ← byte
  let pucEui48 ← field lenIdEui48
  let ucType ← byte
  let usDataLen ← word
  require (len.toNat = 12 + usDataLen.toNat)
  let pucData ← field usDataLen.toNat
  return [.u16 usConHandle, .u8 ucResult, .bytes pucEui48, .u8 ucType, .bytes pucData,
    .u16 usDataLen]

/-- `_cl_null_establish_cfm`. -/
def clNullEstablishCfm (len : UInt16) : Cursor → State → Bool × State :=
  handleSelected true .clNullEstablishCfm (readClNullEstablishCfm len)

/-- `_cl_null_release_ind`. -/
def clNullReleaseInd (len : UInt16) : Cursor → State → Bool × State :=
  handleAll .clNullReleaseInd (readHandleResult len)

/-- `_cl_null_release_cfm`. -/
def clNullReleaseCfm (len : UInt16) : Cursor → State → Bool × State :=
  handleSelected true .clNullReleaseCfm (readHandleResult len)

/-- What `clNullJoinInd` reads. -/
def readClNullJoinInd (len : UInt16) : Read (List Arg) := do
  let usConHandle ← word
  let pucEui48 ← field lenIdEui48
  let ucConType ← byte
  let usDataLen ← word
  require (len.toNat = 11 + usDataLen.toNat)
  let pucData ← field usDataLen.toNat
  return [.u16 usConHandle, .bytes pucEui48, .u8 ucConType, .bytes pucData, .u16 usDataLen]

/-- `_cl_null_join_ind`. -/
def clNullJoinInd (len : UInt16) : Cursor → State → Bool × State :=
  handleAll .clNullJoinInd (readClNullJoinInd len)

/-- `_cl_null_join_cfm`. -/
def clNullJoinCfm (len : UInt16) : Cursor → State → Bool × State :=
  handleSelected true .clNullJoinCfm (readHandleResult len)

/-- The loop of `_cl_null_leave_ind`: the `n` bytes from `i` on are all `0xFF`. -/
def allFf (i : ℕ) : ℕ → Read Bool
  | 0 => return true
  | n + 1 => do
      let b ← peek i
      if b ≠ 0xff then return false else allFf (i + 1) n

/-- What `clNullLeaveInd` reads. -/
def readClNullLeaveInd (len : UInt16) : Read (List Arg) := do
  require (len = 0)
  let usConHandle ← word
  let broadcast ← allFf 0 lenIdEui48
  let pucEui48 ← field lenIdEui48
  return [.u16 usConHandle, if broadcast then .null else .bytes pucEui48]

/-- `_cl_null_leave_ind`; the message has to be empty, and is read all the same. -/
def clNullLeaveInd (len : UInt16) : Cursor → State → Bool × State :=
  handleAll .clNullLeaveInd (readClNullLeaveInd len)

/-- `_cl_null_leave_cfm`. -/
def clNullLeaveCfm (len : UInt16) : Cursor → State → Bool × State :=
  handleSelected true .clNullLeaveCfm (readHandleResult len)

/-- The fields of a data confirm. -/
def readNullDataCfm (len : UInt16) : Read (UInt16 × UInt8) := do
  require (len = 7)
  let usConHandle ← word
  let _ ← word
  let _ ← word
  let drtResult ← byte
  return (usConHandle, drtResult)

/-- `_cl_null_data_cfm`: the callback gets the first pointer that is kept for the
connection, which is then free again. -/
def clNullDataCfm (len : UInt16) (ptrMsg : Cursor) (s : State) : Bool × State :=
  if s.Selected .clNullDataCfm then
    match (readNullDataCfm len ptrMsg).1 with
    | none => (false, s)
    | some (usConHandle, drtResult) =>
        let call (pucData : Arg) : Call :=
          ⟨s.sucPrimeAppIdReq.toNat, .clNullDataCfm, [.u16 usConHandle, pucData, .u8 drtResult]⟩
        match (List.range numElementsPointerTable).find? fun i =>
            (s.sxDataPointerTable i).valid && (s.sxDataPointerTable i).conHandle == usConHandle with
        | none => (true, s.call (call .null))
        | some i =>
            let entry := s.sxDataPointerTable i
            let s := { s with
              sxDataPointerTable :=
                Function.update s.sxDataPointerTable i { entry with valid := false } }
            (true, s.call (call (.pointer entry.pucData)))
  else (true, s)

/-- What `clNullDataInd` reads. -/
def readClNullDataInd : Read (List Arg) := do
  let usConHandle ← word
  let usDataLen ← word
  let pucData ← field usDataLen.toNat
  return [.u16 usConHandle, .bytes pucData, .u16 usDataLen]

/-- `_cl_null_data_ind`; the test of the length is commented out. -/
def clNullDataInd (_len : UInt16) : Cursor → State → Bool × State :=
  handleSelected true .clNullDataInd readClNullDataInd

/-- `_cl_null_plme_reset_cfm`. -/
def clNullPlmeResetCfm (len : UInt16) : Cursor → State → Bool × State :=
  handleSelected true .clNullPlmeResetCfm (readResult len)

/-- `_cl_null_plme_sleep_cfm`. -/
def clNullPlmeSleepCfm (len : UInt16) : Cursor → State → Bool × State :=
  handleSelected true .clNullPlmeSleepCfm (readResult len)

/-- `_cl_null_plme_resume_cfm`. -/
def clNullPlmeResumeCfm (len : UInt16) : Cursor → State → Bool × State :=
  handleSelected true .clNullPlmeResumeCfm (readResult len)

/-- `_cl_null_plme_testmode_cfm`. -/
def clNullPlmeTestmodeCfm (len : UInt16) : Cursor → State → Bool × State :=
  handleSelected true .clNullPlmeTestmodeCfm (readResult len)

/-- `_cl_null_plme_get_cfm`. -/
def clNullPlmeGetCfm (len : UInt16) : Cursor → State → Bool × State :=
  handleSelected true .clNullPlmeGetCfm (readPib len)

/-- `_cl_null_plme_set_cfm`. -/
def clNullPlmeSetCfm (len : UInt16) : Cursor → State → Bool × State :=
  handleSelected true .clNullPlmeSetCfm (readResult len)

/-- What `clNullMlmeRegisterCfm` reads. -/
def readClNullMlmeRegisterCfm (len : UInt16) : Read (List Arg) := do
  require (len = 8)
  let xResult ← byte
  let pucSna ← field lenIdEui48
  let ucSid ← byte
  return [.u8 xResult, .bytes pucSna, .u8 ucSid]

/-- `_cl_null_mlme_register_cfm`. -/
def clNullMlmeRegisterCfm (len : UInt16) : Cursor → State → Bool × State :=
  handleSelected true .clNullMlmeRegisterCfm (readClNullMlmeRegisterCfm len)

/-- What `clNullMlmeRegisterInd` reads. -/
def readClNullMlmeRegisterInd (len : UInt16) : Read (List Arg) := do
  require (len = 0)
  let pucSna ← field lenIdEui48
  let ucSid ← byte
  return [.bytes pucSna, .u8 ucSid]

/-- `_cl_null_mlme_register_ind`; the message has to be empty, and is read all the same. -/
def clNullMlmeRegisterInd (len : UInt16) : Cursor → State → Bool × State :=
  handleAll .clNullMlmeRegisterInd (readClNullMlmeRegisterInd len)

/-- `_cl_null_mlme_unregister_cfm`. -/
def clNullMlmeUnregisterCfm (len : UInt16) : Cursor → State → Bool × State :=
  handleSelected true .clNullMlmeUnregisterCfm (readResult len)

/-- `_cl_null_mlme_unregister_ind`. -/
def clNullMlmeUnregisterInd (len : UInt16) : Cursor → State → Bool × State :=
  handleAll .clNullMlmeUnregisterInd (readNothing len)

/-- `_cl_null_mlme_promote_cfm`. -/
def clNullMlmePromoteCfm (len : UInt16) : Cursor → State → Bool × State :=
  handleSelected true .clNullMlmePromoteCfm (readResult len)

/-- `_cl_null_mlme_promote_ind`. -/
def clNullMlmePromoteInd (len : UInt16) : Cursor → State → Bool × State :=
  handleAll .clNullMlmePromoteInd (readNothing len)

/-- `_cl_null_mlme_demote_cfm`. -/
def clNullMlmeDemoteCfm (len : UInt16) : Cursor → State → Bool × State :=
  handleSelected true .clNullMlmeDemoteCfm (readResult len)

/-- `_cl_null_mlme_demote_ind`. -/
def clNullMlmeDemoteInd (len : UInt16) : Cursor → State → Bool × State :=
  handleAll .clNullMlmeDemoteInd (readNothing len)

/-- `_cl_null_mlme_reset_cfm`. -/
def clNullMlmeResetCfm (len : UInt16) : Cursor → State → Bool × State :=
  handleSelected true .clNullMlmeResetCfm (readResult len)

/-- `_cl_null_mlme_get_cfm`. -/
def clNullMlmeGetCfm (len : UInt16) : Cursor → State → Bool × State :=
  handleSelected true .clNullMlmeGetCfm (readPib len)

/-- What `clNullMlmeListGetCfm` reads. -/
def readClNullMlmeListGetCfm (len : UInt16) : Read (List Arg) := do
  let xStatus ← byte
  let usPibAttrib ← word
  let usPibLen ← word
  require (len.toNat = 5 + usPibLen.toNat)
  let pucPibBuff ← field usPibLen.toNat
  return [.u8 xStatus, .u16 usPibAttrib, .bytes pucPibBuff, .u16 usPibLen]

/-- `_cl_null_mlme_list_get_cfm`. -/
def clNullMlmeListGetCfm (len : UInt16) : Cursor → State → Bool × State :=
  handleSelected true .clNullMlmeListGetCfm (readClNullMlmeListGetCfm len)

/-- `_cl_null_mlme_set_cfm`. -/
def clNullMlmeSetCfm (len : UInt16) : Cursor → State → Bool × State :=
  handleSelected true .clNullMlmeSetCfm (readResult len)

/-! ## The handlers of the 4-32 layer -/

/-- What `cl432EstablishCfm` reads. -/
def readCl432EstablishCfm (len : UInt16) : Read (List Arg) := do
  let ucDeviceIdLen ← byte
  require (len.toNat = 5 + ucDeviceIdLen.toNat)
  let pucDeviceId ← field ucDeviceIdLen.toNat
  let usDstAddress ← word
  let usBaseAddress ← word
  return [.bytes pucDeviceId, .u8 ucDeviceIdLen, .u16 usDstAddress, .u16 usBaseAddress]

/-- `_cl_432_establish_cfm`. -/
def cl432EstablishCfm (len : UInt16) : Cursor → State → Bool × State :=
  handleSelected true .cl432EstablishCfm (readCl432EstablishCfm len)

/-- `_cl_432_release_cfm`. -/
def cl432ReleaseCfm (len : UInt16) : Cursor → State → Bool × State :=
  handleSelected true .cl432ReleaseCfm (readHandleResult len)

/-- What `cl432DlDataInd` reads. -/
def readCl432DlDataInd (len : UInt16) : Read (List Arg) := do
  let ucDstLsap ← byte
  let ucSrcLsap ← byte
  let usDstAddress ← word
  let srcAddress ← word
  let usLsduLen ← word
  require (len.toNat = 9 + usLsduLen.toNat)
  let pucData ← field usLsduLen.toNat
  let ucLinkClass ← byte
  return [.u8 ucDstLsap, .u8 ucSrcLsap, .u16 usDstAddress, .u16 srcAddress, .bytes pucData,
    .u16 usLsduLen, .u8 ucLinkClass]

/-- `_cl_432_dl_data_ind`. -/
def cl432DlDataInd (len : UInt16) : Cursor → State → Bool × State :=
  handleSelected true .cl432DlDataInd (readCl432DlDataInd len)

/-- What `cl432DlDataCfm` reads. -/
def readCl432DlDataCfm (len : UInt16) : Read (List Arg) := do
  require (len = 5)
  let ucDstLsap ← byte
  let ucSrcLsap ← byte
  let usDstAddress ← word
  let ucTxStatus ← byte
  return [.u8 ucDstLsap, .u8 ucSrcLsap, .u16 usDstAddress, .u8 ucTxStatus]

/-- `_cl_432_dl_data_cfm`. -/
def cl432DlDataCfm (len : UInt16) : Cursor → State → Bool × State :=
  handleSelected true .cl432DlDataCfm (readCl432DlDataCfm len)

/-- What `cl432DlLeaveInd` reads. -/
def readCl432DlLeaveInd (len : UInt16) : Read (List Arg) := do
  require (len = 2)
  let usLnid ← word
  return [.u16 usLnid]

/-- `_cl_432_dl_leave_ind`. -/
def cl432DlLeaveInd (len : UInt16) : Cursor → State → Bool × State :=
  handleAll .cl432DlLeaveInd (readCl432DlLeaveInd len)

/-- What `cl432DlJoinInd` reads. -/
def readCl432DlJoinInd : Read (List Arg) := do
  let ucDeviceIdLen ← byte
  let pucDeviceId ← copy 64 ucDeviceIdLen.toNat
  let usDstAddress ← word
  let pucMac ← copy 6 6
  return [.bytes pucDeviceId, .u8 ucDeviceIdLen, .u16 usDstAddress, .bytes pucMac]

/-- `_cl_432_dl_join_ind`; the length is not looked at.  An identifier of more than 64
bytes is copied into the memory behind the array for it. -/
def cl432DlJoinInd (_len : UInt16) : Cursor → State → Bool × State :=
  handleAll .cl432DlJoinInd readCl432DlJoinInd

/-! ## The handlers of the base node management -/

/-- What `primeFupAckInd` reads. -/
def readPrimeFupAckInd (len : UInt16) : Read (List Arg) := do
  require (¬ len < 2)
  require (¬ 4 < len)
  let ucCmd ← byte
  let ucAck ← byte
  if 2 < len then
    let usData ← word
    return [.u8 ucCmd, .u8 ucAck, .u16 usData]
  else return [.u8 ucCmd, .u8 ucAck, .u16 0xffff]

/-- `_prime_fup_ack_ind`; there may be data. -/
def primeFupAckInd (len : UInt16) : Cursor → State → Bool × State :=
  handleSelected true .bmngFupAckInd (readPrimeFupAckInd len)

/-- What `primeFupStatusInd` reads. -/
def readPrimeFupStatusInd (len : UInt16) : Read (List Arg) := do
  require (¬ len < 9)
  let ucStatus ← byte
  let uiPages ← word
  let pucEui48 ← copy 6 6
  return [.u8 ucStatus, .u32 uiPages.toUInt32, .bytes pucEui48]

/-- `_prime_fup_status_ind`. -/
def primeFupStatusInd (len : UInt16) : Cursor → State → Bool × State :=
  handleSelected true .bmngFupStatusInd (readPrimeFupStatusInd len)

/-- What `primeFupErrorInd` reads. -/
def readPrimeFupErrorInd (len : UInt16) : Read (List Arg) := do
  require (¬ len < 7)
  let ucErrCode ← byte
  let pucEui48 ← copy 6 6
  return [.u8 ucErrCode, .bytes pucEui48]

/-- `_prime_fup_error_ind`. -/
def primeFupErrorInd (len : UInt16) : Cursor → State → Bool × State :=
  handleSelected true .bmngFupErrorInd (readPrimeFupErrorInd len)

/-- A text with its length, which is cut to 32. -/
def readText : Read (UInt8 × List UInt8) := do
  let n ← byte
  let n := if 32 < n then 32 else n
  let text ← copy 32 n.toNat
  return (n, text)

/-- What `primeFupVersionInd` reads. -/
def readPrimeFupVersionInd (len : UInt16) : Read (List Arg) := do
  let pucEui48 ← copy lenIdEui48 6
  let (ucVendorLen, pucVendor) ← readText
  let (ucModelLen, pucModel) ← readText
  let (ucVersionLen, pucVersion) ← readText
  require (¬ len.toNat < 6 + ucVendorLen.toNat + ucModelLen.toNat + ucVersionLen.toNat)
  return [.bytes pucEui48, .u8 ucVendorLen, .bytes pucVendor, .u8 ucModelLen,
    .bytes pucModel, .u8 ucVersionLen, .bytes pucVersion]

/-- `_prime_fup_version_ind`; the length is tested after the reading. -/
def primeFupVersionInd (len : UInt16) : Cursor → State → Bool × State :=
  handleSelected true .bmngFupVersionInd (readPrimeFupVersionInd len)

/-- What `primeFupKillInd` reads. -/
def readPrimeFupKillInd (len : UInt16) : Read (List Arg) := do
  require (¬ len < 6)
  let pucEui48 ← copy 6 6
  return [.bytes pucEui48]

/-- `_prime_fup_kill_ind`. -/
def primeFupKillInd (len : UInt16) : Cursor → State → Bool × State :=
  handleSelected true .bmngFupKillInd (readPrimeFupKillInd len)

/-- What `bmngNetworkInd` reads. -/
def readBmngNetworkInd : Read (List Arg) := do
  let netEvent ← byte
  let mac ← copy 6 6
  let sid ← byte
  let lnid ← word
  let lsid ← byte
  let alvRxcnt ← byte
  let alvTxcnt ← byte
  let alvTime ← byte
  return [.u8 netEvent, .bytes mac, .u8 sid, .u16 lnid, .u8 lsid, .u8 alvRxcnt, .u8 alvTxcnt,
    .u8 alvTime]

/-- `_bmng_network_ind`; the length is not looked at. -/
def bmngNetworkInd (_len : UInt16) : Cursor → State → Bool × State :=
  handleAll .bmngNetworkEventInd readBmngNetworkInd

/-- `_bmng_pprof_get_response_ind`. -/
def bmngPprofGetResponseInd (_len : UInt16) : Cursor → State → Bool × State :=
  handleSelected false .bmngPprofGetResponse readPprof

/-- `_bmng_pprof_get_enhanced_response_ind`. -/
def bmngPprofGetEnhancedResponseInd (_len : UInt16) : Cursor → State → Bool × State :=
  handleSelected false .bmngPprofGetEnhancedResponse readPprof

/-- What `bmngPprofAckInd` reads. -/
def readBmngPprofAckInd : Read (List Arg) := do
  let ucCmd ← byte
  let ucResp ← byte
  return [.u8 ucCmd, .u8 ucResp]

/-- `_bmng_pprof_ack_ind`. -/
def bmngPprofAckInd (_len : UInt16) : Cursor → State → Bool × State :=
  handleSelected false .bmngPprofAckInd readBmngPprofAckInd

/-! ## The dispatcher -/

/-- `ifacePrime_api_ReceivedCmd` for a message at address 0. -/
def ifacePrimeApiReceivedCmd (ptrMsg : Mem UInt8) (len : UInt16) (s : State) : Bool × State :=
  let ucCmd := ptrMsg.cell 0 &&& 0x7f
  let ptrMsg : Cursor := .start ptrMsg 1
  let len := len - 1
  match ucCmd.toNat with
  | 0x02 => clNullEstablishInd len ptrMsg s
  | 0x03 => clNullEstablishCfm len ptrMsg s
  | 0x06 => clNullReleaseInd len ptrMsg s
  | 0x07 => clNullReleaseCfm len ptrMsg s
  | 0x0a => clNullJoinInd len ptrMsg s
  | 0x0c => clNullJoinCfm len ptrMsg s
  | 0x0e => clNullLeaveCfm len ptrMsg s
  | 0x0f => clNullLeaveInd len ptrMsg s
  | 0x11 => clNullDataCfm len ptrMsg s
  | 0x12 => clNullDataInd len ptrMsg s
  | 0x14 => clNullPlmeResetCfm len ptrMsg s
  | 0x16 => clNullPlmeSleepCfm len ptrMsg s
  | 0x18 => clNullPlmeResumeCfm len ptrMsg s
  | 0x1a => clNullPlmeTestmodeCfm len ptrMsg s
  | 0x1c => clNullPlmeGetCfm len ptrMsg s
  | 0x1e => clNullPlmeSetCfm len ptrMsg s
  | 0x20 => clNullMlmeRegisterCfm len ptrMsg s
  | 0x21 => clNullMlmeRegisterInd len ptrMsg s
  | 0x23 => clNullMlmeUnregisterCfm len ptrMsg s
  | 0x24 => clNullMlmeUnregisterInd len ptrMsg s
  | 0x26 => clNullMlmePromoteCfm len ptrMsg s
  | 0x27 => clNullMlmePromoteInd len ptrMsg s
  | 0x29 => clNullMlmeDemoteCfm len ptrMsg s
  | 0x2a => clNullMlmeDemoteInd len ptrMsg s
  | 0x2c => clNullMlmeResetCfm len ptrMsg s
  | 0x2e => clNullMlmeGetCfm len ptrMsg s
  | 0x30 => clNullMlmeListGetCfm len ptrMsg s
  | 0x32 => clNullMlmeSetCfm len ptrMsg s
  | 0x34 => cl432EstablishCfm len ptrMsg s
  | 0x36 => cl432ReleaseCfm len ptrMsg s
  | 0x38 => cl432DlDataInd len ptrMsg s
  | 0x39 => cl432DlDataCfm len ptrMsg s
  | 0x3a => cl432DlJoinInd len ptrMsg s
  | 0x3b => cl432DlLeaveInd len ptrMsg s
  | 0x49 => primeFupAckInd len ptrMsg s
  | 0x4a => primeFupStatusInd len ptrMsg s
  | 0x4b => primeFupErrorInd len ptrMsg s
  | 0x4c => primeFupVersionInd len ptrMsg s
  | 0x4d => primeFupKillInd len ptrMsg s
  | 0x4f => bmngNetworkInd len ptrMsg s
  | 0x55 => bmngPprofAckInd len ptrMsg s
  | 0x56 => bmngPprofGetResponseInd len ptrMsg s
  | 0x57 => bmngPprofGetEnhancedResponseInd len ptrMsg s
  | _ => (false, s)

end PrimeApi
