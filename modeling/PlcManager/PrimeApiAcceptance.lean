/-
# Which messages are accepted

A handler takes the fields of its command off the message, and most handlers compare the
length of the message with the sum of the fields.  This module gives every command the
layout of its fields, and says for a message with given values in the fields what becomes
of it: with exactly these fields it should be accepted, and the callback should get the
values; if it is cut off it should be refused.

Most handlers do this.  Two insist on an empty message, one takes half a data word for a
whole one, and one counts three texts without their length bytes and cuts them to 32.
-/
import PlcManager.PrimeApiBounds
import PlcManager.MessageLayout

namespace PrimeApi

open Read Layout

/-! ## Layouts -/

/-- The fields that the handler of a command decodes; the data word of an acknowledge is
there if there are `more` than two bytes. -/
def Cb.fields (more : Bool) : Cb → List Item
  | .clNullEstablishInd => [.word, .block lenIdEui48, .byte, .data16, .byte]
  | .clNullEstablishCfm => [.word, .byte, .block lenIdEui48, .byte, .data16]
  | .clNullJoinInd => [.word, .block lenIdEui48, .byte, .data16]
  | .clNullReleaseInd | .clNullReleaseCfm | .clNullJoinCfm | .clNullLeaveCfm
  | .cl432ReleaseCfm => [.word, .byte]
  | .clNullLeaveInd => [.word, .block lenIdEui48]
  | .clNullDataCfm => [.word, .word, .word, .byte]
  | .clNullDataInd => [.word, .data16]
  | .clNullPlmeResetCfm | .clNullPlmeSleepCfm | .clNullPlmeResumeCfm | .clNullPlmeTestmodeCfm
  | .clNullPlmeSetCfm | .clNullMlmeUnregisterCfm | .clNullMlmePromoteCfm
  | .clNullMlmeDemoteCfm | .clNullMlmeResetCfm | .clNullMlmeSetCfm => [.byte]
  | .clNullPlmeGetCfm | .clNullMlmeGetCfm => [.byte, .word, .data8]
  | .clNullMlmeRegisterCfm => [.byte, .block lenIdEui48, .byte]
  | .clNullMlmeRegisterInd => [.block lenIdEui48, .byte]
  | .clNullMlmeUnregisterInd | .clNullMlmePromoteInd | .clNullMlmeDemoteInd => []
  | .clNullMlmeListGetCfm => [.byte, .word, .data16]
  | .cl432EstablishCfm => [.data8, .word, .word]
  | .cl432DlDataInd => [.byte, .byte, .word, .word, .data16, .byte]
  | .cl432DlDataCfm => [.byte, .byte, .word, .byte]
  | .cl432DlLeaveInd => [.word]
  | .cl432DlJoinInd => [.data8, .word, .block 6]
  | .bmngFupAckInd => bif more then [.byte, .byte, .word] else [.byte, .byte]
  | .bmngFupStatusInd => [.byte, .word, .block 6]
  | .bmngFupErrorInd => [.byte, .block 6]
  | .bmngFupVersionInd => [.block 6, .data8, .data8, .data8]
  | .bmngFupKillInd => [.block 6]
  | .bmngNetworkEventInd =>
      [.byte, .block 6, .byte, .word, .byte, .byte, .byte, .byte]
  | .bmngPprofGetResponse | .bmngPprofGetEnhancedResponse => [.block lenIdEui48, .data16]
  | .bmngPprofAckInd => [.byte, .byte]

/-- The length of data, as a callback is told it. -/
def length16 (xs : List UInt8) : Arg := .u16 (UInt16.ofNat xs.length)

@[inherit_doc length16]
def length8 (xs : List UInt8) : Arg := .u8 (UInt8.ofNat xs.length)

/-- What a callback is to get when the fields have these values. -/
def Cb.args (s : State) (more : Bool) : (cb : Cb) → Values (cb.fields more) → List Arg
  | .clNullEstablishInd, (usConHandle, pucEui48, ucType, pucData, ucCfbytes, _) =>
      [.u16 usConHandle, .bytes pucEui48.1, .u8 ucType, .bytes pucData.1, length16 pucData.1,
        .u8 ucCfbytes]
  | .clNullEstablishCfm, (usConHandle, ucResult, pucEui48, ucType, pucData, _) =>
      [.u16 usConHandle, .u8 ucResult, .bytes pucEui48.1, .u8 ucType, .bytes pucData.1,
        length16 pucData.1]
  | .clNullJoinInd, (usConHandle, pucEui48, ucConType, pucData, _) =>
      [.u16 usConHandle, .bytes pucEui48.1, .u8 ucConType, .bytes pucData.1,
        length16 pucData.1]
  | .clNullReleaseInd, (usConHandle, ucResult, _) | .clNullReleaseCfm, (usConHandle, ucResult, _)
  | .clNullJoinCfm, (usConHandle, ucResult, _) | .clNullLeaveCfm, (usConHandle, ucResult, _)
  | .cl432ReleaseCfm, (usConHandle, ucResult, _) => [.u16 usConHandle, .u8 ucResult]
  | .clNullLeaveInd, (usConHandle, pucEui48, _) =>
      [.u16 usConHandle,
        if pucEui48.1 = List.replicate lenIdEui48 0xff then .null else .bytes pucEui48.1]
  | .clNullDataCfm, (usConHandle, _, _, drtResult, _) =>
      [.u16 usConHandle, s.keptPointer usConHandle, .u8 drtResult]
  | .clNullDataInd, (usConHandle, pucData, _) =>
      [.u16 usConHandle, .bytes pucData.1, length16 pucData.1]
  | .clNullPlmeResetCfm, (xResult, _) | .clNullPlmeSleepCfm, (xResult, _)
  | .clNullPlmeResumeCfm, (xResult, _) | .clNullPlmeTestmodeCfm, (xResult, _)
  | .clNullPlmeSetCfm, (xResult, _) | .clNullMlmeUnregisterCfm, (xResult, _)
  | .clNullMlmePromoteCfm, (xResult, _) | .clNullMlmeDemoteCfm, (xResult, _)
  | .clNullMlmeResetCfm, (xResult, _) | .clNullMlmeSetCfm, (xResult, _) => [.u8 xResult]
  | .clNullPlmeGetCfm, (xStatus, usPibAttrib, pvPibValue, _)
  | .clNullMlmeGetCfm, (xStatus, usPibAttrib, pvPibValue, _) =>
      [.u8 xStatus, .u16 usPibAttrib, .bytes pvPibValue.1, length8 pvPibValue.1]
  | .clNullMlmeRegisterCfm, (xResult, pucSna, ucSid, _) =>
      [.u8 xResult, .bytes pucSna.1, .u8 ucSid]
  | .clNullMlmeRegisterInd, (pucSna, ucSid, _) => [.bytes pucSna.1, .u8 ucSid]
  | .clNullMlmeUnregisterInd, _ | .clNullMlmePromoteInd, _ | .clNullMlmeDemoteInd, _ => []
  | .clNullMlmeListGetCfm, (xStatus, usPibAttrib, pucPibBuff, _) =>
      [.u8 xStatus, .u16 usPibAttrib, .bytes pucPibBuff.1, length16 pucPibBuff.1]
  | .cl432EstablishCfm, (pucDeviceId, usDstAddress, usBaseAddress, _) =>
      [.bytes pucDeviceId.1, length8 pucDeviceId.1, .u16 usDstAddress, .u16 usBaseAddress]
  | .cl432DlDataInd, (ucDstLsap, ucSrcLsap, usDstAddress, srcAddress, pucData, ucLinkClass, _) =>
      [.u8 ucDstLsap, .u8 ucSrcLsap, .u16 usDstAddress, .u16 srcAddress, .bytes pucData.1,
        length16 pucData.1, .u8 ucLinkClass]
  | .cl432DlDataCfm, (ucDstLsap, ucSrcLsap, usDstAddress, ucTxStatus, _) =>
      [.u8 ucDstLsap, .u8 ucSrcLsap, .u16 usDstAddress, .u8 ucTxStatus]
  | .cl432DlLeaveInd, (usLnid, _) => [.u16 usLnid]
  | .cl432DlJoinInd, (pucDeviceId, usDstAddress, pucMac, _) =>
      [.bytes pucDeviceId.1, length8 pucDeviceId.1, .u16 usDstAddress, .bytes pucMac.1]
  | .bmngFupAckInd, v =>
      match more, v with
      | true, (ucCmd, ucAck, usData, _) => [.u8 ucCmd, .u8 ucAck, .u16 usData]
      | false, (ucCmd, ucAck, _) => [.u8 ucCmd, .u8 ucAck, .u16 0xffff]
  | .bmngFupStatusInd, (ucStatus, uiPages, pucEui48, _) =>
      [.u8 ucStatus, .u32 uiPages.toUInt32, .bytes pucEui48.1]
  | .bmngFupErrorInd, (ucErrCode, pucEui48, _) => [.u8 ucErrCode, .bytes pucEui48.1]
  | .bmngFupVersionInd, (pucEui48, pucVendor, pucModel, pucVersion, _) =>
      [.bytes pucEui48.1, length8 pucVendor.1, .bytes pucVendor.1, length8 pucModel.1,
        .bytes pucModel.1, length8 pucVersion.1, .bytes pucVersion.1]
  | .bmngFupKillInd, (pucEui48, _) => [.bytes pucEui48.1]
  | .bmngNetworkEventInd, (netEvent, mac, sid, lnid, lsid, alvRxcnt, alvTxcnt, alvTime, _) =>
      [.u8 netEvent, .bytes mac.1, .u8 sid, .u16 lnid, .u8 lsid, .u8 alvRxcnt, .u8 alvTxcnt,
        .u8 alvTime]
  | .bmngPprofGetResponse, (pucEui48, pvPibValue, _)
  | .bmngPprofGetEnhancedResponse, (pucEui48, pvPibValue, _) =>
      [.bytes pucEui48.1, length16 pvPibValue.1, .bytes pvPibValue.1]
  | .bmngPprofAckInd, (ucCmd, ucResp, _) => [.u8 ucCmd, .u8 ucResp]

/-! ## The tests of the length -/

/-- The test that the handler of a command makes, when the fields have `k` bytes and the
message has `n` bytes behind the command. -/
def Cb.accepts (m : Mem UInt8) (n k : ℕ) : Cb → Bool
  | .clNullDataInd | .cl432DlJoinInd | .bmngNetworkEventInd | .bmngPprofGetResponse
  | .bmngPprofGetEnhancedResponse | .bmngPprofAckInd => true
  | .clNullLeaveInd | .clNullMlmeRegisterInd => n = 0
  | .bmngFupAckInd => 2 ≤ n ∧ n ≤ 4
  | .bmngFupStatusInd | .bmngFupErrorInd | .bmngFupKillInd => k ≤ n
  | .bmngFupVersionInd => testedLength m ≤ n
  | _ => n = k

section Readers

variable {cb : Cb} {m : Mem UInt8} {n : UInt16} {s : State}

@[simp] theorem length16_slice (i : ℕ) (x : UInt16) : length16 (m.slice i x.toNat) = .u16 x := by
  rw [length16, Mem.length_slice, UInt16.ofNat_toNat]

@[simp] theorem length8_slice (i : ℕ) (x : UInt8) : length8 (m.slice i x.toNat) = .u8 x := by
  rw [length8, Mem.length_slice, UInt8.ofNat_toNat]

/-- Reading a leave indication. -/
theorem readClNullLeaveInd_apply : (readClNullLeaveInd n (.start m 1)).1
    = if n = 0 then some [.u16 (wordAt m 1),
        if m.slice 3 lenIdEui48 = List.replicate lenIdEui48 0xff then .null
        else .bytes (m.slice 3 lenIdEui48)]
      else none := by
  unfold readClNullLeaveInd Cursor.start
  rw [require_bind]
  by_cases h : n = 0
  · obtain ⟨e, -, hloop⟩ := allFf_apply 0 lenIdEui48 ⟨m, 3, 3, true⟩
    rw [if_pos h, if_pos h, word_bind]
    change ((_ >>= _ : Read (List Arg)) ⟨m, 3, 3, true⟩).1 = _
    rw [bind_apply_of hloop]
    simp
  · rw [if_neg h, if_neg h]

/-- Reading an acknowledge. -/
theorem readPrimeFupAckInd_apply : (readPrimeFupAckInd n (.start m 1)).1
    = if 2 ≤ n.toNat ∧ n.toNat ≤ 4 then some [.u8 (m.cell 1), .u8 (m.cell 2),
        if 2 < n then .u16 (wordAt m 3) else .u16 0xffff]
      else none := by
  have h2 : n < 2 ↔ n.toNat < 2 := UInt16.lt_iff_toNat_lt
  have h4 : 4 < n ↔ 4 < n.toNat := UInt16.lt_iff_toNat_lt
  unfold readPrimeFupAckInd Cursor.start
  rw [require_bind, require_bind]
  by_cases hshort : n.toNat < 2
  · rw [if_neg (not_not.mpr (h2.mpr hshort)), if_neg (by omega)]
  · by_cases hlong : 4 < n.toNat
    · rw [if_pos (mt h2.mp hshort), if_neg (not_not.mpr (h4.mpr hlong)), if_neg (by omega)]
    · rw [if_pos (mt h2.mp hshort), if_pos (mt h4.mp hlong), if_pos (by omega), byte_bind,
        byte_bind]
      by_cases hdata : 2 < n
      · rw [if_pos hdata, if_pos hdata]
        rfl
      · rw [if_neg hdata, if_neg hdata]
        rfl

theorem args_ack (more : Bool) : Cb.bmngFupAckInd.args s more (valuesAt m 1 _)
    = [.u8 (m.cell 1), .u8 (m.cell 2), if more then .u16 (wordAt m 3) else .u16 0xffff] := by
  cases more <;> rfl

/-- **Reading.**  A handler takes the values of the fields off the message when its test is
passed, and gives up otherwise. -/
theorem reader_apply (hcfm : cb ≠ .clNullDataCfm) (hversion : cb ≠ .bmngFupVersionInd) :
    (cb.reader n (.start m 1)).1
      = if cb.accepts m n.toNat (sizeAt m 1 (cb.fields (decide (2 < n))))
        then some (cb.args s (decide (2 < n)) (valuesAt m 1 _)) else none := by
  cases cb
  case clNullDataCfm => exact absurd rfl hcfm
  case bmngFupVersionInd => exact absurd rfl hversion
  -- no test
  case clNullDataInd | bmngPprofGetResponse | bmngPprofGetEnhancedResponse | bmngPprofAckInd
      | bmngNetworkEventInd | cl432DlJoinInd =>
    simp [Cb.reader, readClNullDataInd, readPprof, readBmngPprofAckInd, readBmngNetworkInd,
      readCl432DlJoinInd, Cursor.start, lenIdEui48, Cb.accepts, Cb.args, Cb.fields, valuesAt,
      Item.valueAt, Item.sizeAt, ← Nat.add_assoc]
  -- a test for an empty message
  case clNullLeaveInd =>
    rw [Cb.reader, readClNullLeaveInd_apply]
    simp [Cb.accepts, Cb.args, Cb.fields, valuesAt, Item.valueAt, Item.sizeAt,
      ← UInt16.toNat_inj]
  case clNullMlmeRegisterInd =>
    simp [Cb.reader, readClNullMlmeRegisterInd, Cursor.start, require_bind, lenIdEui48,
      Cb.accepts, Cb.args, Cb.fields, valuesAt, Item.valueAt, Item.sizeAt, ← UInt16.toNat_inj]
    split_ifs <;> rfl
  -- a test for a fixed length
  case clNullReleaseInd | clNullReleaseCfm | clNullJoinCfm | clNullLeaveCfm | cl432ReleaseCfm
      | clNullPlmeResetCfm | clNullPlmeSleepCfm | clNullPlmeResumeCfm | clNullPlmeTestmodeCfm
      | clNullPlmeSetCfm | clNullMlmeUnregisterCfm | clNullMlmePromoteCfm
      | clNullMlmeDemoteCfm | clNullMlmeResetCfm | clNullMlmeSetCfm | clNullMlmeUnregisterInd
      | clNullMlmePromoteInd | clNullMlmeDemoteInd | clNullMlmeRegisterCfm
      | cl432DlDataCfm | cl432DlLeaveInd =>
    simp [Cb.reader, readHandleResult, readResult, readNothing, readClNullMlmeRegisterCfm,
      readCl432DlDataCfm, readCl432DlLeaveInd, Cursor.start, require_bind, lenIdEui48,
      Cb.accepts, Cb.args, Cb.fields, valuesAt, sizeAt, Item.valueAt, Item.sizeAt,
      ← UInt16.toNat_inj]
    split_ifs <;> rfl
  -- a test for a least length
  case bmngFupStatusInd | bmngFupErrorInd | bmngFupKillInd =>
    simp [Cb.reader, readPrimeFupStatusInd, readPrimeFupErrorInd, readPrimeFupKillInd,
      Cursor.start, require_bind, UInt16.lt_iff_toNat_lt, Cb.accepts, Cb.args, Cb.fields,
      valuesAt, sizeAt, Item.valueAt, Item.sizeAt]
    split_ifs <;> rfl
  case bmngFupAckInd =>
    rw [Cb.reader, readPrimeFupAckInd_apply, args_ack]
    simp only [Cb.accepts, decide_eq_true_eq]
  -- a test for a length that depends on a field
  case clNullEstablishCfm | clNullJoinInd | clNullPlmeGetCfm | clNullMlmeGetCfm
      | clNullMlmeListGetCfm =>
    simp [Cb.reader, readClNullEstablishCfm, readClNullJoinInd, readPib,
      readClNullMlmeListGetCfm, Cursor.start, require_bind, lenIdEui48, Cb.accepts, Cb.args,
      Cb.fields, valuesAt, sizeAt, Item.valueAt, Item.sizeAt, ← Nat.add_assoc]
    split_ifs <;> rfl
  case clNullEstablishInd | cl432EstablishCfm | cl432DlDataInd =>
    simp [Cb.reader, readClNullEstablishInd, readCl432EstablishCfm, readCl432DlDataInd,
      Cursor.start, require_bind, lenIdEui48, Cb.accepts, Cb.args, Cb.fields, valuesAt, sizeAt,
      Item.valueAt, Item.sizeAt, ← Nat.add_assoc]
    -- there are fields behind the data
    split_ifs with hcode hsum hsum
    · rfl
    · exact absurd (by omega) hsum
    · exact absurd (by omega) hcode
    · rfl

end Readers

/-! ## Accepted and refused -/

/-- The handler of the command tests the length of the message. -/
def Cb.testsLength : Cb → Bool
  | .clNullDataInd | .cl432DlJoinInd | .bmngNetworkEventInd | .bmngPprofGetResponse
  | .bmngPprofGetEnhancedResponse | .bmngPprofAckInd => false
  | _ => true

/-- The handler tests for a least length. -/
def Cb.testsLeast : Cb → Bool
  | .bmngFupStatusInd | .bmngFupErrorInd | .bmngFupKillInd => true
  | _ => false

/-- The message is accepted, and the recipients are called with these arguments. -/
def Accepted (cb : Cb) (args : List Arg) (ptrMsg : Mem UInt8) (len : UInt16) (s : State) :
    Prop :=
  (ifacePrimeApiReceivedCmd ptrMsg len s).1 = true
    ∧ (ifacePrimeApiReceivedCmd ptrMsg len s).2.calls
      = s.calls ++ callEach (s.recipients cb) cb args

/-- The message is refused, and nobody is called. -/
def Refused (ptrMsg : Mem UInt8) (len : UInt16) (s : State) : Prop :=
  ifacePrimeApiReceivedCmd ptrMsg len s = (false, s)

/-- More than two bytes follow the command. -/
def hasMore (len : UInt16) : Bool := decide (2 < len - 1)

/-- The message starts with the command and with these values of the fields. -/
structure Holds (cb : Cb) {fs : List Item} (v : Values fs) (ptrMsg : Mem UInt8) : Prop where
  command : ptrMsg.cell 0 &&& 0x7f = cb.cmd
  fields : ptrMsg.slice 1 (encode fs v).length = encode fs v

/-- With exactly its fields the message is accepted as it is, and cut off it is refused. -/
@[mk_iff]
structure Conforms (cb : Cb) (ptrMsg : Mem UInt8) (len : UInt16) (s : State)
    (v : Values (cb.fields (hasMore len))) : Prop where
  whole : len.toNat = 1 + (encode _ v).length → Accepted cb (cb.args s _ v) ptrMsg len s
  cut : len.toNat < 1 + (encode _ v).length → Refused ptrMsg len s

/-- One of the texts of a version indication does not fit its array. -/
def LongText (m : Mem UInt8) : Prop :=
  ∃ i ∈ [7, modelAt m, versionAt m], 32 < m.cell i

/-- A whole message, with `k` bytes in its fields, that is not accepted as it is. -/
def Overlooked (cb : Cb) (m : Mem UInt8) (len k : ℕ) : Prop :=
  len = 1 + k ∧ (cb.wantsEmpty = true ∨ cb = .bmngFupVersionInd ∧ LongText m)

/-- A message that is too short for its fields, and is accepted all the same: the empty one
for the handlers that want it, one with half a data word, one that lacks no more than the
length bytes of the texts, and one without a command, whose length is `-1`. -/
def Mistaken (cb : Cb) (m : Mem UInt8) (len k : ℕ) : Prop :=
  len < 1 + k ∧
    (cb.wantsEmpty = true ∧ len = 1
      ∨ cb = .bmngFupAckInd ∧ len = 4
      ∨ cb = .bmngFupVersionInd ∧ (len = 0 ∨ 1 + testedLength m ≤ len)
      ∨ len = 0 ∧ (cb.testsLeast = true ∨ k = 2 ^ 16 - 1))

section Outcomes

variable {cb : Cb} {m : Mem UInt8} {len : UInt16} {s : State} {args : List Arg}

theorem not_refused_of_accepted (h : Accepted cb args m len s) : ¬ Refused m len s := by
  intro href
  have htrue := h.1
  rw [href] at htrue
  exact absurd htrue Bool.false_ne_true

/-- What the handler has read decides what becomes of a message. -/
theorem accepted_of_reader (hcmd : m.cell 0 &&& 0x7f = cb.cmd) (hsel : s.Selected cb)
    (hcfm : cb ≠ .clNullDataCfm)
    (hread : (cb.reader (len - 1) (.start m 1)).1 = some args) : Accepted cb args m len s := by
  unfold Accepted
  rw [receivedCmd_eq_handler hcmd]
  refine ⟨?_, handler_accepts hcfm hread⟩
  cases hall : cb.toAll with
  | true =>
      rw [handler_toAll hall, handleAll, hread]
  | false =>
      rw [handler_selected hall hcfm, handleSelected, if_pos hsel, hread]

theorem refused_of_reader (hcmd : m.cell 0 &&& 0x7f = cb.cmd) (hsel : s.Selected cb)
    (hcfm : cb ≠ .clNullDataCfm)
    (hread : (cb.reader (len - 1) (.start m 1)).1 = none) : Refused m len s := by
  unfold Refused
  rw [receivedCmd_eq_handler hcmd]
  cases hall : cb.toAll with
  | true =>
      rw [handler_toAll hall]
      exact handleAll_rejects hread
  | false =>
      rw [handler_selected hall hcfm, handleSelected, if_pos hsel, hread]

/-- A message that passes the test is accepted. -/
theorem accepted_of_accepts (hcmd : m.cell 0 &&& 0x7f = cb.cmd) (hsel : s.Selected cb)
    (hversion : cb ≠ .bmngFupVersionInd)
    (h : cb.accepts m (len - 1).toNat (sizeAt m 1 (cb.fields (hasMore len))) = true) :
    Accepted cb (cb.args s (hasMore len) (valuesAt m 1 _)) m len s := by
  by_cases hcfm : cb = .clNullDataCfm
  · subst hcfm
    have hn : len - 1 = 7 := by
      rw [← UInt16.toNat_inj]
      exact of_decide_eq_true h
    unfold Accepted
    rw [receivedCmd_eq_handler hcmd]
    exact ⟨clNullDataCfm_fst hn, clNullDataCfm_accepts hn⟩
  · apply accepted_of_reader hcmd hsel hcfm
    rw [reader_apply hcfm hversion]
    exact if_pos h

/-- A message that does not pass it is refused. -/
theorem refused_of_accepts (hcmd : m.cell 0 &&& 0x7f = cb.cmd) (hsel : s.Selected cb)
    (hversion : cb ≠ .bmngFupVersionInd)
    (h : cb.accepts m (len - 1).toNat (sizeAt m 1 (cb.fields (hasMore len))) = false) :
    Refused m len s := by
  by_cases hcfm : cb = .clNullDataCfm
  · subst hcfm
    have hn : len - 1 ≠ 7 := by
      rw [Ne, ← UInt16.toNat_inj]
      exact of_decide_eq_false h
    unfold Refused
    rw [receivedCmd_eq_handler hcmd]
    exact clNullDataCfm_refuses hsel hn
  · apply refused_of_reader hcmd hsel hcfm
    rw [reader_apply (s := s) hcfm hversion]
    exact if_neg (Bool.eq_false_iff.mp h)

/-- What the test of the handler has to say. -/
theorem conforms_iff_accepts {v : Values (cb.fields (hasMore len))} (h : Holds cb v m)
    (hsel : s.Selected cb) (hversion : cb ≠ .bmngFupVersionInd) : Conforms cb m len s v ↔
      (len.toNat = 1 + (encode _ v).length →
        cb.accepts m (len - 1).toNat (encode _ v).length = true)
      ∧ (len.toNat < 1 + (encode _ v).length →
        cb.accepts m (len - 1).toNat (encode _ v).length = false) := by
  obtain rfl := valuesAt_of_slice h.fields
  rw [conforms_iff, length_encode_valuesAt]
  cases haccepts : cb.accepts m (len - 1).toNat (sizeAt m 1 (cb.fields (hasMore len))) with
  | true =>
      have hacc := accepted_of_accepts h.command hsel hversion haccepts
      constructor
      · rintro ⟨-, hcut⟩
        exact ⟨fun _ => rfl, fun hlt => absurd (hcut hlt) (not_refused_of_accepted hacc)⟩
      · rintro ⟨-, hcut⟩
        exact ⟨fun _ => hacc, fun hlt => absurd (hcut hlt) (by decide)⟩
  | false =>
      have href := refused_of_accepts h.command hsel hversion haccepts
      constructor
      · rintro ⟨hwhole, -⟩
        exact ⟨fun heq => absurd href (not_refused_of_accepted (hwhole heq)), fun _ => rfl⟩
      · rintro ⟨hwhole, -⟩
        exact ⟨fun heq => absurd (hwhole heq) (by decide), fun _ => href⟩

/-- What is left of the length after the command: without a command this is a long message. -/
theorem toNat_pred (len : UInt16) :
    (len - 1).toNat = if len.toNat = 0 then 2 ^ 16 - 1 else len.toNat - 1 := by
  by_cases h : len.toNat = 0
  · obtain rfl : len = 0 := UInt16.toNat_inj.mp h
    rfl
  · rw [if_neg h, toNat_sub_one (Nat.pos_of_ne_zero h)]

/-- Every test is right but for the messages that are named. -/
theorem accepts_iff {k : ℕ} (htest : cb.testsLength = true) (hversion : cb ≠ .bmngFupVersionInd)
    (hk : k = sizeAt m 1 (cb.fields (hasMore len))) :
    ((len.toNat = 1 + k → cb.accepts m (len - 1).toNat k = true)
      ∧ (len.toNat < 1 + k → cb.accepts m (len - 1).toNat k = false))
      ↔ ¬ (Overlooked cb m len.toNat k ∨ Mistaken cb m len.toNat k) := by
  have hn := toNat_pred len
  have hmore : hasMore len = decide (2 < (len - 1).toNat) := by
    rw [hasMore, decide_eq_decide, UInt16.lt_iff_toNat_lt]
    rfl
  have hlt := len.toNat_lt
  generalize len.toNat = l at *
  generalize (len - 1).toNat = n at *
  unfold Overlooked Mistaken
  cases cb
  case bmngFupVersionInd => exact absurd rfl hversion
  case clNullDataInd | bmngPprofGetResponse | bmngPprofGetEnhancedResponse | bmngPprofAckInd
      | bmngNetworkEventInd | cl432DlJoinInd => exact absurd htest (by decide)
  case clNullLeaveInd | clNullMlmeRegisterInd =>
    simp [Cb.fields, sizeAt, Item.sizeAt, lenIdEui48] at hk
    simp [Cb.accepts, Cb.wantsEmpty, Cb.testsLeast]
    split_ifs at hn <;> omega
  case bmngFupAckInd =>
    rw [hmore] at hk
    simp [Cb.accepts, Cb.wantsEmpty, Cb.testsLeast]
    by_cases h2 : 2 < n
    · simp [Cb.fields, sizeAt, Item.sizeAt, h2] at hk
      split_ifs at hn <;> omega
    · simp [Cb.fields, sizeAt, Item.sizeAt, h2] at hk
      split_ifs at hn <;> omega
  case bmngFupStatusInd | bmngFupErrorInd | bmngFupKillInd =>
    simp [Cb.fields, sizeAt, Item.sizeAt] at hk
    simp [Cb.accepts, Cb.wantsEmpty, Cb.testsLeast]
    split_ifs at hn <;> omega
  all_goals
    simp [Cb.accepts, Cb.wantsEmpty, Cb.testsLeast]
    split_ifs at hn <;> omega

/-! ### Version indications -/

/-- A length is cut only if it is more than 32. -/
theorem cutLength_eq_iff (n : UInt8) : cutLength n = n ↔ ¬ 32 < n := by
  constructor
  · intro h hlong
    rw [cutLength, if_pos hlong] at h
    rw [← h] at hlong
    exact absurd hlong (by decide)
  · intro h
    exact if_neg h

theorem not_longText_iff : ¬ LongText m ↔ cutLength (m.cell 7) = m.cell 7
    ∧ cutLength (m.cell (modelAt m)) = m.cell (modelAt m)
    ∧ cutLength (m.cell (versionAt m)) = m.cell (versionAt m) := by
  simp [LongText, cutLength_eq_iff]

theorem cutModelAt_eq (h : cutLength (m.cell 7) = m.cell 7) : cutModelAt m = modelAt m := by
  rw [cutModelAt, cutText, h, modelAt, textLength]

theorem cutVersionAt_eq (hmodel : cutModelAt m = modelAt m)
    (h : cutLength (m.cell (modelAt m)) = m.cell (modelAt m)) :
    cutVersionAt m = versionAt m := by
  rw [cutVersionAt, hmodel, cutText, h, versionAt, textLength]

/-- The arguments that the handler of a version indication makes up. -/
def cutArgs (m : Mem UInt8) : List Arg :=
  [.bytes (m.slice 1 6), .u8 (cutLength (m.cell 7)),
    .bytes (m.slice 8 (cutLength (m.cell 7)).toNat), .u8 (cutLength (m.cell (cutModelAt m))),
    .bytes (m.slice (cutModelAt m + 1) (cutLength (m.cell (cutModelAt m))).toNat),
    .u8 (cutLength (m.cell (cutVersionAt m))),
    .bytes (m.slice (cutVersionAt m + 1) (cutLength (m.cell (cutVersionAt m))).toNat)]

/-- The values of the fields of a version indication. -/
theorem args_version : Cb.bmngFupVersionInd.args s (hasMore len) (valuesAt m 1 _)
    = [.bytes (m.slice 1 6), .u8 (m.cell 7), .bytes (m.slice 8 (m.cell 7).toNat),
      .u8 (m.cell (modelAt m)), .bytes (m.slice (modelAt m + 1) (m.cell (modelAt m)).toNat),
      .u8 (m.cell (versionAt m)),
      .bytes (m.slice (versionAt m + 1) (m.cell (versionAt m)).toNat)] := by
  simp [Cb.args, Cb.fields, valuesAt, Item.valueAt, Item.sizeAt, modelAt, versionAt, textLength]

/-- They are the values of the fields exactly if the texts are not cut. -/
theorem cutArgs_eq_iff :
    cutArgs m = Cb.bmngFupVersionInd.args s (hasMore len) (valuesAt m 1 _) ↔ ¬ LongText m := by
  rw [args_version, not_longText_iff]
  constructor
  · intro h
    simp only [cutArgs, List.cons.injEq, Arg.u8.injEq, Arg.bytes.injEq, and_true,
      true_and] at h
    obtain ⟨hvendor, -, hcutModel, -, hcutVersion, -⟩ := h
    -- a text is found where it stands as soon as the ones before it are not cut
    have hmodelAt := cutModelAt_eq hvendor
    rw [hmodelAt] at hcutModel
    have hversionAt := cutVersionAt_eq hmodelAt hcutModel
    rw [hversionAt] at hcutVersion
    exact ⟨hvendor, hcutModel, hcutVersion⟩
  · rintro ⟨hvendor, hmodel, hversion⟩
    have hmodelAt := cutModelAt_eq hvendor
    have hversionAt := cutVersionAt_eq hmodelAt hmodel
    rw [cutArgs, hmodelAt, hversionAt, hvendor, hmodel, hversion]

/-- The fields of a version indication whose texts are not cut. -/
theorem testedLength_eq (h : ¬ LongText m) :
    3 + testedLength m = sizeAt m 1 (Cb.bmngFupVersionInd.fields (hasMore len)) := by
  obtain ⟨hvendor, hmodel, hversion⟩ := not_longText_iff.mp h
  have hmodelAt := cutModelAt_eq hvendor
  have hversionAt := cutVersionAt_eq hmodelAt hmodel
  rw [testedLength, hmodelAt, hversionAt, hvendor, hmodel, hversion]
  simp only [Cb.fields, sizeAt, Item.sizeAt, modelAt, versionAt, textLength, Nat.reduceAdd]
  omega

theorem testedLength_le : testedLength m ≤ 102 := by
  unfold testedLength
  simp only [cutLength_toNat]
  omega

/-- A callback that is called with other arguments is not called as it should be. -/
theorem Accepted.args_eq {brgs : List Arg} (hall : cb.toAll = false) (hsel : s.Selected cb)
    (h : Accepted cb args m len s) (h' : Accepted cb brgs m len s) : args = brgs := by
  have hcalls := List.append_cancel_left (h.2.symm.trans h'.2)
  have hrecipients : s.recipients cb = [s.sucPrimeAppIdReq.toNat] := by
    rw [State.recipients, if_neg (by simp [hall]), if_pos hsel]
  rw [hrecipients] at hcalls
  exact (Call.mk.inj (List.cons.inj hcalls).1).2.2

/-- What the test of a version indication and its texts have to say. -/
theorem conforms_iff_tested {v : Values (Cb.bmngFupVersionInd.fields (hasMore len))}
    (h : Holds .bmngFupVersionInd v m) (hsel : s.Selected .bmngFupVersionInd) :
    Conforms .bmngFupVersionInd m len s v ↔
      (len.toNat = 1 + (encode _ v).length → testedLength m ≤ (len - 1).toNat ∧ ¬ LongText m)
      ∧ (len.toNat < 1 + (encode _ v).length → ¬ testedLength m ≤ (len - 1).toNat) := by
  obtain rfl := valuesAt_of_slice h.fields
  rw [conforms_iff]
  have hread : (Cb.bmngFupVersionInd.reader (len - 1) (.start m 1)).1
      = if testedLength m ≤ (len - 1).toNat then some (cutArgs m) else none :=
    congrArg Prod.fst (readPrimeFupVersionInd_apply m)
  by_cases hpass : testedLength m ≤ (len - 1).toNat
  · rw [if_pos hpass] at hread
    have hacc := accepted_of_reader h.command hsel (by decide) hread
    have hargs : Accepted .bmngFupVersionInd
        (Cb.bmngFupVersionInd.args s (hasMore len) (valuesAt m 1 _)) m len s ↔ ¬ LongText m := by
      rw [← @cutArgs_eq_iff m len s]
      exact ⟨fun hwhole => hacc.args_eq rfl hsel hwhole, fun heq => heq ▸ hacc⟩
    rw [hargs, and_iff_right hpass, iff_false_intro (not_refused_of_accepted hacc),
      iff_false_intro (not_not.mpr hpass)]
  · rw [if_neg hpass] at hread
    have href := refused_of_reader h.command hsel (by decide) hread
    have hnot : ¬ Accepted .bmngFupVersionInd
        (Cb.bmngFupVersionInd.args s (hasMore len) (valuesAt m 1 _)) m len s :=
      fun hacc => not_refused_of_accepted hacc href
    have hnone : ¬ (testedLength m ≤ (len - 1).toNat ∧ ¬ LongText m) := fun hboth => hpass hboth.1
    rw [iff_true_intro href, iff_true_intro hpass, iff_false_intro hnot, iff_false_intro hnone]

/-- The test is right but for the messages that are named. -/
theorem tested_iff {k : ℕ} (hk : ¬ LongText m → k = 3 + testedLength m) :
    ((len.toNat = 1 + k → testedLength m ≤ (len - 1).toNat ∧ ¬ LongText m)
      ∧ (len.toNat < 1 + k → ¬ testedLength m ≤ (len - 1).toNat))
      ↔ ¬ (Overlooked .bmngFupVersionInd m len.toNat k
        ∨ Mistaken .bmngFupVersionInd m len.toNat k) := by
  have htested : testedLength m ≤ 102 := testedLength_le
  have hn := toNat_pred len
  unfold Overlooked Mistaken
  by_cases hlong : LongText m
  · simp [hlong, Cb.wantsEmpty, Cb.testsLeast]
    split_ifs at hn <;> omega
  · obtain rfl := hk hlong
    simp [hlong, Cb.wantsEmpty, Cb.testsLeast]
    split_ifs at hn <;> omega

end Outcomes

/-! ## Acceptance -/

/-- **Acceptance.**  For every command whose handler tests the length, whatever callbacks are
registered besides that of the selected application, and for all values of the fields: with
exactly its fields a message is accepted and the recipients get the values, and cut off it
is refused, unless it is one of those that are overlooked or mistaken. -/
theorem prime_acceptance_iff {cb : Cb} {ptrMsg : Mem UInt8} {len : UInt16} {s : State}
    {v : Values (cb.fields (hasMore len))} (htest : cb.testsLength = true)
    (hsel : s.Selected cb) (h : Holds cb v ptrMsg) :
    Conforms cb ptrMsg len s v ↔ ¬ (Overlooked cb ptrMsg len.toNat (encode _ v).length
      ∨ Mistaken cb ptrMsg len.toNat (encode _ v).length) := by
  by_cases hversion : cb = .bmngFupVersionInd
  · subst hversion
    rw [conforms_iff_tested h hsel]
    obtain rfl := valuesAt_of_slice h.fields
    apply tested_iff
    intro hshort
    rw [length_encode_valuesAt, testedLength_eq hshort]
  · rw [conforms_iff_accepts h hsel hversion, accepts_iff htest hversion]
    obtain rfl := valuesAt_of_slice h.fields
    exact length_encode_valuesAt

/-- The command line is selected, and has registered all callbacks of the null layer. -/
def cliSelected : State :=
  ifacePrimeSelectApi 2 (primeClNullSetCallbacks 2 (fun _ => true) ifacePrimeApiInit)

/-- A leave indication for a connection and the address of a node. -/
def leaveInd : Mem UInt8 := messageOf [0x0f, 0x01, 0x02, 0x10, 0x20, 0x30, 0x40, 0x50, 0x60]

/-- Its fields. -/
def leaveIndFields : Values (Cb.clNullLeaveInd.fields (hasMore 9)) :=
  (0x0102, ⟨[0x10, 0x20, 0x30, 0x40, 0x50, 0x60], rfl⟩, ())

theorem leaveInd_holds : Holds .clNullLeaveInd leaveIndFields leaveInd :=
  ⟨by decide, by decide⟩

/-- A leave indication is never accepted with its fields. -/
theorem leave_ind_refused :
    ¬ ∀ (cb : Cb) (ptrMsg : Mem UInt8) (len : UInt16) (s : State)
      (v : Values (cb.fields (hasMore len))), cb.testsLength = true → s.Selected cb →
        Holds cb v ptrMsg → Conforms cb ptrMsg len s v := by
  intro h
  have hacc := (h .clNullLeaveInd leaveInd 9 cliSelected leaveIndFields rfl (by decide)
    leaveInd_holds).whole rfl
  exact absurd hacc.1 (by decide)

/-- The rule applies to it. -/
theorem leave_ind_conforms_iff : Conforms .clNullLeaveInd leaveInd 9 cliSelected leaveIndFields ↔
    ¬ (Overlooked .clNullLeaveInd leaveInd 9 8 ∨ Mistaken .clNullLeaveInd leaveInd 9 8) :=
  prime_acceptance_iff rfl (by decide) leaveInd_holds

end PrimeApi
