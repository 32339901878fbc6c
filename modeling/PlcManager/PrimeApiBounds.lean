/-
# Which bytes of a message are read

A message comes with its length, and behind it in the receive buffer stand the bytes of
older ones.  A handler stays within its message if it tests the length before it reads.
Many handlers read first and test later, or do not test at all; two of them insist on an
empty message and then read its fields.

The theorem of this module says for every message exactly when the dispatcher and the
handler stay within it, and when the copies fit the arrays they are made into.
-/
import PlcManager.PrimeApiRouting

namespace PrimeApi

open Read

/-! ## Staying within the message -/

/-- The cursor when the handler is done with the message: the handler of a confirm does not
look at it unless the selected application has a callback. -/
def Cb.cursor (cb : Cb) (len : UInt16) (ptrMsg : Cursor) (s : State) : Cursor :=
  if cb.toAll ∨ s.Selected cb then (cb.reader len ptrMsg).2 else ptrMsg

/-- The dispatcher and the handler read bytes of the message only, and every copy fits. -/
@[mk_iff]
structure InBounds (ptrMsg : Mem UInt8) (len : UInt16) (s : State) : Prop where
  /-- The dispatcher reads the command. -/
  command : 1 ≤ len.toNat
  fields : ∀ cb : Cb, ptrMsg.cell 0 &&& 0x7f = cb.cmd →
    (cb.cursor (len - 1) (.start ptrMsg 1) s).Within len.toNat

/-! ## Long enough -/

/-- The number of bytes that a handler reads before it has tested the length. -/
def Cb.untested (m : Mem UInt8) : Cb → ℕ
  | .clNullEstablishInd | .clNullJoinInd => 11
  | .clNullEstablishCfm => 12
  | .clNullDataInd | .clNullPlmeGetCfm | .clNullMlmeGetCfm => 4
  | .clNullMlmeListGetCfm => 5
  | .cl432EstablishCfm => 1
  | .cl432DlDataInd => 8
  | .cl432DlJoinInd => 9 + (m.cell 1).toNat
  | .bmngFupVersionInd => 3 + testedLength m
  | .bmngNetworkEventInd => 14
  | .bmngPprofGetResponse | .bmngPprofGetEnhancedResponse => 8
  | .bmngPprofAckInd => 2
  | _ => 0

/-- The fields, which have `n` bytes, are all that the handler reads of the memory. -/
@[mk_iff]
structure Cb.LongEnough (cb : Cb) (m : Mem UInt8) (n : ℕ) : Prop where
  untested : cb.untested m ≤ n
  /-- A message that has to be empty is read. -/
  empty : cb.wantsEmpty = true → n ≠ 0
  /-- An acknowledge with half a data word is accepted. -/
  ack : cb = .bmngFupAckInd → n ≠ 3
  /-- The array for the device identifier has 64 bytes. -/
  deviceId : cb = .cl432DlJoinInd → (m.cell 1).toNat ≤ 64

section Readers

variable {cb : Cb} {ptrMsg m : Mem UInt8} {len n : UInt16} {s : State}

/-- A leave indication is read if and only if it is empty. -/
theorem readClNullLeaveInd_within :
    (readClNullLeaveInd n (.start m 1)).2.Within (1 + n.toNat) ↔ n ≠ 0 := by
  unfold readClNullLeaveInd Cursor.start
  rw [require_bind]
  by_cases h : n = 0
  · subst h
    obtain ⟨e, he, hloop⟩ := allFf_apply 0 lenIdEui48 ⟨m, 3, 3, true⟩
    rw [if_pos rfl, word_bind]
    change (_ >>= _ : Read (List Arg)) ⟨m, 3, 3, true⟩ |>.2.Within 1 ↔ _
    rw [bind_apply_of hloop]
    have hfar : ¬ e ≤ 1 := by
      change 3 ≤ e at he
      omega
    simp [Cursor.Within, hfar]
  · rw [if_neg h]
    simp [Cursor.Within, h]

/-- **The handlers.**  A handler stays within its message exactly if the message is long
enough for it. -/
theorem reader_within_iff :
    (cb.reader n (.start m 1)).2.Within (1 + n.toNat) ↔ cb.LongEnough m n.toNat := by
  rw [Cb.longEnough_iff]
  cases cb
  -- the length is tested before anything is read
  case clNullReleaseInd | clNullReleaseCfm | clNullJoinCfm | clNullLeaveCfm | cl432ReleaseCfm
      | clNullPlmeResetCfm | clNullPlmeSleepCfm | clNullPlmeResumeCfm | clNullPlmeTestmodeCfm
      | clNullPlmeSetCfm | clNullMlmeUnregisterCfm | clNullMlmePromoteCfm
      | clNullMlmeDemoteCfm | clNullMlmeResetCfm | clNullMlmeSetCfm | clNullMlmeUnregisterInd
      | clNullMlmePromoteInd | clNullMlmeDemoteInd | clNullDataCfm | clNullMlmeRegisterCfm
      | cl432DlDataCfm | cl432DlLeaveInd =>
    simp [Cb.reader, readHandleResult, readResult, readNothing, readNullDataCfm,
      readClNullMlmeRegisterCfm, readCl432DlDataCfm, readCl432DlLeaveInd, Cursor.start,
      Cursor.Within, require_bind, Cb.untested, Cb.wantsEmpty, lenIdEui48]
    split_ifs with h <;> simp [h]
  case bmngFupStatusInd | bmngFupErrorInd | bmngFupKillInd =>
    simp [Cb.reader, readPrimeFupStatusInd, readPrimeFupErrorInd, readPrimeFupKillInd,
      Cursor.start, Cursor.Within, require_bind, Cb.untested, Cb.wantsEmpty,
      UInt16.lt_iff_toNat_lt]
    split_ifs with h
    · exact ⟨by simpa using by omega, rfl⟩
    · exact ⟨by simp, rfl⟩
  -- it is tested, but not for what is read then
  case clNullLeaveInd =>
    rw [Cb.reader, readClNullLeaveInd_within]
    simp [Cb.untested, Cb.wantsEmpty, ← UInt16.toNat_inj]
  case clNullMlmeRegisterInd =>
    simp [Cb.reader, readClNullMlmeRegisterInd, Cursor.start, Cursor.Within, require_bind,
      Cb.untested, Cb.wantsEmpty, lenIdEui48]
    split_ifs with h
    · simp [h]
    · simp [← UInt16.toNat_inj] at h
      simp [h]
  case bmngFupAckInd =>
    simp [Cb.reader, readPrimeFupAckInd, Cursor.start, Cursor.Within, require_bind,
      Cb.untested, Cb.wantsEmpty, UInt16.lt_iff_toNat_lt]
    split_ifs with h2 h4 hdata
    · simp
      omega
    · simp
      omega
    · simp
      omega
    · simp
      omega
  -- it is tested when a length in the message has been read
  case clNullEstablishInd | clNullEstablishCfm | clNullJoinInd | clNullPlmeGetCfm
      | clNullMlmeGetCfm | clNullMlmeListGetCfm | cl432EstablishCfm | cl432DlDataInd =>
    simp [Cb.reader, readClNullEstablishInd, readClNullEstablishCfm, readClNullJoinInd, readPib,
      readClNullMlmeListGetCfm, readCl432EstablishCfm, readCl432DlDataInd, Cursor.start,
      Cursor.Within, require_bind, Cb.untested, Cb.wantsEmpty, lenIdEui48]
    split_ifs <;> simp <;> omega
  case bmngFupVersionInd =>
    have hend : cutVersionAt m + cutText m (cutVersionAt m) = 1 + (3 + testedLength m) := by
      unfold cutVersionAt cutModelAt testedLength cutVersionAt cutModelAt cutText
      omega
    simp only [Cb.reader, readPrimeFupVersionInd_apply, Cursor.Within, Cb.untested,
      Cb.wantsEmpty, hend]
    simp
  -- it is not tested
  case clNullDataInd | bmngPprofGetResponse | bmngPprofGetEnhancedResponse | bmngPprofAckInd
      | bmngNetworkEventInd =>
    simp [Cb.reader, readClNullDataInd, readPprof, readBmngPprofAckInd, readBmngNetworkInd,
      Cursor.start, Cursor.Within, Cb.untested, Cb.wantsEmpty, lenIdEui48]
    omega
  case cl432DlJoinInd =>
    simp [Cb.reader, readCl432DlJoinInd, Cursor.start, Cursor.Within, Cb.untested,
      Cb.wantsEmpty]
    intro _
    split_ifs <;> omega

end Readers

/-! ## The dispatcher -/

/-- The message is not empty, and is long enough for its handler if this looks at it. -/
def Bounded (ptrMsg : Mem UInt8) (len : UInt16) (s : State) : Prop :=
  1 ≤ len.toNat ∧ ∀ cb : Cb, ptrMsg.cell 0 &&& 0x7f = cb.cmd →
    (cb.toAll ∨ s.Selected cb) → cb.LongEnough ptrMsg (len.toNat - 1)

/-- **Message bounds.**  For every message, and whatever callbacks are registered, the
dispatcher and the handler stay within the message and the arrays exactly if the message
has its command and is long enough for a handler that looks at it. -/
theorem prime_message_bounds_iff (ptrMsg : Mem UInt8) (len : UInt16) (s : State) :
    InBounds ptrMsg len s ↔ Bounded ptrMsg len s := by
  rw [inBounds_iff]
  unfold Bounded
  apply and_congr_right
  intro hlen
  have hn : len.toNat = 1 + (len - 1).toNat := by
    rw [toNat_sub_one hlen]
    omega
  apply forall_congr'
  intro cb
  apply imp_congr_right
  intro hcmd
  unfold Cb.cursor
  by_cases hlook : cb.toAll ∨ s.Selected cb
  · rw [if_pos hlook, hn, reader_within_iff, ← hn, toNat_sub_one hlen]
    exact ⟨fun h _ => h, fun h => h hlook⟩
  · rw [if_neg hlook]
    exact ⟨fun _ h => absurd h hlook, fun _ => ⟨hlen, rfl⟩⟩

/-- A network event that has been cut off behind its command. -/
def cutNetworkEvent : Mem UInt8 := messageOf [0x4f]

/-- Its handler reads 14 bytes that are not there, although nobody has registered. -/
theorem network_event_overread :
    ¬ ∀ (ptrMsg : Mem UInt8) (len : UInt16) (s : State), InBounds ptrMsg len s := by
  intro h
  have hread := (h cutNetworkEvent 1 ifacePrimeApiInit).fields .bmngNetworkEventInd rfl
  exact absurd hread.1 (by decide)

end PrimeApi
