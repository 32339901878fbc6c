/-
# What sending a command comes to

`hal_usi_send_cmd` returns a status; two of its statuses are decided before the message is
encoded, the others by the room in the transmit buffer and by the writes.  So a command is sent
exactly if it can be.  All writes of one command go to one descriptor.
-/
import PlcManager.UsiTransmit

namespace Usi

variable {w : Writes} {s s' : State} {msg : XUsiCmd} {st : Status} {ev : List Event}

/-- `fd_wr`: a negative descriptor stands for the serial port. -/
def fdWr (s : State) (msg : XUsiCmd) : ℤ := if msg.fd < 0 then s.portFd else msg.fd

/-- `us_idx_in` after `k` writes of `usLen` bytes that have been accepted. -/
def bytesLeft (result : ℕ → ℕ → ℤ) (usLen : ℕ) : ℕ → ℕ
  | 0 => usLen
  | k + 1 => uint16 (bytesLeft result usLen k - result k usLen)

/-- No write fails as long as there are bytes left. -/
def NoWriteFails (result : ℕ → ℕ → ℤ) (usLen : ℕ) : Prop :=
  ∀ k, (∀ j ≤ k, bytesLeft result usLen j ≠ 0) → 0 < result k usLen

/-- The length of the encoded message, if there is room for it before and after escaping. -/
def encodedLen (s : State) (msg : XUsiCmd) : Option ℕ :=
  let usLen := laidOutLen msg
  if s.usIdxIn + (usLen + 1) > s.txUsSize then none
  else
    let usLen' := uint16 ((usLen : ℤ) - 1)
    (escapeLoop s.usIdxIn s.txUsSize usLen' (layOut s.pucTxbuf0 s.usIdxIn msg) (s.usIdxIn + 1)
      usLen' (usLen + 1)).2.map fun ulIdxAux => (ulIdxAux + 1) % 65536

/-- A command can be sent: it is not empty, its protocol is known, there is room for it before
and after escaping, and no write of it fails. -/
structure CanSend (w : Writes) (s : State) (msg : XUsiCmd) : Prop where
  nonempty : msg.usLen ≠ 0
  known : usiProtId2idx msg.ucPType ≠ usiInvalidProtocolIdx
  room : msg.usLen + minOverhead ≤ uint16 ((s.txUsSize : ℤ) - s.usIdxIn)
  written : ∃ usLen ∈ encodedLen s msg, NoWriteFails w.result usLen

/-- The write loop, with `k` writes done, ends well exactly if no write fails. -/
theorem sendLoop_ok_iff {result : ℕ → ℕ → ℤ} {fd : ℤ} {m : Mem UInt8} {usLen i : ℕ}
    (fuel : ℕ) : ∀ {k : ℕ} {ev : List Event},
      sendLoop result fd m usLen fuel k (bytesLeft result usLen k) = some (i, st, ev) →
        (∀ j < k, bytesLeft result usLen j ≠ 0 ∧ 0 < result j usLen) →
          (st = .ok ↔ NoWriteFails result usLen) := by
  induction fuel with
  | zero =>
      intro k ev h hdone
      unfold sendLoop at h
      split_ifs at h with hnone
      cases h
      apply iff_of_true rfl
      intro n hleft
      rcases Nat.lt_or_ge n k with hlt | hge
      · exact (hdone n hlt).2
      · exact absurd hnone (hleft k hge)
  | succ fuel ih =>
      intro k ev h hdone
      unfold sendLoop at h
      dsimp only at h
      split_ifs at h with hnone haccepted
      · cases h
        apply iff_of_true rfl
        intro n hleft
        rcases Nat.lt_or_ge n k with hlt | hge
        · exact (hdone n hlt).2
        · exact absurd hnone (hleft k hge)
      · obtain ⟨⟨j, st', ev'⟩, hrest, heq⟩ := Option.map_eq_some_iff.mp h
        cases heq
        apply ih hrest
        intro j hj
        rcases Nat.lt_succ_iff_lt_or_eq.mp hj with hlt | rfl
        · exact hdone j hlt
        · exact ⟨hnone, haccepted⟩
      · cases h
        refine iff_of_false (by decide) fun hall => haccepted (hall k fun j hj => ?_)
        rcases Nat.lt_or_eq_of_le hj with hlt | rfl
        · exact (hdone j hlt).1
        · exact hnone

/-- The write loop ends well or with a write error; it writes to one descriptor. -/
theorem sendLoop_outcome {result : ℕ → ℕ → ℤ} {fd : ℤ} {m : Mem UInt8} {usLen i : ℕ}
    (fuel : ℕ) : ∀ {k idx : ℕ} {ev : List Event},
      sendLoop result fd m usLen fuel k idx = some (i, st, ev) →
        (st = .ok ∨ st = .uartError) ∧ ∀ e ∈ ev, ∃ bytes, e = .write fd bytes := by
  induction fuel with
  | zero =>
      intro k idx ev h
      unfold sendLoop at h
      split_ifs at h
      cases h
      exact ⟨Or.inl rfl, fun e he => absurd he List.not_mem_nil⟩
  | succ fuel ih =>
      intro k idx ev h
      unfold sendLoop at h
      dsimp only at h
      split_ifs at h
      · cases h
        exact ⟨Or.inl rfl, fun e he => absurd he List.not_mem_nil⟩
      · obtain ⟨⟨j, st', ev'⟩, hrest, heq⟩ := Option.map_eq_some_iff.mp h
        cases heq
        obtain ⟨hst, hev⟩ := ih hrest
        refine ⟨hst, fun e he => ?_⟩
        rcases List.mem_cons.mp he with rfl | he
        · exact ⟨_, rfl⟩
        · exact hev e he
      · cases h
        exact ⟨Or.inr rfl, fun e he => absurd he List.not_mem_nil⟩

/-- An encoded message is sent, or the room or the descriptor is not up to it. -/
theorem usiEncodeAndSend_outcome (h : usiEncodeAndSend w s msg = some (s', st, ev)) :
    (st = .ok ∨ st = .uartError ∨ st = .txBufferOverflow)
      ∧ ∀ e ∈ ev, ∃ bytes, e = .write (fdWr s msg) bytes := by
  unfold usiEncodeAndSend at h
  dsimp only at h
  rw [show (if msg.fd < 0 then s.portFd else msg.fd) = fdWr s msg from rfl] at h
  split_ifs at h
  · cases h
    exact ⟨Or.inr (Or.inr rfl), fun e he => absurd he List.not_mem_nil⟩
  · split at h
    · cases h
      exact ⟨Or.inr (Or.inr rfl), fun e he => absurd he List.not_mem_nil⟩
    · obtain ⟨⟨i, st', ev'⟩, hloop, heq⟩ := Option.map_eq_some_iff.mp h
      cases heq
      obtain ⟨hst, hev⟩ := sendLoop_outcome _ hloop
      exact ⟨hst.imp_right Or.inl, hev⟩

/-- An encoded message is sent exactly if there is room for it and no write fails. -/
theorem usiEncodeAndSend_ok_iff (h : usiEncodeAndSend w s msg = some (s', st, ev)) :
    st = .ok ↔ ∃ usLen ∈ encodedLen s msg, NoWriteFails w.result usLen := by
  unfold usiEncodeAndSend at h
  unfold encodedLen
  dsimp only at h ⊢
  rw [show (if msg.fd < 0 then s.portFd else msg.fd) = fdWr s msg from rfl] at h
  split_ifs at h ⊢ with hroom
  · cases h
    exact iff_of_false (by decide) (by simp)
  · generalize escapeLoop _ _ _ _ _ _ _ = r at h ⊢
    obtain ⟨m, ulIdxAux⟩ := r
    cases ulIdxAux with
    | none =>
        cases h
        exact iff_of_false (by decide) (by simp)
    | some ulIdxAux =>
        obtain ⟨⟨i, st', ev'⟩, hloop, heq⟩ := Option.map_eq_some_iff.mp h
        cases heq
        rw [sendLoop_ok_iff w.patience (k := 0) hloop fun j hj => absurd hj (Nat.not_lt_zero j)]
        simp

/-- **Sending.**  A command is sent exactly if it can be. -/
theorem halUsiSendCmd_ok_iff (h : halUsiSendCmd w s msg = some (s', st, ev)) :
    st = .ok ↔ CanSend w s msg := by
  unfold halUsiSendCmd at h
  dsimp only at h
  split_ifs at h with hempty hunknown hroom
  · cases h
    exact iff_of_false (by decide) fun hcan => hcan.nonempty hempty
  · cases h
    exact iff_of_false (by decide) fun hcan => hcan.known hunknown
  · cases h
    exact iff_of_false (by decide) fun hcan => absurd hcan.room (Nat.not_le_of_lt hroom)
  · rw [usiEncodeAndSend_ok_iff h]
    exact ⟨fun hwritten => ⟨hempty, hunknown, Nat.le_of_not_lt hroom, hwritten⟩,
      fun hcan => hcan.written⟩

/-- **Outcomes.**  An empty message is a format error, an unknown protocol is not found, and
whatever is written goes to one descriptor. -/
theorem halUsiSendCmd_outcome (h : halUsiSendCmd w s msg = some (s', st, ev)) :
    (st = .formatError ↔ msg.usLen = 0)
      ∧ (st = .protocolNotFound ↔
        msg.usLen ≠ 0 ∧ usiProtId2idx msg.ucPType = usiInvalidProtocolIdx)
      ∧ ∀ e ∈ ev, ∃ bytes, e = .write (fdWr s msg) bytes := by
  unfold halUsiSendCmd at h
  dsimp only at h
  split_ifs at h with hempty hunknown hroom
  · cases h
    exact ⟨iff_of_true rfl hempty, iff_of_false (by decide) fun hne => hne.1 hempty,
      fun e he => absurd he List.not_mem_nil⟩
  · cases h
    exact ⟨iff_of_false (by decide) hempty, iff_of_true rfl ⟨hempty, hunknown⟩,
      fun e he => absurd he List.not_mem_nil⟩
  · cases h
    exact ⟨iff_of_false (by decide) hempty, iff_of_false (by decide) fun h => hunknown h.2,
      fun e he => absurd he List.not_mem_nil⟩
  · obtain ⟨hst, hev⟩ := usiEncodeAndSend_outcome h
    have hformat : st ≠ .formatError := by
      rcases hst with rfl | rfl | rfl <;> decide
    have hfound : st ≠ .protocolNotFound := by
      rcases hst with rfl | rfl | rfl <;> decide
    exact ⟨iff_of_false hformat hempty, iff_of_false hfound fun h => hunknown h.2, hev⟩

end Usi
