/-
# What a command becomes

`hal_usi_send_cmd` sends the frame of a command if the transmit buffer holds it, and an
overflow status otherwise.  Its first test knows only the smallest overhead of a frame, so
the plain message is laid out before its room is known: a management command with its
four bytes of CRC may then reach behind the buffer.
-/
import PlcManager.UsiRoundTrip

namespace Usi

/-! ## The status -/

section Status

variable {w : Writes} {s : State} {msg : XUsiCmd}

/-- The first test of `hal_usi_send_cmd`, with nothing pending. -/
theorem halUsiSendCmd_eq (hidx : s.usIdxIn = 0) (hsize : s.txUsSize ≤ txauxSize)
    (hne : msg.usLen ≠ 0) (hknown : usiProtId2idx msg.ucPType ≠ usiInvalidProtocolIdx) :
    halUsiSendCmd w s msg = if s.txUsSize < msg.usLen + minOverhead
      then some (s, .rxBufferOverflow, []) else usiEncodeAndSend w s msg := by
  have havailable : uint16 ((s.txUsSize : ℤ) - s.usIdxIn) = s.txUsSize := by
    unfold txauxSize at hsize
    rw [hidx, uint16_of_nonneg (by omega) (by omega)]
    omega
  unfold halUsiSendCmd
  rw [if_neg hne, if_neg hknown]
  simp only [havailable]

/-- A command whose frame fits is written as this frame, in one piece. -/
theorem halUsiSendCmd_of_fits (hidx : s.usIdxIn = 0) (hsize : s.txUsSize ≤ txauxSize)
    (hne : msg.usLen ≠ 0) (hknown : usiProtId2idx msg.ucPType ≠ usiInvalidProtocolIdx)
    (hfit : msg.frame.length ≤ s.txUsSize) : ∃ s', halUsiSendCmd .acceptAll s msg
      = some (s', .ok, [.write (if msg.fd < 0 then s.portFd else msg.fd) msg.frame]) := by
  have hbuf : msg.pucBuf ≠ [] := fun hnil => hne (congrArg List.length hnil)
  have hmin := XUsiCmd.le_length_frame hbuf
  have hpos := crcLen_pos msg.ucPType
  obtain ⟨m', hsend⟩ := usiEncodeAndSend_acceptAll hidx hsize hbuf hfit
  rw [halUsiSendCmd_eq hidx hsize hne hknown, if_neg (by unfold minOverhead; omega)]
  exact ⟨_, hsend⟩

/-- A command whose frame does not fit is not written. -/
theorem halUsiSendCmd_of_overflow (hidx : s.usIdxIn = 0) (hsize : s.txUsSize ≤ txauxSize)
    (hne : msg.usLen ≠ 0) (hknown : usiProtId2idx msg.ucPType ≠ usiInvalidProtocolIdx)
    (hover : s.txUsSize < msg.frame.length) :
    ∃ s' st, halUsiSendCmd w s msg = some (s', st, [])
      ∧ (st = .rxBufferOverflow ∨ st = .txBufferOverflow) ∧ s'.usIdxIn = 0 := by
  have hbuf : msg.pucBuf ≠ [] := fun hnil => hne (congrArg List.length hnil)
  rw [halUsiSendCmd_eq hidx hsize hne hknown]
  by_cases hshort : s.txUsSize < msg.usLen + minOverhead
  · rw [if_pos hshort]
    exact ⟨s, _, rfl, .inl rfl, hidx⟩
  · rw [if_neg hshort]
    unfold txauxSize at hsize
    unfold minOverhead at hshort
    obtain ⟨m', hsend⟩ := usiEncodeAndSend_of_overflow (w := w) hidx hsize hbuf (by omega) hover
    exact ⟨_, _, hsend, .inr rfl, hidx⟩

/-- What a command that is sent with success must be, and what is written. -/
theorem of_halUsiSendCmd_ok {s' : State} {ev : List Event} (hidx : s.usIdxIn = 0)
    (hsize : s.txUsSize ≤ txauxSize) (hsend : halUsiSendCmd .acceptAll s msg = some (s', .ok, ev)) :
    msg.usLen ≠ 0 ∧ usiProtId2idx msg.ucPType ≠ usiInvalidProtocolIdx
      ∧ msg.frame.length ≤ txauxSize ∧ written ev = msg.frame := by
  have hne : msg.usLen ≠ 0 := by
    intro hzero
    unfold halUsiSendCmd at hsend
    rw [if_pos hzero] at hsend
    cases hsend
  have hknown : usiProtId2idx msg.ucPType ≠ usiInvalidProtocolIdx := by
    intro hunknown
    unfold halUsiSendCmd at hsend
    rw [if_neg hne, if_pos hunknown] at hsend
    cases hsend
  by_cases hfit : msg.frame.length ≤ s.txUsSize
  · obtain ⟨s1, hsend1⟩ := halUsiSendCmd_of_fits hidx hsize hne hknown hfit
    rw [hsend] at hsend1
    cases hsend1
    exact ⟨hne, hknown, hfit.trans hsize, List.append_nil _⟩
  · obtain ⟨s1, st, hsend1, hst, -⟩ :=
      halUsiSendCmd_of_overflow (w := .acceptAll) hidx hsize hne hknown (not_le.mp hfit)
    rw [hsend] at hsend1
    cases hsend1
    rcases hst with hst | hst <;> cases hst

/-- **What is sent.**  A command of a known protocol whose frame fits the buffer is sent as
this frame, in one `write`; any other ends in an overflow, and nothing is written. -/
theorem usi_send_cmd_frame (hidx : s.usIdxIn = 0) (hsize : s.txUsSize ≤ txauxSize)
    (hne : msg.usLen ≠ 0) (hknown : usiProtId2idx msg.ucPType ≠ usiInvalidProtocolIdx) :
    (msg.frame.length ≤ s.txUsSize → ∃ s', halUsiSendCmd .acceptAll s msg
        = some (s', .ok, [.write (if msg.fd < 0 then s.portFd else msg.fd) msg.frame]))
      ∧ (s.txUsSize < msg.frame.length → ∃ s' st, halUsiSendCmd .acceptAll s msg
          = some (s', st, []) ∧ (st = .rxBufferOverflow ∨ st = .txBufferOverflow)
          ∧ s'.usIdxIn = 0) := by
  constructor
  · intro hfit
    exact halUsiSendCmd_of_fits hidx hsize hne hknown hfit
  · intro hover
    exact halUsiSendCmd_of_overflow hidx hsize hne hknown hover

end Status

/-- A sniffer command is sent, and the sending is a case of the rule. -/
theorem usi_send_cmd_frame_sniffer :
    (snifferCmd.frame.length ≤ txauxSize →
        ∃ s', halUsiSendCmd .acceptAll (opened 3 (fun _ => 0) (fun _ => 0) []) snifferCmd
          = some (s', .ok, [.write 3 snifferCmd.frame]))
      ∧ (txauxSize < snifferCmd.frame.length →
        ∃ s' st, halUsiSendCmd .acceptAll (opened 3 (fun _ => 0) (fun _ => 0) []) snifferCmd
          = some (s', st, []) ∧ (st = .rxBufferOverflow ∨ st = .txBufferOverflow)
          ∧ s'.usIdxIn = 0) :=
  @usi_send_cmd_frame (opened 3 (fun _ => 0) (fun _ => 0) []) snifferCmd rfl le_rfl
    (by decide) (by decide)

/-! ## The stores -/

section Stores

variable {m : Mem UInt8} {s : State} {msg : XUsiCmd} {n k usSize : ℕ}

theorem top_usiShiftBufferRight_le {usIdx usLen : ℕ} (h : usIdx + 1 < 65536) (hm : m.top ≤ n)
    (hn : usIdx + 1 + usLen ≤ n) : (usiShiftBufferRight m usIdx usLen).top ≤ n := by
  rw [usiShiftBufferRight_of_lt h]
  apply Mem.top_storeList_le hm
  rwa [Mem.length_slice]

/-- The loop stores in front of the bound, and so does the closing mark behind it. -/
theorem top_escapeLoop (hsize : usSize < 65536) (fuel : ℕ) : ∀ (m : Mem UInt8) (a usLen : ℕ),
    usLen ≤ fuel → a + usLen + 1 ≤ usSize → m.top ≤ usSize →
      (escapeLoop 0 usSize fuel m a usLen (a + usLen + 1)).1.top ≤ usSize
        ∧ ∀ a' ∈ (escapeLoop 0 usSize fuel m a usLen (a + usLen + 1)).2, a' < usSize := by
  -- on the fuel; the count covers what is in front, what is left and the closing mark
  induction fuel with
  | zero =>
      intro m a usLen hfuel hroom hm
      refine ⟨hm, fun a' ha' => ?_⟩
      obtain rfl := Option.some.inj ha'
      omega
  | succ fuel ih =>
      intro m a usLen hfuel hroom hm
      by_cases hzero : usLen = 0
      · rw [escapeLoop, if_pos hzero]
        refine ⟨hm, fun a' ha' => ?_⟩
        obtain rfl := Option.some.inj ha'
        omega
      rcases nextToken_spec (rfl : m.slice a usLen = m.slice a usLen) with
        ⟨hnone, -⟩ | ⟨ys, x, zs, hsplit, -, -, hsome⟩
      · rw [escapeLoop, if_neg hzero, Nat.zero_add, hnone]
        exact ih m (a + usLen) 0 (Nat.zero_le _) hroom hm
      · have hcount : usLen = ys.length + (zs.length + 1) := by
          have hlen := congrArg List.length hsplit
          rwa [Mem.length_slice, List.length_append, List.length_cons] at hlen
        rw [escapeLoop_token hcount hsome]
        by_cases hfull : a + usLen + 1 + 1 > usSize
        · rw [if_pos hfull]
          exact ⟨hm, fun a' ha' => by cases ha'⟩
        · rw [if_neg hfull, show a + usLen + 1 + 1 = a + ys.length + 2 + zs.length + 1 by omega]
          apply ih _ _ _ (by omega) (by omega)
          rw [Mem.top_store]
          have hshift : (usiShiftBufferRight (m.store (a + ys.length) escMark)
              (a + ys.length + 1) zs.length).top ≤ usSize := by
            apply top_usiShiftBufferRight_le (by omega)
            · rw [Mem.top_store]
              omega
            · omega
          omega

/-- The last byte of the CRC is the last one that is laid out. -/
theorem top_layOut (hne : msg.pucBuf ≠ []) :
    (layOut m k msg).top = max m.top (3 + msg.usLen + crcLen msg.ucPType) := by
  have hlen : 0 < msg.usLen := List.length_pos_iff.mpr hne
  have hcrc (c : UInt32) : crcBytes msg.ucPType c ≠ [] := by
    rw [← List.length_pos_iff, length_crcBytes]
    exact crcLen_pos _
  unfold layOut
  dsimp only
  rw [Mem.top_storeList (hcrc _), length_crcBytes]
  split_ifs
  · rw [Mem.top_store, Mem.top_storeList hne, Mem.top_storeList (List.cons_ne_nil _ _)]
    change max (max (max (max m.top (0 + 3)) (3 + msg.usLen)) (3 + 1)) _ = _
    omega
  · rw [Mem.top_storeList hne, Mem.top_storeList (List.cons_ne_nil _ _)]
    change max (max (max m.top (0 + 3)) (3 + msg.usLen)) _ = _
    omega

/-- No store is behind the part of the buffer that is used. -/
def StoresInside (s : State) (msg : XUsiCmd) : Prop :=
  ∀ w s' st ev, halUsiSendCmd w s msg = some (s', st, ev) → s'.pucTxbuf0.top ≤ s.txUsSize

/-- A management command that passes the first test, which counts one byte of CRC, without
room for the opening mark, the header and all four bytes. -/
def CrcBehind (s : State) (msg : XUsiCmd) : Prop :=
  msg.usLen ≠ 0 ∧ msg.ucPType ∈ mngpProtocols ∧ msg.usLen + minOverhead ≤ s.txUsSize
    ∧ s.txUsSize < msg.usLen + 7

instance : Decidable (CrcBehind s msg) := inferInstanceAs (Decidable (_ ∧ _))

/-- The plain message is inside: so is all that follows. -/
theorem top_usiEncodeAndSend_le {w : Writes} {s' : State} {st : Status} {ev : List Event}
    (hidx : s.usIdxIn = 0) (hsize : s.txUsSize ≤ txauxSize) (hne : msg.pucBuf ≠ [])
    (hroom : 3 + msg.usLen + crcLen msg.ucPType ≤ s.txUsSize) (htop : s.pucTxbuf0.top ≤ s.txUsSize)
    (hsend : usiEncodeAndSend w s msg = some (s', st, ev)) : s'.pucTxbuf0.top ≤ s.txUsSize := by
  have hpos := crcLen_pos msg.ucPType
  have hlay : (layOut s.pucTxbuf0 0 msg).top ≤ s.txUsSize := by
    rw [top_layOut hne]
    omega
  unfold txauxSize at hsize
  have hlaid := msg.laidOutLen_eq (by omega)
  unfold usiEncodeAndSend at hsend
  simp only [hidx, hlaid, Nat.zero_add] at hsend
  by_cases hfull : msg.usLen + 3 + crcLen msg.ucPType + 1 > s.txUsSize
  · rw [if_pos hfull] at hsend
    cases hsend
    exact hlay
  · rw [if_neg hfull] at hsend
    have hone : uint16 (((msg.usLen + 3 + crcLen msg.ucPType : ℕ) : ℤ) - 1)
        = msg.usLen + 2 + crcLen msg.ucPType := by
      rw [uint16_of_nonneg (by omega) (by omega)]
      omega
    have hloop := top_escapeLoop (show s.txUsSize < 65536 by omega)
      (msg.usLen + 2 + crcLen msg.ucPType) (layOut s.pucTxbuf0 0 msg) 1
      (msg.usLen + 2 + crcLen msg.ucPType) le_rfl (by omega) hlay
    rw [show 1 + (msg.usLen + 2 + crcLen msg.ucPType) + 1 = msg.usLen + 3 + crcLen msg.ucPType + 1
      by omega] at hloop
    rw [hone] at hsend
    obtain ⟨hinside, hlast⟩ := hloop
    split at hsend
    · rename_i m' heq
      rw [heq] at hinside
      cases hsend
      exact hinside
    · rename_i m' a' heq
      rw [heq] at hinside hlast
      obtain ⟨r, -, hr⟩ := Option.map_eq_some_iff.mp hsend
      cases hr
      have := hlast a' rfl
      dsimp only at hinside ⊢
      rw [Mem.top_store]
      omega

/-- The second test comes after the stores. -/
theorem not_storesInside_of_crcBehind (hidx : s.usIdxIn = 0) (hsize : s.txUsSize ≤ txauxSize)
    (h : CrcBehind s msg) : ¬ StoresInside s msg := by
  obtain ⟨hne, hmngp, hfirst, hshort⟩ := h
  intro hinside
  have hbuf : msg.pucBuf ≠ [] := fun hnil => hne (congrArg List.length hnil)
  have hcrc : crcLen msg.ucPType = 4 := if_pos hmngp
  have hknown : usiProtId2idx msg.ucPType ≠ usiInvalidProtocolIdx := by
    rw [usiProtId2idx_mngp hmngp]
    decide
  unfold txauxSize at hsize
  have hlaid := msg.laidOutLen_eq (by omega)
  have hsend : halUsiSendCmd .acceptAll s msg = some
      ({ s with pucTxbuf0 := layOut s.pucTxbuf0 0 msg }, .txBufferOverflow, []) := by
    rw [halUsiSendCmd_eq hidx hsize hne hknown, if_neg (not_lt.mpr hfirst)]
    unfold usiEncodeAndSend
    simp only [hidx, hlaid, Nat.zero_add]
    rw [if_pos (by omega)]
  have hle := hinside _ _ _ _ hsend
  dsimp only at hle
  rw [top_layOut hbuf, hcrc] at hle
  omega

/-- **The bound of the transmit buffer.**  With nothing pending, every store of a command is
inside the buffer exactly when the command is no management command whose CRC is laid out
over the end. -/
theorem usi_tx_buffer_bound_iff (hidx : s.usIdxIn = 0) (hsize : s.txUsSize ≤ txauxSize)
    (htop : s.pucTxbuf0.top ≤ s.txUsSize) : StoresInside s msg ↔ ¬ CrcBehind s msg := by
  constructor
  · intro hinside hbehind
    exact not_storesInside_of_crcBehind hidx hsize hbehind hinside
  · intro hnot w s' st ev hsend
    by_cases hne : msg.usLen = 0
    · unfold halUsiSendCmd at hsend
      rw [if_pos hne] at hsend
      cases hsend
      exact htop
    by_cases hknown : usiProtId2idx msg.ucPType = usiInvalidProtocolIdx
    · unfold halUsiSendCmd at hsend
      rw [if_neg hne, if_pos hknown] at hsend
      cases hsend
      exact htop
    rw [halUsiSendCmd_eq hidx hsize hne hknown] at hsend
    have hbuf : msg.pucBuf ≠ [] := fun hnil => hne (congrArg List.length hnil)
    by_cases hfirst : s.txUsSize < msg.usLen + minOverhead
    · rw [if_pos hfirst] at hsend
      cases hsend
      exact htop
    · rw [if_neg hfirst] at hsend
      refine top_usiEncodeAndSend_le hidx hsize hbuf ?_ htop hsend
      unfold minOverhead at hfirst
      unfold crcLen
      split_ifs with hmngp
      · by_contra hshort
        exact hnot ⟨hne, hmngp, by unfold minOverhead; omega, by omega⟩
      · omega
      · omega

end Stores

/-- A management command with 994 bytes of payload. -/
def longMngpCmd : XUsiCmd where
  fd := 3
  ucPType := protocolMngpPrimeSet
  pucBuf := List.replicate 994 0
  usLen_lt := by rw [List.length_replicate]; omega

/-- Its CRC is stored behind the buffer. -/
theorem usi_tx_buffer_overrun :
    ¬ ∀ (s : State) (msg : XUsiCmd), s.usIdxIn = 0 → s.txUsSize ≤ txauxSize →
      s.pucTxbuf0.top ≤ s.txUsSize → StoresInside s msg := by
  intro h
  have hlen : longMngpCmd.usLen = 994 := List.length_replicate
  have hinside := h (opened 3 (fun _ => 0) (fun _ => 0) []) longMngpCmd rfl le_rfl (by decide)
  refine not_storesInside_of_crcBehind rfl le_rfl ⟨?_, by decide, ?_, ?_⟩ hinside
  · rw [hlen]
    decide
  · rw [hlen]
    decide
  · rw [hlen]
    decide

/-- A sniffer command stays inside. -/
theorem usi_tx_buffer_bound_sniffer :
    StoresInside (opened 3 (fun _ => 0) (fun _ => 0) []) snifferCmd
      ↔ ¬ CrcBehind (opened 3 (fun _ => 0) (fun _ => 0) []) snifferCmd :=
  usi_tx_buffer_bound_iff rfl le_rfl (by decide)

end Usi
