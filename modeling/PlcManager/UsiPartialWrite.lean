/-
# Writes that accept less than they were asked to

Every round of the `write` loop offers the whole buffer again, although the count of
what is left has gone down.  So the loop delivers the frame only if the first write
takes everything, or everything but the closing mark, which is also the first byte of
the buffer; and it leaves `us_idx_in` at 0 after an error only if nothing had been
accepted before.
-/
import PlcManager.UsiRoundTrip

namespace Usi

/-- The send loop ends, what was accepted is the frame or, after an error, a prefix
of it, and `us_idx_in` is back at 0. -/
def SendsCleanly (result : ℕ → ℕ → ℤ) (s : State) (msg : XUsiCmd) : Prop :=
  ∃ patience s' st ev, usiEncodeAndSend ⟨result, patience⟩ s msg = some (s', st, ev)
    ∧ s'.usIdxIn = 0
    ∧ ((st = .ok ∧ written ev = msg.frame) ∨ (st = .uartError ∧ written ev <+: msg.frame))

/-- The first write for `usLen` bytes fails or takes everything, or it takes all but
one byte and the second takes one. -/
def WholeFirst (result : ℕ → ℕ → ℤ) (usLen : ℕ) : Prop :=
  result 0 usLen ≤ 0 ∨ result 0 usLen = usLen ∨ (result 0 usLen = usLen - 1 ∧ result 1 usLen = 1)

/-! ## The loop -/

section Loop

variable {result : ℕ → ℕ → ℤ} {fdWr : ℤ} {m : Mem UInt8} {usLen : ℕ}

theorem uint16_sub (z w : ℤ) : uint16 ((uint16 z : ℤ) - w) = uint16 (z - w) := by
  unfold uint16
  have h := Int.emod_nonneg z (show (65536 : ℤ) ≠ 0 by omega)
  rw [Int.toNat_of_nonneg h, Int.emod_sub_emod]

/-- One round with a positive answer. -/
theorem sendLoop_accept {fuel k idx : ℕ} (hidx : idx ≠ 0) (h : 0 < result k usLen) :
    sendLoop result fdWr m usLen (fuel + 1) k idx
      = (sendLoop result fdWr m usLen fuel (k + 1) (uint16 (idx - result k usLen))).map
          fun r => (r.1, r.2.1, .write fdWr (m.slice 0 (result k usLen).toNat) :: r.2.2) := by
  rw [sendLoop, if_neg hidx]
  simp only [if_pos h]

/-- One round with an error. -/
theorem sendLoop_fail {fuel k idx : ℕ} (hidx : idx ≠ 0) (h : ¬ 0 < result k usLen) :
    sendLoop result fdWr m usLen (fuel + 1) k idx
      = some (uint16 (idx - usLen), .uartError, []) := by
  rw [sendLoop, if_neg hidx]
  simp only [if_neg h]

theorem sendLoop_zero_idx {fuel k : ℕ} :
    sendLoop result fdWr m usLen fuel k 0 = some (0, .ok, []) := by
  unfold sendLoop
  rw [if_pos rfl]

/-- A loop that ends with something left to send has made a round: a write was accepted
and the loop went on, or it failed. -/
theorem sendLoop_cases {fuel k idx i : ℕ} {st : Status} {ev : List Event} (hidx : idx ≠ 0)
    (h : sendLoop result fdWr m usLen fuel k idx = some (i, st, ev)) :
    (∃ fuel' ev', fuel = fuel' + 1 ∧ 0 < result k usLen
      ∧ ev = .write fdWr (m.slice 0 (result k usLen).toNat) :: ev'
      ∧ sendLoop result fdWr m usLen fuel' (k + 1) (uint16 (idx - result k usLen))
          = some (i, st, ev'))
    ∨ (result k usLen ≤ 0 ∧ st = .uartError ∧ ev = [] ∧ i = uint16 (idx - usLen)) := by
  cases fuel with
  | zero =>
      rw [sendLoop, if_neg hidx] at h
      cases h
  | succ fuel =>
      by_cases hacc : 0 < result k usLen
      · rw [sendLoop_accept hidx hacc] at h
        obtain ⟨⟨i', st', ev'⟩, hrec, heq⟩ := Option.map_eq_some_iff.mp h
        cases heq
        exact Or.inl ⟨fuel, ev', rfl, hacc, rfl, hrec⟩
      · rw [sendLoop_fail hidx hacc] at h
        cases h
        exact Or.inr ⟨not_lt.mp hacc, rfl, rfl, rfl⟩

/-- **The loop counts right.**  It ends with `USI_STATUS_OK` when as many bytes were
accepted as `us_idx_in` said, modulo 2^16; after an error `us_idx_in` is short of the
length by what was accepted. -/
theorem sendLoop_count (fuel : ℕ) : ∀ {k idx i : ℕ} {st : Status} {ev : List Event},
    sendLoop result fdWr m usLen fuel k idx = some (i, st, ev) →
      (st = .ok ∧ i = 0 ∧ uint16 (idx - (written ev).length) = 0)
      ∨ (st = .uartError ∧ i = uint16 (idx - (written ev).length - usLen)) := by
  induction fuel with
  | zero =>
      intro k idx i st ev h
      by_cases hidx : idx = 0
      · subst hidx
        rw [sendLoop_zero_idx] at h
        cases h
        exact Or.inl ⟨rfl, rfl, rfl⟩
      · rw [sendLoop, if_neg hidx] at h
        cases h
  | succ fuel ih =>
      intro k idx i st ev h
      by_cases hidx : idx = 0
      · subst hidx
        rw [sendLoop_zero_idx] at h
        cases h
        exact Or.inl ⟨rfl, rfl, rfl⟩
      rcases sendLoop_cases hidx h with ⟨fuel', ev', hfuel, hacc, rfl, hrec⟩ | ⟨-, rfl, rfl, rfl⟩
      · obtain rfl := Nat.succ.inj hfuel
        have hlen : ((written (.write fdWr (m.slice 0 (result k usLen).toNat) :: ev')).length : ℤ)
            = result k usLen + (written ev').length := by
          rw [written_write, List.length_append, Mem.length_slice]
          omega
        rw [hlen]
        rcases ih hrec with ⟨hst, hi, hcount⟩ | ⟨hst, hi⟩
        · refine Or.inl ⟨hst, hi, ?_⟩
          rw [← hcount, uint16_sub]
          exact congrArg uint16 (by omega)
        · refine Or.inr ⟨hst, ?_⟩
          rw [hi, show ((uint16 ((idx : ℤ) - result k usLen) : ℤ) - (written ev').length - usLen)
            = (uint16 ((idx : ℤ) - result k usLen) : ℤ) - ((written ev').length + usLen) by omega,
            uint16_sub]
          exact congrArg uint16 (by omega)
      · exact Or.inr ⟨rfl, by simp⟩

end Loop

/-! ## The frame and its marks -/

/-- Behind its first byte a frame has a mark in last place only. -/
theorem XUsiCmd.frame_mark {msg : XUsiCmd} {k : ℕ} (hk : k < msg.frame.length) (h0 : 0 < k)
    (hmark : msg.frame[k] = msgMark) : k + 1 = msg.frame.length := by
  set text := usiEscapes.stuff (body msg.ucPType msg.wirePayload) with htext
  have hframe : msg.frame = msgMark :: (text ++ [msgMark]) := rfl
  by_contra hne
  simp only [hframe, List.length_cons, List.length_append, List.length_nil] at hk hne
  have hin : k - 1 < text.length := by omega
  have hget : msg.frame[k] = text[k - 1] := by
    simp only [hframe]
    rw [List.getElem_cons, dif_neg (by omega), List.getElem_append_left hin]
  rw [hmark] at hget
  exact usiEscapes.mark_not_mem_stuff _ (hget ▸ List.getElem_mem hin)

/-- A frame that is its own first bytes and then its first byte again ends there. -/
theorem XUsiCmd.frame_resent {msg : XUsiCmd} {m : Mem UInt8} {i j : ℕ} {rest : List UInt8}
    (hm : m.slice 0 msg.frame.length = msg.frame) (hi : 0 < i) (hj : 0 < j)
    (h : m.slice 0 i ++ (m.slice 0 j ++ rest) = msg.frame) : i + 1 = msg.frame.length := by
  have hlen := congrArg List.length h
  simp only [List.length_append, Mem.length_slice] at hlen
  have hcell : m.cell 0 = msgMark := by
    have := Mem.cell_of_slice hm (k := 0) (by omega)
    rw [Nat.zero_add] at this
    rw [this]
    rfl
  apply frame_mark (by omega) hi
  -- what is sent again begins with the opening mark
  obtain ⟨j, rfl⟩ := Nat.exists_eq_add_one_of_ne_zero hj.ne'
  simp only [← h, Mem.slice_succ, hcell]
  rw [List.getElem_append_right (by simp)]
  simp

section Sending

variable {result : ℕ → ℕ → ℤ} {s : State} {msg : XUsiCmd}

/-- The send loop of a command that fits, with the frame in the buffer. -/
theorem sendsCleanly_iff_loop (hidx : s.usIdxIn = 0) (hsize : s.txUsSize = txauxSize)
    (hne : msg.pucBuf ≠ []) (hfit : msg.frame.length ≤ txauxSize) :
    ∃ (m : Mem UInt8) (fdWr : ℤ), m.slice 0 msg.frame.length = msg.frame ∧
      (SendsCleanly result s msg ↔ ∃ patience st ev,
        sendLoop result fdWr m msg.frame.length patience 0 msg.frame.length = some (0, st, ev)
          ∧ ((st = .ok ∧ written ev = msg.frame)
            ∨ (st = .uartError ∧ written ev <+: msg.frame))) := by
  obtain ⟨m, hm, hsend⟩ := usiEncodeAndSend_of_fits hidx hsize.le hne (hfit.trans hsize.ge)
  refine ⟨m, if msg.fd < 0 then s.portFd else msg.fd, hm, ?_, ?_⟩
  · rintro ⟨patience, s', st, ev, heq, hzero, hcase⟩
    rw [hsend] at heq
    obtain ⟨⟨i, st', ev'⟩, hloop, hs⟩ := Option.map_eq_some_iff.mp heq
    cases hs
    obtain rfl : i = 0 := hzero
    exact ⟨patience, st', ev', hloop, hcase⟩
  · rintro ⟨patience, st, ev, hloop, hcase⟩
    refine ⟨patience, { s with pucTxbuf0 := m, usIdxIn := 0 }, st, ev, ?_, rfl, hcase⟩
    rw [hsend]
    show (sendLoop result _ m _ patience 0 _).map _ = _
    rw [hloop]
    rfl

/-- A first answer that takes neither nothing nor everything leaves one way out. -/
theorem wholeFirst_of_sendsCleanly (hidx : s.usIdxIn = 0) (hsize : s.txUsSize = txauxSize)
    (hne : msg.pucBuf ≠ []) (hfit : msg.frame.length ≤ txauxSize)
    (hmost : ∀ k n, result k n ≤ n) (h : SendsCleanly result s msg) :
    WholeFirst result msg.frame.length := by
  obtain ⟨m, fdWr, hm, hiff⟩ := sendsCleanly_iff_loop hidx hsize hne hfit
  obtain ⟨patience, st, ev, hloop, hcase⟩ := hiff.mp h
  have hmin := XUsiCmd.le_length_frame hne
  set n := msg.frame.length with hn
  unfold txauxSize at hfit
  have hzero : n ≠ 0 := by omega
  have htotal := sendLoop_count patience hloop
  rcases sendLoop_cases hzero hloop with ⟨fuel, ev1, -, hpos, rfl, hrec⟩ | ⟨hfail, -⟩
  swap
  · exact Or.inl hfail
  by_cases hall : result 0 n = n
  · exact Or.inr (Or.inl hall)
  have hless : result 0 n < n := lt_of_le_of_ne (hmost 0 n) hall
  have hfirst : uint16 ((n : ℤ) - result 0 n) = n - (result 0 n).toNat := by
    rw [uint16_of_nonneg (by omega) (by omega)]
    omega
  rw [written_write] at hcase htotal
  rcases hcase with ⟨rfl, hwhole⟩ | ⟨rfl, hpre⟩
  · -- the frame came through, so the second round offered its first byte again
    rw [hfirst] at hrec
    rcases sendLoop_cases (by omega) hrec with ⟨fuel', ev2, -, hsecond, rfl, -⟩ | ⟨-, hst, -⟩
    swap
    · cases hst
    rw [written_write] at hwhole
    have hlast := XUsiCmd.frame_resent hm (by omega) (by omega) hwhole
    have hlen := congrArg List.length hwhole
    simp only [List.length_append, Mem.length_slice] at hlen
    rw [Nat.zero_add] at hlen hsecond
    exact Or.inr (Or.inr ⟨by omega, by omega⟩)
  · -- after an error the count of what was accepted is a multiple of 2^16
    exfalso
    have hle := hpre.length_le
    rw [List.length_append, Mem.length_slice] at hle htotal
    rcases htotal with ⟨hok, -, -⟩ | ⟨-, hcount⟩
    · cases hok
    · unfold uint16 at hcount
      omega

/-- **Partial writes.**  The loop sends cleanly exactly when its first answers are of
one of three kinds. -/
theorem usi_send_loop_clean_iff (hidx : s.usIdxIn = 0) (hsize : s.txUsSize = txauxSize)
    (hne : msg.pucBuf ≠ []) (hfit : msg.frame.length ≤ txauxSize)
    (hmost : ∀ k n, result k n ≤ n) :
    SendsCleanly result s msg ↔ WholeFirst result msg.frame.length := by
  refine ⟨wholeFirst_of_sendsCleanly hidx hsize hne hfit hmost, fun hwhole => ?_⟩
  obtain ⟨m, fdWr, hm, hiff⟩ := sendsCleanly_iff_loop hidx hsize hne hfit
  rw [hiff]
  have hmin := XUsiCmd.le_length_frame hne
  set n := msg.frame.length with hn
  unfold txauxSize at hfit
  have hzero : n ≠ 0 := by omega
  rcases hwhole with hfail | hall | ⟨hless, hone⟩
  · refine ⟨1, .uartError, [], ?_, Or.inr ⟨rfl, List.nil_prefix⟩⟩
    rw [sendLoop_fail hzero (not_lt.mpr hfail), Int.sub_self]
    rfl
  · refine ⟨1, .ok, [.write fdWr (m.slice 0 n)], ?_, Or.inl ⟨rfl, ?_⟩⟩
    · rw [sendLoop_accept hzero (by omega), hall, Int.sub_self, Int.toNat_natCast]
      exact congrArg _ sendLoop_zero_idx
    · rw [hm]
      exact List.append_nil _
  · refine ⟨2, .ok, [.write fdWr (m.slice 0 (n - 1)), .write fdWr (m.slice 0 1)], ?_,
      Or.inl ⟨rfl, ?_⟩⟩
    · have hrest : uint16 ((n : ℤ) - result 0 n) = 1 := by
        rw [hless, uint16_of_nonneg (by omega) (by omega)]
        omega
      have hnext : result (0 + 1) n = 1 := hone
      rw [sendLoop_accept hzero (by omega), hrest, sendLoop_accept (by omega) (by omega), hnext,
        hless, show ((n : ℤ) - 1).toNat = n - 1 by omega]
      rw [show uint16 (((1 : ℕ) : ℤ) - 1) = 0 from rfl, sendLoop_zero_idx]
      rfl
    · -- the byte offered first is the closing mark as well
      have hframe : msg.frame
          = msgMark :: (usiEscapes.stuff (body msg.ucPType msg.wirePayload) ++ [msgMark]) := rfl
      have hfront : m.slice 0 (n - 1)
          = msgMark :: usiEscapes.stuff (body msg.ucPType msg.wirePayload) := by
        rw [← Mem.take_slice (Nat.sub_le n 1), hm, hframe, hn, hframe, ← List.cons_append,
          List.take_left' (by simp)]
      have hcell : m.slice 0 1 = [msgMark] := by
        rw [← Mem.take_slice (show 1 ≤ n by omega), hm, hframe]
        rfl
      rw [hfront, hcell, hframe]
      simp

end Sending

/-- The first write accepts the whole frame of the sniffer command. -/
theorem usi_send_loop_clean_sniffer :
    SendsCleanly (fun _ n => n) (opened 3 (fun _ => 0) (fun _ => 0) []) snifferCmd
      ↔ WholeFirst (fun _ n => n) snifferCmd.frame.length :=
  usi_send_loop_clean_iff rfl rfl (by decide) (by decide +kernel) fun _ _ => le_rfl

/-- Three bytes of a frame of seven, then four: the loop ends with `USI_STATUS_OK`, but
the descriptor got the first four bytes where the last four belong. -/
theorem usi_send_loop_restarts :
    ¬ ∀ (result : ℕ → ℕ → ℤ) (s : State) (msg : XUsiCmd), s.usIdxIn = 0 →
        s.txUsSize = txauxSize → msg.pucBuf ≠ [] → msg.frame.length ≤ txauxSize →
        (∀ k n, result k n ≤ n) → SendsCleanly result s msg := by
  intro hclaim
  have hlen : snifferCmd.frame.length = 7 := by decide +kernel
  have hmost : ∀ k n : ℕ, (if k = 0 then min (3 : ℤ) n else min (4 : ℤ) n) ≤ (n : ℤ) := by
    intro k n
    split_ifs <;> omega
  have hwhole := wholeFirst_of_sendsCleanly (s := opened 3 (fun _ => 0) (fun _ => 0) [])
    rfl rfl (by decide) (by decide +kernel) hmost
    (hclaim _ (opened 3 (fun _ => 0) (fun _ => 0) []) snifferCmd rfl rfl (by decide)
      (by decide +kernel) hmost)
  rw [hlen, WholeFirst] at hwhole
  revert hwhole
  decide

end Usi
