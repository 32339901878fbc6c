/-
# The bound of the receive buffer

`hal_usi_process` appends what it reads at the pending offset and always asks for as
many bytes as the whole buffer has.  It stays inside `puc_rxbuf0` in every run in
which what is read still fits behind the pending bytes and the second `memchr` does
not find a mark behind the buffer.  Nothing in the code makes sure of the first: one
pending byte and one full read are enough to leave the buffer.
-/
import PlcManager.UsiRuns

namespace Usi

/-- What a call must meet to stay inside the buffer: the bytes it reads fit behind
the pending ones, and its second search ends inside. -/
def FitsBuffer (inp : Input) (s : State) : Prop :=
  s.rxUsSize + inp.bytes.length ≤ txauxSize ∧ SearchInside inp s

/-- The pending count and all stores so far are inside the buffer. -/
def InBuffer (s : State) : Prop := s.rxUsSize ≤ txauxSize ∧ s.pucRxbuf0.top ≤ txauxSize

theorem Tracks.inBuffer {s : State} {p : List UInt8} {f : Bool} (h : Tracks s p f) : InBuffer s :=
  ⟨h.size ▸ h.loaded.length_le, h.loaded.top_le⟩

theorem invariant_fitsBuffer (cb : ℕ → Option Serialization) :
    Invariant cb (fun _ => FitsBuffer) fun _ _ _ _ => True := by
  refine ⟨fun _ _ _ _ _ _ _ => trivial, ?_, fun _ _ _ _ _ _ _ _ _ _ _ _ _ _ _ => trivial⟩
  rintro inp rest s p f b log htr hread ⟨hlen, hin⟩ -
  rw [htr.size, bytes_of_read hread, ← List.length_append] at hlen
  exact ⟨hlen, hin⟩

/-- A run whose calls all meet `FitsBuffer` ends inside the buffer. -/
theorem inBuffer_usiRun {s s' : State} {p : List UInt8} {f : Bool} {inps : List Input}
    {ev : List Event} (htr : Tracks s p f) (hoff : s.fdSocketLoopback ≤ 0)
    (hfits : Along (fun _ => FitsBuffer) inps s) (hrun : usiRun inps s = some (s', ev)) :
    InBuffer s' := by
  obtain ⟨s1, ev1, p', f', hrun1, htr', -, -, -, -⟩ := usiRun_induction (invariant_fitsBuffer _) []
    inps s p f [] htr rfl hoff (by rwa [List.append_nil]) trivial
  rw [hrun] at hrun1
  obtain ⟨rfl, rfl⟩ := Prod.mk.inj (Option.some.inj hrun1)
  exact htr'.inBuffer

/-- **Buffer bound.**  In a run whose calls all meet `FitsBuffer`, every state reached
is inside the buffer. -/
theorem usi_rx_buffer_bound (fd : ℤ) (behindRx behindTx : ℕ → UInt8)
    (regs : List (UInt8 × Option Serialization)) (inps : List Input)
    (hfits : Along (fun _ => FitsBuffer) inps (opened fd behindRx behindTx regs)) (k : ℕ) :
    ∃ s' ev, usiRun (inps.take k) (opened fd behindRx behindTx regs) = some (s', ev)
      ∧ InBuffer s' := by
  obtain ⟨s', ev, p', f', hrun, htr, -, -, -, -⟩ :=
    usiRun_induction (invariant_fitsBuffer _) (inps.drop k) (inps.take k)
      (opened fd behindRx behindTx regs) [] false [] (tracks_opened fd behindRx behindTx regs) rfl
      (by rw [loopback_opened]; omega) (by rwa [List.take_append_drop]) trivial
  exact ⟨s', ev, hrun, htr.inBuffer⟩

/-- Two frames of two bytes come in four reads, of which one ends in the first frame and two
in the second; the state after the third is inside the buffer. -/
theorem usi_rx_buffer_bound_cut :
    ∃ s' ev, usiRun ([oneRead [msgMark, 0x01], oneRead [0x02, msgMark, msgMark], oneRead [0x03],
        oneRead [0x04, msgMark]].take 3) (opened 3 (fun _ => 0) (fun _ => 0) []) = some (s', ev)
      ∧ InBuffer s' :=
  usi_rx_buffer_bound 3 (fun _ => 0) (fun _ => 0) [] _
    ((along_of_short _ (tracks_opened 3 (fun _ => 0) (fun _ => 0) []) (by decide)).mono
      fun _ _ _ h => ⟨Nat.le_of_lt h.1, h.2⟩) 3

/-- Bytes without a mark behind a pending mark are kept, however many they are. -/
theorem halUsiProcess_keeps {inp : Input} {s : State} {b : List UInt8}
    (hread : inp.read = some b) (hsize : s.rxUsSize = 1) (hmark : s.pucRxbuf0.cell 0 = msgMark)
    (hb : msgMark ∉ b) (hzero : ∀ j, 1 ≤ j → j < txauxSize → s.pucRxbuf0.cell j ≠ msgMark)
    (hbehind : ∀ j, inp.behind j ≠ msgMark) (hlen : 1 + b.length < 65536) :
    halUsiProcess inp s = some ({ s with
      pucRxbuf0 := rxMemory inp s b, sbCheckLen := true, rxUsSize := 1 + b.length }, []) := by
  have hcell0 : (rxMemory inp s b).cell 0 = msgMark := by
    rw [rxMemory, hsize, Mem.cell_storeList_of_not_mem (by omega)]
    exact hmark
  have hcells : ∀ j, 1 ≤ j → (rxMemory inp s b).cell j ≠ msgMark := by
    intro j hj
    rw [rxMemory, hsize]
    by_cases hlt : j < 1 + b.length
    · obtain ⟨k, rfl⟩ := Nat.exists_eq_add_of_le hj
      rw [Mem.cell_storeList_of_lt (show k < b.length by omega)]
      exact fun heq => hb (heq ▸ List.getElem_mem _)
    · rw [Mem.cell_storeList_of_not_mem (by omega)]
      show (if j < txauxSize then s.pucRxbuf0.cell j else inp.behind j) ≠ msgMark
      split_ifs with hin
      · exact hzero j hj hin
      · exact hbehind j
  have hfirst : (rxMemory inp s b).find msgMark 0 (1 + b.length) = some 0 := by
    rw [Nat.add_comm, Mem.find, if_pos hcell0]
  have hsecond : (rxMemory inp s b).find msgMark (0 + 1) (1 + b.length) = none := by
    rw [Mem.find_eq_none]
    intro hmem
    obtain ⟨k, hk, hget⟩ := List.getElem_of_mem hmem
    rw [Mem.getElem_slice] at hget
    exact hcells _ (by omega) hget
  rw [rxMemory, hsize] at hfirst hsecond
  unfold halUsiProcess
  rw [hread]
  simp only [hsize, Nat.mod_eq_of_lt hlen, hfirst, hsecond]
  rw [if_neg (by omega), rxMemory, hsize]

/-- A read that asks for the whole buffer while one byte is pending stores one byte
behind the end. -/
theorem usi_rx_buffer_overrun :
    ¬ ∀ (fd : ℤ) (behindRx behindTx : ℕ → UInt8) (regs : List (UInt8 × Option Serialization))
        (inps : List Input),
      (∀ inp ∈ inps, inp.bytes.length ≤ (opened fd behindRx behindTx regs).portRxSize) →
        ∀ s' ev, usiRun inps (opened fd behindRx behindTx regs) = some (s', ev) → InBuffer s' := by
  intro hclaim
  obtain ⟨zeros, hlen, hzeros⟩ : ∃ zeros : List UInt8, zeros.length = 1000 ∧ ∀ x ∈ zeros, x = 0 :=
    ⟨List.replicate 1000 0, List.length_replicate, fun _ hx => (List.mem_replicate.mp hx).2⟩
  set first : Input := ⟨some [msgMark], fun _ => 0, .acceptAll⟩ with hfirst
  set second : Input := ⟨some zeros, fun _ => 0, .acceptAll⟩ with hsecond
  set s0 := opened 3 (fun _ => 0) (fun _ => 0) [] with hs0
  set s1 : State :=
    { s0 with pucRxbuf0 := rxMemory first s0 [msgMark], sbCheckLen := true, rxUsSize := 1 } with hs1
  set s2 : State :=
    { s1 with
        pucRxbuf0 := rxMemory second s1 zeros, sbCheckLen := true, rxUsSize := 1 + zeros.length }
    with hs2
  have hne : (0 : UInt8) ≠ msgMark := by decide
  -- the first call leaves the mark pending, the second finds no other
  have hcall1 : halUsiProcess first s0 = some (s1, []) := rfl
  have hzero1 : ∀ j, 1 ≤ j → j < txauxSize → s1.pucRxbuf0.cell j ≠ msgMark := by
    intro j hj hlt
    have hcell : (rxMemory first s0 [msgMark]).cell j
        = if j < txauxSize then (if j < txauxSize then (0 : UInt8) else 0) else 0 :=
      Mem.cell_storeList_of_not_mem (Or.inr hj)
    rw [if_pos hlt, if_pos hlt] at hcell
    exact fun h => hne (hcell.symm.trans h)
  have hcall2 : halUsiProcess second s1 = some (s2, []) :=
    halUsiProcess_keeps rfl rfl rfl (fun hmem => hne (hzeros _ hmem).symm) hzero1 (fun _ => hne)
      (by omega)
  have hrun : usiRun [first, second] s0 = some (s2, []) := by
    rw [usiRun_cons hcall1, usiRun_cons hcall2]
    rfl
  have hbound := (hclaim 3 (fun _ => 0) (fun _ => 0) [] [first, second]
    (by
      intro inp hinp
      rcases List.mem_cons.mp hinp with rfl | hinp
      · decide
      · obtain rfl := List.mem_singleton.mp hinp
        exact hlen.le)
    s2 [] hrun).1
  have hsize : s2.rxUsSize = 1 + zeros.length := rfl
  rw [hsize, hlen, txauxSize] at hbound
  omega

end Usi
