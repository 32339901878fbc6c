/-
# Runs of the receiver

A run is one call of `hal_usi_process` after the other, from the state that
`hal_usi_init` and `hal_usi_open` leave and with any callbacks registered.  Each call
comes with what its `read` returns.  `Along` states a condition on every call of a
run; `usiRun_induction` carries an invariant of the pending bytes, the flag and the
bytes still to come through a run; `usiRun_settles` says what further empty reads
lead to.
-/
import PlcManager.UsiReceiver

namespace Usi

/-! ## Runs -/

/-- The bytes that a call reads. -/
def Input.bytes (inp : Input) : List UInt8 := inp.read.getD []

/-- A call that reads nothing. -/
def Input.Empty (inp : Input) : Prop := inp.read = some []

/-- The bytes that a list of calls reads. -/
def bytesRead (inps : List Input) : List UInt8 := (inps.map Input.bytes).flatten

@[simp] theorem bytesRead_nil : bytesRead [] = [] := rfl

@[simp] theorem bytesRead_cons (inp : Input) (inps : List Input) :
    bytesRead (inp :: inps) = inp.bytes ++ bytesRead inps := by
  simp [bytesRead]

theorem bytesRead_append (inps tail : List Input) :
    bytesRead (inps ++ tail) = bytesRead inps ++ bytesRead tail := by
  rw [bytesRead, List.map_append, List.flatten_append]
  rfl

theorem bytesRead_of_empty {tail : List Input} (h : ∀ i ∈ tail, i.Empty) : bytesRead tail = [] := by
  rw [bytesRead, List.flatten_eq_nil_iff]
  intro l hl
  obtain ⟨i, hi, rfl⟩ := List.mem_map.mp hl
  rw [Input.bytes, h i hi]
  rfl

/-- One call after the other. -/
def usiRun : List Input → State → Option (State × List Event)
  | [], s => some (s, [])
  | inp :: inps, s =>
      (halUsiProcess inp s).bind fun r => (usiRun inps r.1).map fun t => (t.1, r.2 ++ t.2)

/-- `C` holds of every call of the run, given the calls that are still to come, what
the call reads and the state it starts from. -/
def Along (C : List Input → Input → State → Prop) : List Input → State → Prop
  | [], _ => True
  | inp :: inps, s =>
      C inps inp s ∧ ∀ s' ev, halUsiProcess inp s = some (s', ev) → Along C inps s'

/-- The pending bytes of a call, those it reads included. -/
def pendingBytes (inp : Input) (s : State) : List UInt8 :=
  s.pucRxbuf0.slice 0 s.rxUsSize ++ inp.bytes

/-- Register callbacks, one after the other. -/
def registerAll (regs : List (UInt8 × Option Serialization)) (s : State) : State :=
  regs.foldl (fun s reg => (halUsiSetCallback reg.1 reg.2 s).1) s

/-- The state in which reception starts. -/
def opened (fd : ℤ) (behindRx behindTx : ℕ → UInt8)
    (regs : List (UInt8 × Option Serialization)) : State :=
  registerAll regs (halUsiOpen fd (halUsiInit (State.static behindRx behindTx)))

section Basics

variable {inps tail : List Input} {inp : Input} {s : State}

theorem usiRun_cons {s1 : State} {ev1 : List Event} (h : halUsiProcess inp s = some (s1, ev1)) :
    usiRun (inp :: inps) s = (usiRun inps s1).map fun t => (t.1, ev1 ++ t.2) := by
  rw [usiRun, h]
  rfl

theorem usiRun_append :
    usiRun (inps ++ tail) s
      = (usiRun inps s).bind fun r => (usiRun tail r.1).map fun t => (t.1, r.2 ++ t.2) := by
  induction inps generalizing s with
  | nil =>
      show usiRun tail s = (usiRun tail s).map fun t => (t.1, [] ++ t.2)
      simp
  | cons inp inps ih =>
      rw [List.cons_append, usiRun, usiRun]
      cases halUsiProcess inp s with
      | none => rfl
      | some r =>
          simp only [Option.bind_some]
          rw [ih]
          cases usiRun inps r.1 with
          | none => rfl
          | some r' => simp [List.append_assoc, Function.comp_def]

/-- A `read` that fails changes nothing. -/
theorem halUsiProcess_of_read_none (h : inp.read = none) : halUsiProcess inp s = some (s, []) := by
  rw [halUsiProcess, h]

theorem bytes_of_read {b : List UInt8} (h : inp.read = some b) : inp.bytes = b := by
  rw [Input.bytes, h]
  rfl

theorem bytes_of_read_none (h : inp.read = none) : inp.bytes = [] := by
  rw [Input.bytes, h]
  rfl

/-- The pending bytes of a call, for a state that represents `p`. -/
theorem Tracks.pendingBytes_eq {p b : List UInt8} {f : Bool} (h : Tracks s p f)
    (hread : inp.read = some b) : pendingBytes inp s = p ++ b := by
  rw [pendingBytes, h.size, h.loaded.slice, bytes_of_read hread]

end Basics

/-! ## Staying inside the buffer -/

/-- The pending bytes stay below the size of the buffer. -/
def PendingBelow (inp : Input) (s : State) : Prop := s.rxUsSize + inp.bytes.length < txauxSize

section Inside

variable {inp : Input} {s : State} {p b : List UInt8} {f : Bool}

theorem PendingBelow.length_lt (h : PendingBelow inp s) (htr : Tracks s p f)
    (hread : inp.read = some b) : (p ++ b).length < txauxSize := by
  rw [PendingBelow, htr.size, bytes_of_read hread] at h
  rwa [List.length_append]

/-- When the pending bytes begin with a mark, the second search starts at address 1
and has no room to leave the buffer. -/
theorem searchInside_of_head (htr : Tracks s p f) (hread : inp.read = some b)
    (hlen : (p ++ b).length < txauxSize) (hhead : ∀ x ∈ (p ++ b).head?, x = msgMark) :
    SearchInside inp s := by
  intro bytes first last hread' hfirst hlast
  obtain rfl : b = bytes := Option.some.inj (hread.symm.trans hread')
  have hload : Loaded (rxMemory inp s b) (p ++ b) := htr.loaded_rxMemory hlen.le
  rw [htr.pending_eq hlen.le] at hfirst hlast
  have hlt := (Mem.find_eq_some.mp hlast).2.1
  cases hq : p ++ b with
  | nil =>
      rw [hq] at hfirst
      simp [Mem.find] at hfirst
  | cons x t =>
      rw [hq] at hload hfirst hhead hlt hlen
      obtain rfl : x = msgMark := hhead x rfl
      have h0 := hload.find_first (g := []) (by simp)
      rw [List.nil_append] at h0
      obtain rfl : 0 = first := Option.some.inj (h0.symm.trans hfirst)
      omega

/-- With half a buffer to spare the second search cannot leave it either. -/
theorem searchInside_of_short (htr : Tracks s p f) (hread : inp.read = some b)
    (hlen : 2 * (p ++ b).length ≤ txauxSize) : SearchInside inp s := by
  intro bytes first last hread' hfirst hlast
  obtain rfl : b = bytes := Option.some.inj (hread.symm.trans hread')
  rw [htr.pending_eq (by omega)] at hfirst hlast
  have h1 := (Mem.find_eq_some.mp hfirst).2.1
  have h2 := (Mem.find_eq_some.mp hlast).2.1
  omega

/-- No step adds a byte. -/
theorem RxStep.length_le {cb : ℕ → Option Serialization} {p p' : List UInt8} {f f' : Bool}
    {e : List (ℕ × List UInt8)} (h : RxStep cb p f p' f' e) : p'.length ≤ p.length := by
  cases h with
  | idle f => exact le_rfl
  | discard p f hp hmark => exact Nat.zero_le _
  | wait g t f hg ht => exact le_rfl
  | resync g c r hg hc hlen =>
      simp only [List.length_append, List.length_cons]
      omega
  | take g c r f e hg hc hlen he hvalid =>
      simp only [List.length_append, List.length_cons]
      omega

end Inside

theorem Along.mono {C D : List Input → Input → State → Prop} {inps : List Input} {s : State}
    (hCD : ∀ rest inp s, C rest inp s → D rest inp s) (h : Along C inps s) : Along D inps s := by
  induction inps generalizing s with
  | nil => trivial
  | cons inp inps ih => exact ⟨hCD _ _ _ h.1, fun s' ev hs => ih (h.2 s' ev hs)⟩

theorem Along.and {C D : List Input → Input → State → Prop} {inps : List Input} {s : State}
    (hC : Along C inps s) (hD : Along D inps s) :
    Along (fun rest inp s => C rest inp s ∧ D rest inp s) inps s := by
  induction inps generalizing s with
  | nil => trivial
  | cons inp inps ih =>
      exact ⟨⟨hC.1, hD.1⟩, fun s' ev hs => ih (hC.2 s' ev hs) (hD.2 s' ev hs)⟩

/-- A condition along a run in two parts. -/
theorem along_append {C : List Input → Input → State → Prop} {inps tail : List Input} {s : State} :
    Along C (inps ++ tail) s ↔ Along (fun rest => C (rest ++ tail)) inps s
      ∧ ∀ s' ev, usiRun inps s = some (s', ev) → Along C tail s' := by
  induction inps generalizing s with
  | nil =>
      refine ⟨fun h => ⟨trivial, fun s' ev hrun => ?_⟩, fun h => h.2 s [] rfl⟩
      cases hrun
      exact h
  | cons inp inps ih =>
      constructor
      · rintro ⟨hC, hrest⟩
        refine ⟨⟨hC, fun s1 ev1 hs1 => (ih.mp (hrest s1 ev1 hs1)).1⟩, fun s' ev hrun => ?_⟩
        obtain ⟨⟨s1, ev1⟩, hs1, hmap⟩ := Option.bind_eq_some_iff.mp hrun
        obtain ⟨⟨s2, ev2⟩, hs2, heq⟩ := Option.map_eq_some_iff.mp hmap
        cases heq
        exact (ih.mp (hrest s1 ev1 hs1)).2 _ _ hs2
      · rintro ⟨⟨hC, hrest⟩, htail⟩
        refine ⟨hC, fun s1 ev1 hs1 => ih.mpr ⟨hrest s1 ev1 hs1, fun s' ev hs' => ?_⟩⟩
        refine htail s' (ev1 ++ ev) ?_
        rw [usiRun_cons hs1, hs']
        rfl

/-- A decidable condition is decidable along a run. -/
instance decidableAlong {C : List Input → Input → State → Prop}
    [∀ rest inp s, Decidable (C rest inp s)] : ∀ (inps : List Input) (s : State),
      Decidable (Along C inps s)
  | [], _ => isTrue trivial
  | inp :: inps, s =>
      match h : halUsiProcess inp s with
      | none =>
          decidable_of_iff (C inps inp s)
            ⟨fun hC => ⟨hC, fun s' ev hs => absurd (h.symm.trans hs) (by simp)⟩, fun hC => hC.1⟩
      | some (s1, ev1) =>
          have := decidableAlong (C := C) inps s1
          decidable_of_iff (C inps inp s ∧ Along C inps s1)
            ⟨fun hC => ⟨hC.1, fun s' ev hs => by
              obtain ⟨rfl, -⟩ := Prod.mk.inj (Option.some.inj (h.symm.trans hs))
              exact hC.2⟩,
              fun hC => ⟨hC.1, hC.2 s1 ev1 h⟩⟩

/-! ## The state in which reception starts -/

/-- Registering callbacks touches nothing else. -/
theorem registerAll_eq (regs : List (UInt8 × Option Serialization)) (s : State) :
    ∃ cb, registerAll regs s = { s with usiCfgMapProtocols := cb } := by
  induction regs generalizing s with
  | nil => exact ⟨s.usiCfgMapProtocols, rfl⟩
  | cons reg regs ih =>
      obtain ⟨cb, hcb⟩ := ih (halUsiSetCallback reg.1 reg.2 s).1
      refine ⟨cb, ?_⟩
      show registerAll regs (halUsiSetCallback reg.1 reg.2 s).1 = _
      rw [hcb]
      unfold halUsiSetCallback
      dsimp only
      split_ifs
      · rfl
      · rfl

section Opened

variable (fd : ℤ) (behindRx behindTx : ℕ → UInt8) (regs : List (UInt8 × Option Serialization))

/-- Registering changes the callbacks only. -/
theorem opened_eq : ∃ cb, opened fd behindRx behindTx regs
    = { halUsiOpen fd (halUsiInit (State.static behindRx behindTx)) with
        usiCfgMapProtocols := cb } :=
  registerAll_eq regs _

/-- Nothing is pending and the buffer is all zeros. -/
theorem tracks_opened : Tracks (opened fd behindRx behindTx regs) [] false := by
  obtain ⟨cb, hcb⟩ := opened_eq fd behindRx behindTx regs
  rw [hcb]
  refine ⟨⟨rfl, Nat.zero_le _, fun j _ hj => ?_, Nat.zero_le _⟩, rfl, rfl⟩
  show (if j < txauxSize then (0 : UInt8) else behindRx j) = 0
  rw [if_pos hj]

theorem loopback_opened : (opened fd behindRx behindTx regs).fdSocketLoopback = -1 := by
  obtain ⟨cb, hcb⟩ := opened_eq fd behindRx behindTx regs
  rw [hcb]
  rfl

theorem usIdxIn_opened : (opened fd behindRx behindTx regs).usIdxIn = 0 := by
  obtain ⟨cb, hcb⟩ := opened_eq fd behindRx behindTx regs
  rw [hcb]
  rfl

theorem txUsSize_opened : (opened fd behindRx behindTx regs).txUsSize = txauxSize := by
  obtain ⟨cb, hcb⟩ := opened_eq fd behindRx behindTx regs
  rw [hcb]
  rfl

end Opened

/-! ## Invariants of a run -/

section Induction

variable {cb : ℕ → Option Serialization} {C : List Input → Input → State → Prop}
  {J : List UInt8 → Bool → List Input → List (ℕ × List UInt8) → Prop}

/-- What makes `J` an invariant of every run whose calls meet `C`: a failed read
keeps it, a call that meets `C` stays inside the buffer, and the step it makes keeps
it. -/
structure Invariant (cb : ℕ → Option Serialization) (C : List Input → Input → State → Prop)
    (J : List UInt8 → Bool → List Input → List (ℕ × List UInt8) → Prop) : Prop where
  skip : ∀ inp rest p f log, inp.read = none → J p f (inp :: rest) log → J p f rest log
  inside : ∀ inp rest s p f b log, Tracks s p f → inp.read = some b → C rest inp s →
    J p f (inp :: rest) log → (p ++ b).length ≤ txauxSize ∧ SearchInside inp s
  step : ∀ inp rest s p f b log p' f' e, Tracks s p f → inp.read = some b → C rest inp s →
    J p f (inp :: rest) log → RxStep cb (p ++ b) f p' f' e → J p' f' rest (log ++ e)

/-- **Run rule.**  An invariant that holds at the start holds after every part of
the run, and the run does not get stuck. -/
theorem usiRun_induction (hJ : Invariant cb C J) (tail : List Input) :
    ∀ (inps : List Input) (s : State) (p : List UInt8) (f : Bool) (log : List (ℕ × List UInt8)),
      Tracks s p f → s.usiCfgMapProtocols = cb → s.fdSocketLoopback ≤ 0 →
      Along C (inps ++ tail) s → J p f (inps ++ tail) log →
      ∃ s' ev p' f', usiRun inps s = some (s', ev) ∧ Tracks s' p' f'
        ∧ s'.usiCfgMapProtocols = cb ∧ s'.fdSocketLoopback ≤ 0
        ∧ Along C tail s' ∧ J p' f' tail (log ++ received ev) := by
  -- on the calls, for every state, pending bytes and log
  intro inps
  induction inps with
  | nil =>
      intro s p f log htr hcb hoff halong hj
      exact ⟨s, [], p, f, rfl, htr, hcb, hoff, halong, by simpa using hj⟩
  | cons inp inps ih =>
      intro s p f log htr hcb hoff halong hj
      cases hread : inp.read with
      | none =>
          have hproc := halUsiProcess_of_read_none (s := s) hread
          obtain ⟨s', ev, p', f', hrun, hrest⟩ := ih s p f log htr hcb hoff (halong.2 s [] hproc)
            (hJ.skip _ _ _ _ _ hread hj)
          refine ⟨s', ev, p', f', ?_, hrest⟩
          rw [usiRun_cons hproc, hrun]
          rfl
      | some b =>
          obtain ⟨hlen, hin⟩ := hJ.inside _ _ _ _ _ _ _ htr hread halong.1 hj
          obtain ⟨s1, ev1, hproc⟩ := halUsiProcess_total htr hread hlen hoff
          obtain ⟨p1, f1, htr1, hstep, hcfg, hloop⟩ := halUsiProcess_step htr hread hlen hin hproc
          rw [hcb] at hstep
          obtain ⟨s', ev, p', f', hrun, htr', hcb', hoff', halong', hj'⟩ := ih s1 p1 f1
            (log ++ received ev1) htr1 (hcfg.trans hcb) (hloop ▸ hoff) (halong.2 s1 ev1 hproc)
            (hJ.step _ _ _ _ _ _ _ _ _ _ htr hread halong.1 hj hstep)
          refine ⟨s', ev1 ++ ev, p', f', ?_, htr', hcb', hoff', halong', ?_⟩
          · rw [usiRun_cons hproc, hrun]
            rfl
          · rwa [received_append, ← List.append_assoc]

/-- **Condition rule.**  What an invariant says of every call holds along the run. -/
theorem Along.of_invariant {D : List Input → Input → State → Prop} (hJ : Invariant cb C J)
    (hD : ∀ inp rest s p f log, Tracks s p f → C rest inp s → J p f (inp :: rest) log →
      D rest inp s) (inps : List Input) :
    ∀ (s : State) (p : List UInt8) (f : Bool) (log : List (ℕ × List UInt8)), Tracks s p f →
      s.usiCfgMapProtocols = cb → Along C inps s → J p f inps log → Along D inps s := by
  induction inps with
  | nil => exact fun _ _ _ _ _ _ _ _ => trivial
  | cons inp inps ih =>
      intro s p f log htr hcb halong hj
      refine ⟨hD _ _ _ _ _ _ htr halong.1 hj, fun s' ev hrun => ?_⟩
      cases hread : inp.read with
      | none =>
          have hrun' := hrun
          rw [halUsiProcess_of_read_none hread] at hrun'
          cases hrun'
          exact ih s p f log htr hcb (halong.2 s [] hrun) (hJ.skip _ _ _ _ _ hread hj)
      | some b =>
          obtain ⟨hlen, hin⟩ := hJ.inside _ _ _ _ _ _ _ htr hread halong.1 hj
          obtain ⟨p', f', htr', hstep, hcfg, -⟩ := halUsiProcess_step htr hread hlen hin hrun
          rw [hcb] at hstep
          exact ih s' p' f' _ htr' (hcfg.trans hcb) (halong.2 s' ev hrun)
            (hJ.step _ _ _ _ _ _ _ _ _ _ htr hread halong.1 hj hstep)

/-- A step either leaves at most one mark or makes the pending bytes fewer. -/
theorem RxStep.progress {p p' : List UInt8} {f f' : Bool} {e : List (ℕ × List UInt8)}
    (h : RxStep cb p f p' f' e) : p'.count msgMark ≤ 1 ∨ p'.length < p.length := by
  cases h with
  | idle f => exact Or.inl (Nat.zero_le _)
  | discard p f hp hmark => exact Or.inl (Nat.zero_le _)
  | wait g t f hg ht =>
      left
      rw [List.count_append, List.count_cons_self, List.count_eq_zero_of_not_mem hg,
        List.count_eq_zero_of_not_mem ht]
  | resync g c r hg hc hlen =>
      right
      simp only [List.length_append, List.length_cons]
      omega
  | take g c r f e hg hc hlen he hvalid =>
      right
      simp only [List.length_append, List.length_cons]
      omega

/-- No step adds a mark. -/
theorem RxStep.count_le {p p' : List UInt8} {f f' : Bool} {e : List (ℕ × List UInt8)}
    (h : RxStep cb p f p' f' e) : p'.count msgMark ≤ p.count msgMark := by
  cases h with
  | idle f => exact le_rfl
  | discard p f hp hmark => exact Nat.zero_le _
  | wait g t f hg ht => exact le_rfl
  | resync g c r hg hc hlen =>
      simp only [List.count_append, List.count_cons_self]
      omega
  | take g c r f e hg hc hlen he hvalid =>
      simp only [List.count_append, List.count_cons_self]
      omega

/-- Enough calls that read nothing use up everything but a last unpaired mark. -/
theorem usiRun_settles (hJ : Invariant cb C J) {tail : List Input} (htail : ∀ i ∈ tail, i.Empty)
    {s : State} {p : List UInt8} {f : Bool} {log : List (ℕ × List UInt8)} (htr : Tracks s p f)
    (hcb : s.usiCfgMapProtocols = cb) (hoff : s.fdSocketLoopback ≤ 0) (halong : Along C tail s)
    (hj : J p f tail log) (hlong : p.length ≤ tail.length) :
    ∃ s' ev p' f', usiRun tail s = some (s', ev) ∧ J p' f' [] (log ++ received ev)
      ∧ p'.count msgMark ≤ 1 := by
  -- every call that is left pays for one pending byte
  have hJ' : Invariant cb C fun p f rest log => J p f rest log ∧ (∀ i ∈ rest, i.Empty)
      ∧ (p.count msgMark ≤ 1 ∨ p.length ≤ rest.length) := by
    refine ⟨?_, fun inp rest s p f b log ht hr hc h => hJ.inside _ _ _ _ _ _ _ ht hr hc h.1, ?_⟩
    · rintro inp rest p f log hnone ⟨-, hempty, -⟩
      have := hempty inp (by simp)
      rw [Input.Empty, hnone] at this
      cases this
    · rintro inp rest s p f b log p' f' e ht hr hc ⟨hj, hempty, hset⟩ hstep
      refine ⟨hJ.step _ _ _ _ _ _ _ _ _ _ ht hr hc hj hstep,
        fun i hi => hempty i (by simp [hi]), ?_⟩
      have hb : b = [] := by
        have := hempty inp (by simp)
        rw [Input.Empty, hr] at this
        exact Option.some.inj this
      rw [hb, List.append_nil] at hstep
      rcases hset with hone | hfew
      · exact Or.inl (hstep.count_le.trans hone)
      · rcases hstep.progress with hone | hless
        · exact Or.inl hone
        · rw [List.length_cons] at hfew
          exact Or.inr (by omega)
  obtain ⟨s', ev, p', f', hrun, -, -, -, -, hj', -, hset⟩ := usiRun_induction hJ' [] tail s p f log
    htr hcb hoff (by rwa [List.append_nil])
    ⟨by rwa [List.append_nil], by rwa [List.append_nil], Or.inr (by rwa [List.append_nil])⟩
  refine ⟨s', ev, p', f', hrun, hj', ?_⟩
  rcases hset with hone | hnil
  · exact hone
  · rw [List.length_nil, Nat.le_zero] at hnil
    rw [List.length_eq_zero_iff.mp hnil]
    exact Nat.zero_le _

/-- **A whole transmission.**  After the calls `inps` and enough calls that read
nothing, an invariant holds with at most one mark pending. -/
theorem usiRun_complete (hJ : Invariant cb C J) {inps tail : List Input}
    (htail : ∀ i ∈ tail, i.Empty) (hlong : txauxSize ≤ tail.length) {s : State}
    (htr : Tracks s [] false) (hcb : s.usiCfgMapProtocols = cb) (hoff : s.fdSocketLoopback ≤ 0)
    (halong : Along C (inps ++ tail) s) (hj : J [] false (inps ++ tail) []) :
    ∃ s' ev p' f', usiRun (inps ++ tail) s = some (s', ev) ∧ J p' f' [] (received ev)
      ∧ p'.count msgMark ≤ 1 := by
  obtain ⟨s1, ev1, p1, f1, hrun1, htr1, hcb1, hoff1, halong1, hj1⟩ :=
    usiRun_induction hJ tail inps s [] false [] htr hcb hoff halong hj
  obtain ⟨s', ev, p', f', hrun, hj', hone⟩ := usiRun_settles hJ htail htr1 hcb1 hoff1 halong1 hj1
    (htr1.loaded.length_le.trans hlong)
  refine ⟨s', ev1 ++ ev, p', f', ?_, ?_, hone⟩
  · rw [usiRun_append, hrun1, Option.bind_some, hrun]
    rfl
  · rwa [List.nil_append, ← received_append] at hj'

end Induction

/-! ## Short runs -/

section Short

variable {cb : ℕ → Option Serialization} {inps : List Input} {s : State} {p : List UInt8} {f : Bool}

/-- As long as half a buffer has room for everything pending and to come, no call can
leave it. -/
theorem invariant_short (cb : ℕ → Option Serialization) :
    Invariant cb (fun _ _ _ => True) fun p _ rest _ =>
      2 * (p.length + (bytesRead rest).length) < txauxSize := by
  refine ⟨?_, ?_, ?_⟩
  · rintro inp rest p f log hnone h
    rwa [bytesRead_cons, bytes_of_read_none hnone, List.nil_append] at h
  · rintro inp rest s p f b log htr hread - h
    rw [bytesRead_cons, bytes_of_read hread, List.length_append] at h
    have hlen : 2 * (p ++ b).length ≤ txauxSize := by
      rw [List.length_append]
      omega
    exact ⟨by omega, searchInside_of_short htr hread hlen⟩
  · rintro inp rest s p f b log p' f' e htr hread - h hstep
    rw [bytesRead_cons, bytes_of_read hread, List.length_append] at h
    have hle := hstep.length_le
    rw [List.length_append] at hle
    omega

/-- A stream of less than half a buffer meets every bound, however it is cut. -/
theorem along_of_short (inps : List Input) (htr : Tracks s p f)
    (hshort : 2 * (p.length + (bytesRead inps).length) < txauxSize) :
    Along (fun _ inp s => PendingBelow inp s ∧ SearchInside inp s) inps s := by
  refine Along.of_invariant (invariant_short s.usiCfgMapProtocols) ?_ inps s p f [] htr rfl ?_
    hshort
  · rintro inp rest s p f log htr - h
    rw [bytesRead_cons, List.length_append] at h
    refine ⟨?_, fun bytes first last hread => ?_⟩
    · rw [PendingBelow, htr.size]
      omega
    · rw [bytes_of_read hread] at h
      exact searchInside_of_short htr hread (by rw [List.length_append]; omega) bytes first last
        hread
  · clear hshort htr
    induction inps generalizing s with
    | nil => trivial
    | cons inp inps ih => exact ⟨trivial, fun s' ev _ => ih⟩

/-- With one mark pending no step delivers. -/
theorem RxStep.silent {p' : List UInt8} {f' : Bool} {e : List (ℕ × List UInt8)}
    (h : RxStep cb p f p' f' e) (hone : p.count msgMark ≤ 1) : e = [] := by
  cases h with
  | idle f => rfl
  | discard p f hp hmark => rfl
  | wait g t f hg ht => rfl
  | resync g c r hg hc hlen => rfl
  | take g c r f e hg hc hlen he hvalid =>
      simp only [List.count_append, List.count_cons_self] at hone
      omega

theorem invariant_silent (cb : ℕ → Option Serialization) :
    Invariant cb (fun _ inp s => PendingBelow inp s ∧ SearchInside inp s) fun p _ rest log =>
      p.count msgMark ≤ 1 ∧ bytesRead rest = [] ∧ log = [] := by
  refine ⟨?_, ?_, ?_⟩
  · rintro inp rest p f log hnone ⟨hone, hrest, rfl⟩
    rw [bytesRead_cons] at hrest
    exact ⟨hone, (List.append_eq_nil_iff.mp hrest).2, rfl⟩
  · rintro inp rest s p f b log htr hread ⟨hbelow, hin⟩ -
    exact ⟨(hbelow.length_lt htr hread).le, hin⟩
  · rintro inp rest s p f b log p' f' e htr hread - ⟨hone, hrest, rfl⟩ hstep
    rw [bytesRead_cons, bytes_of_read hread] at hrest
    obtain ⟨rfl, hrest⟩ := List.append_eq_nil_iff.mp hrest
    rw [List.append_nil] at hstep
    exact ⟨hstep.count_le.trans hone, hrest, by rw [hstep.silent hone]; rfl⟩

/-- A short run stays inside the buffer, and so does what follows it. -/
theorem usiRun_short {tail : List Input} (htail : ∀ i ∈ tail, i.Empty) (htr : Tracks s p f)
    (hoff : s.fdSocketLoopback ≤ 0)
    (hshort : 2 * (p.length + (bytesRead inps).length) < txauxSize) :
    ∃ s' ev p' f', usiRun inps s = some (s', ev) ∧ Tracks s' p' f'
      ∧ s'.usiCfgMapProtocols = s.usiCfgMapProtocols ∧ s'.fdSocketLoopback ≤ 0
      ∧ Along (fun _ inp s => PendingBelow inp s ∧ SearchInside inp s) tail s' := by
  have hbytes : bytesRead (inps ++ tail) = bytesRead inps := by
    rw [bytesRead_append, bytesRead_of_empty htail, List.append_nil]
  have hinside : Invariant s.usiCfgMapProtocols
      (fun _ inp s => PendingBelow inp s ∧ SearchInside inp s) fun _ _ _ _ => True :=
    ⟨fun _ _ _ _ _ _ _ => trivial,
      fun _ _ _ _ _ _ _ htr hread h _ => ⟨(h.1.length_lt htr hread).le, h.2⟩,
      fun _ _ _ _ _ _ _ _ _ _ _ _ _ _ _ => trivial⟩
  obtain ⟨s', ev, p', f', hrun, htr', hcb, hoff', halong, -⟩ :=
    usiRun_induction hinside tail inps s p f [] htr rfl hoff
      (along_of_short _ htr (by rwa [hbytes])) trivial
  exact ⟨s', ev, p', f', hrun, htr', hcb, hoff', halong⟩

/-- What has not been delivered when one mark is left never is. -/
theorem usiRun_silent {tail : List Input} (htail : ∀ i ∈ tail, i.Empty) (htr : Tracks s p f)
    (hoff : s.fdSocketLoopback ≤ 0) (hshort : 2 * (p.length + (bytesRead inps).length) < txauxSize)
    {n : ℕ} (hn : n ≤ 1) (hrun : ((usiRun inps s).map fun r =>
      (received r.2, (r.1.pucRxbuf0.slice 0 r.1.rxUsSize).count msgMark)) = some ([], n)) :
    ∃ s' ev, usiRun (inps ++ tail) s = some (s', ev) ∧ received ev = [] := by
  obtain ⟨s1, ev1, p1, f1, hrun1, htr1, hcb1, hoff1, halong⟩ := usiRun_short htail htr hoff hshort
  rw [hrun1, Option.map_some] at hrun
  obtain ⟨hrec, hcount⟩ := Prod.mk.inj (Option.some.inj hrun)
  dsimp only at hrec hcount
  rw [htr1.size, htr1.loaded.slice] at hcount
  obtain ⟨s', ev, p', f', hrun', -, -, -, -, -, -, hlog⟩ :=
    usiRun_induction (invariant_silent _) [] tail s1 p1 f1 [] htr1 hcb1 hoff1
      (by rwa [List.append_nil]) ⟨by omega, by rw [List.append_nil, bytesRead_of_empty htail], rfl⟩
  refine ⟨s', ev1 ++ ev, ?_, ?_⟩
  · rw [usiRun_append, hrun1, Option.bind_some, hrun']
    rfl
  · rw [received_append, hrec]
    exact hlog

/-- When a run has left one mark at most, a condition on pending marks holds of all calls that
read nothing. -/
theorem along_of_settled {C : List Input → Input → State → Prop}
    (hC : ∀ rest inp s, (pendingBytes inp s).count msgMark ≤ 1 → C rest inp s)
    {tail : List Input} (htail : ∀ i ∈ tail, i.Empty) (htr : Tracks s p f)
    (hoff : s.fdSocketLoopback ≤ 0) (hshort : 2 * (p.length + (bytesRead inps).length) < txauxSize)
    {n : ℕ} (hn : n ≤ 1) (hrun : ((usiRun inps s).map fun r =>
      (r.1.pucRxbuf0.slice 0 r.1.rxUsSize).count msgMark) = some n)
    (hfirst : Along (fun rest => C (rest ++ tail)) inps s) : Along C (inps ++ tail) s := by
  refine along_append.mpr ⟨hfirst, fun s' ev hs' => ?_⟩
  obtain ⟨s1, ev1, p1, f1, hrun1, htr1, hcb1, hoff1, halong⟩ := usiRun_short htail htr hoff hshort
  obtain ⟨rfl, rfl⟩ := Prod.mk.inj (Option.some.inj (hs'.symm.trans hrun1))
  rw [hs', Option.map_some] at hrun
  have hcount := Option.some.inj hrun
  rw [htr1.size, htr1.loaded.slice] at hcount
  refine Along.of_invariant (invariant_silent s'.usiCfgMapProtocols) ?_ tail s' p1 f1 [] htr1 rfl
    halong ⟨by omega, bytesRead_of_empty htail, rfl⟩
  rintro inp rest r p f log htr' - ⟨hone, hnone, -⟩
  rw [bytesRead_cons] at hnone
  apply hC
  rw [pendingBytes, htr'.size, htr'.loaded.slice, (List.append_eq_nil_iff.mp hnone).1,
    List.append_nil]
  exact hone

end Short

/-! ## Concrete calls -/

/-- A call that reads `bytes`, with zeros behind the buffer. -/
def oneRead (bytes : List UInt8) : Input := ⟨some bytes, fun _ => 0, .acceptAll⟩

/-- Two calls that read `bytes`, cut behind the first `k`. -/
def cutReads (k : ℕ) (bytes : List UInt8) : List Input :=
  [oneRead (bytes.take k), oneRead (bytes.drop k)]

@[simp] theorem bytesRead_cutReads {k : ℕ} {bytes : List UInt8} :
    bytesRead (cutReads k bytes) = bytes := by
  simp [cutReads, oneRead, Input.bytes]

/-- `n` calls that read nothing. -/
def silence (n : ℕ) : List Input := List.replicate n (oneRead [])

theorem empty_of_mem_silence {n : ℕ} : ∀ i ∈ silence n, i.Empty := by
  intro i hi
  obtain ⟨-, rfl⟩ := List.mem_replicate.mp hi
  rfl

theorem length_silence {n : ℕ} : (silence n).length = n := List.length_replicate

end Usi
