/-
# The receiver as a machine on lists

`hal_usi_process` works on `puc_rxbuf0`, its pending count and `sb_check_len`.  Here
the same machine is described without a buffer: its state is the list of the pending
bytes and the flag, and `RxStep` lists the five things a call can do to them.  The
main result is that every call of the code is such a step, as long as the pending
bytes fit the buffer and the second `memchr` finds no mark behind it.

The invariant that connects the two (`Loaded`) says that the cells behind the
pending bytes are zero.  It is what keeps the second search, which looks further than
the pending bytes reach, from finding a mark that was never received.
-/
import PlcManager.UsiEncoder
import PlcManager.UsiDecoder

namespace Usi

/-! ## The buffer and its pending bytes -/

/-- The buffer holds the pending bytes `p`, then zeros, and nothing was ever stored
behind its end. -/
structure Loaded (m : Mem UInt8) (p : List UInt8) : Prop where
  slice : m.slice 0 p.length = p
  length_le : p.length ≤ txauxSize
  zero : ∀ j, p.length ≤ j → j < txauxSize → m.cell j = 0
  top_le : m.top ≤ txauxSize

namespace Loaded

variable {m m' : Mem UInt8} {p xs ys b : List UInt8}

theorem cell_eq (h : Loaded m p) {k : ℕ} (hk : k < p.length) : m.cell k = p[k] := by
  have := Mem.cell_of_slice h.slice hk
  rwa [Nat.zero_add] at this

/-- A `read` behind the pending bytes. -/
theorem read (h : Loaded m p) (behind : ℕ → UInt8) (hlen : (p ++ b).length ≤ txauxSize) :
    Loaded ((m.withBehind txauxSize behind).storeList p.length b) (p ++ b) := by
  have hp : (m.withBehind txauxSize behind).slice 0 p.length = p := by
    rw [Mem.slice_withBehind (by simpa using h.length_le), h.slice]
  refine ⟨?_, hlen, fun j hj hlt => ?_, ?_⟩
  · rw [List.length_append, Mem.slice_add, Nat.zero_add, Mem.slice_storeList,
      Mem.slice_storeList_of_disjoint (by omega), hp]
  · rw [List.length_append] at hj
    rw [Mem.cell_storeList_of_not_mem (by omega)]
    show (if j < txauxSize then m.cell j else behind j) = 0
    rw [if_pos hlt, h.zero j (by omega) hlt]
  · rw [List.length_append] at hlen
    exact Mem.top_storeList_le h.top_le hlen

/-- Shifting the front out. -/
theorem shift (h : Loaded m (xs ++ ys)) :
    Loaded (usiShiftBufferLeft m 0 xs.length (xs ++ ys).length) ys := by
  have hle := h.length_le
  have hlen : (xs ++ ys).length = xs.length + ys.length := List.length_append
  have hcell := @cell_usiShiftBufferLeft m 0 xs.length (xs ++ ys).length (by omega)
    (by unfold txauxSize at hle; omega)
  refine ⟨Mem.slice_eq rfl fun k hk => ?_, by omega, fun j hj hlt => ?_,
    top_usiShiftBufferLeft h.top_le (by omega)⟩
  · rw [hcell, if_pos (by omega), h.cell_eq (by omega)]
    simp
  · rw [hcell, if_neg (by omega)]
    split_ifs with hmid
    · rfl
    · exact h.zero j (by omega) hlt

/-- Wiping the pending bytes. -/
theorem clear (h : Loaded m p) : Loaded (m.storeList 0 (List.replicate p.length 0)) [] := by
  refine ⟨rfl, Nat.zero_le _, fun j _ hlt => ?_, ?_⟩
  · by_cases hj : j < p.length
    · have := Mem.cell_storeList_of_lt (m := m) (i := 0)
        (show j < (List.replicate p.length (0 : UInt8)).length by simpa using hj)
      rw [Nat.zero_add] at this
      rw [this]
      simp
    · rw [Mem.cell_storeList_of_not_mem (by simp; omega), h.zero j (by omega) hlt]
  · exact Mem.top_storeList_le h.top_le (by simpa using h.length_le)

/-- Changing bytes in front of `ys` only. -/
theorem edit (h : Loaded m (xs ++ ys)) (hout : ∀ j, xs.length ≤ j → m'.cell j = m.cell j)
    (htop : m'.top ≤ txauxSize) : ∃ xs', xs'.length = xs.length ∧ Loaded m' (xs' ++ ys) := by
  have hlen : (xs ++ ys).length = xs.length + ys.length := List.length_append
  have hle := h.length_le
  refine ⟨m'.slice 0 xs.length, by simp, ?_, by simp; omega, fun j hj hlt => ?_, htop⟩
  · rw [List.length_append, Mem.length_slice, Mem.slice_add, Nat.zero_add]
    congr 1
    have hys := (Mem.slice_append h.slice).2
    rw [Nat.zero_add] at hys
    rw [← hys]
    simp only [Mem.length_slice]
    exact Mem.slice_congr fun k hk _ => hout k hk
  · rw [List.length_append, Mem.length_slice] at hj
    rw [hout j (by omega), h.zero j (by omega) hlt]

/-- The first search. -/
theorem find_first {g t : List UInt8} (h : Loaded m (g ++ msgMark :: t)) (hg : msgMark ∉ g) :
    m.find msgMark 0 (g ++ msgMark :: t).length = some g.length := by
  rw [Mem.find_of_slice h.slice hg, Nat.zero_add]

theorem find_none (h : Loaded m p) (hp : msgMark ∉ p) : m.find msgMark 0 p.length = none := by
  rw [Mem.find_eq_none, h.slice]
  exact hp

/-- The bytes behind the first mark. -/
theorem slice_tail {g t : List UInt8} (h : Loaded m (g ++ msgMark :: t)) :
    m.slice (g.length + 1) t.length = t := by
  have hsplit : g ++ msgMark :: t = (g ++ [msgMark]) ++ t := by simp
  have := (Mem.slice_append (h.slice.trans hsplit)).2
  rwa [Nat.zero_add, List.length_append] at this

/-- The second search, when the closing mark is there. -/
theorem find_second {g c r : List UInt8} (h : Loaded m (g ++ msgMark :: (c ++ msgMark :: r)))
    (hc : msgMark ∉ c) :
    m.find msgMark (g.length + 1) (g ++ msgMark :: (c ++ msgMark :: r)).length
      = some (g.length + 1 + c.length) := by
  have htail := (Mem.slice_append h.slice_tail).1
  have hmark := Mem.cell_of_slice h.slice_tail (k := c.length) (by simp)
  rw [Mem.find_eq_some]
  refine ⟨by omega, by simp; omega, by rw [hmark]; simp, ?_⟩
  rw [Nat.add_sub_cancel_left, htail]
  exact hc

/-- The second search spans the zeros behind the pending bytes as well; it finds
nothing there, unless it runs past the end of the buffer. -/
theorem find_second_none {g t : List UInt8} (h : Loaded m (g ++ msgMark :: t))
    (ht : msgMark ∉ t)
    (hin : ∀ last, m.find msgMark (g.length + 1) (g ++ msgMark :: t).length = some last →
      last < txauxSize) :
    m.find msgMark (g.length + 1) (g ++ msgMark :: t).length = none := by
  cases hf : m.find msgMark (g.length + 1) (g ++ msgMark :: t).length with
  | none => rfl
  | some last =>
      obtain ⟨hlo, -, hcell, -⟩ := Mem.find_eq_some.mp hf
      by_cases hlt : last < (g ++ msgMark :: t).length
      · have hk : last - (g.length + 1) < t.length := by simp at hlt; omega
        have hc := Mem.cell_of_slice h.slice_tail hk
        rw [show g.length + 1 + (last - (g.length + 1)) = last by omega, hcell] at hc
        exact absurd (hc ▸ List.getElem_mem hk) ht
      · have hz := h.zero last (by omega) (hin last hf)
        rw [hcell] at hz
        exact absurd hz (by decide)

end Loaded

/-- The static variables represent the pending bytes `p` and the flag `f`. -/
structure Tracks (s : State) (p : List UInt8) (f : Bool) : Prop where
  loaded : Loaded s.pucRxbuf0 p
  size : s.rxUsSize = p.length
  flag : s.sbCheckLen = f

/-! ## The machine on lists -/

/-- The messages that the callbacks were handed, with the index of the callback. -/
def received (events : List Event) : List (ℕ × List UInt8) :=
  events.filterMap fun
    | .callback idx _ msg => some (idx, msg)
    | .write _ _ => none

@[simp] theorem received_nil : received [] = [] := rfl

@[simp] theorem received_append (xs ys : List Event) :
    received (xs ++ ys) = received xs ++ received ys := List.filterMap_append

/-- What a message amounts to for its callback. -/
def UsiMsg.delivery (u : UsiMsg) : ℕ × List UInt8 := (u.callbackIdx, u.delivered)

@[simp] theorem received_event (u : UsiMsg) (p : ℕ) : received [u.event p] = [u.delivery] := rfl

/-- One call of the receiver on pending bytes that already include what was read.
`cb` are the registered callbacks, the last argument is what they are handed. -/
inductive RxStep (cb : ℕ → Option Serialization) :
    List UInt8 → Bool → List UInt8 → Bool → List (ℕ × List UInt8) → Prop
  /-- Nothing is pending. -/
  | idle (f : Bool) : RxStep cb [] f [] f []
  /-- No mark: everything is dropped. -/
  | discard (p : List UInt8) (f : Bool) (hp : p ≠ []) (hmark : msgMark ∉ p) :
      RxStep cb p f [] f []
  /-- One mark: wait for the other, and check the length then. -/
  | wait (g t : List UInt8) (f : Bool) (hg : msgMark ∉ g) (ht : msgMark ∉ t) :
      RxStep cb (g ++ msgMark :: t) f (g ++ msgMark :: t) true []
  /-- The length is wrong: the closing mark is kept, to open the next frame. -/
  | resync (g c r : List UInt8) (hg : msgMark ∉ g) (hc : msgMark ∉ c)
      (hlen : ¬ LenOk (decoded c)) :
      RxStep cb (g ++ msgMark :: (c ++ msgMark :: r)) true (msgMark :: r) false []
  /-- The text between the marks is consumed with both marks, and delivered if it is
  found to be a message. -/
  | take (g c r : List UInt8) (f : Bool) (e : List (ℕ × List UInt8)) (hg : msgMark ∉ g)
      (hc : msgMark ∉ c) (hlen : f = true → LenOk (decoded c)) (he : e.length ≤ 1)
      (hvalid : ∀ u : UsiMsg, cb u.callbackIdx ≠ none → c = u.text → e = [u.delivery]) :
      RxStep cb (g ++ msgMark :: (c ++ msgMark :: r)) f r false e

/-! ## Every call is a step -/

/-- The final update of `hal_usi_process`: `k` bytes leave the buffer. -/
def consume (s : State) (k pending : ℕ) : State :=
  { s with
      pucRxbuf0 := usiShiftBufferLeft s.pucRxbuf0 0 (k : ℕ) (pending : ℕ)
      rxUsSize := uint16 ((pending : ℤ) - k) }

theorem tracks_consume {s : State} {xs ys : List UInt8} {f : Bool}
    (h : Loaded s.pucRxbuf0 (xs ++ ys)) (hf : s.sbCheckLen = f) :
    Tracks (consume s xs.length (xs ++ ys).length) ys f := by
  have hle := h.length_le
  rw [List.length_append, txauxSize] at hle
  refine ⟨h.shift, ?_, hf⟩
  show uint16 (((xs ++ ys).length : ℤ) - xs.length) = ys.length
  rw [List.length_append, uint16_of_nonneg (by omega) (by omega)]
  omega

/-- The three ways `processFrame` can go. -/
theorem processFrame_eq {w : Writes} {s : State} {pending first last : ℕ}
    (hp : pending < 32768) (hl : last + 1 < 32768) :
    processFrame w s pending first last =
      let dec := decodeCopy s.pucRxbuf0 first last
      let s' : State := { s with pucRxbuf0 := dec.1, sbCheckLen := false }
      if s.sbCheckLen = true ∧ ¬ checkIntegrityLen dec.1 first dec.2 = true then
        some (consume s' last pending, [])
      else if doEoMsg dec.1 (first + 1) dec.2 = true then
        (processMsg w s' (first + 1)).map fun r => (consume r.1 (last + 1) pending, r.2.1)
      else some (consume s' (last + 1) pending, []) := by
  have h1 : (last + 1) % 65536 = last + 1 := Nat.mod_eq_of_lt (by omega)
  have h2 : int16 (((last + 1 : ℕ) : ℤ) - 1) = (last : ℕ) := by
    rw [int16_of_nonneg (by omega) (by omega)]
    omega
  have h3 : int16 (pending : ℤ) = (pending : ℕ) := int16_of_nonneg (by omega) (by omega)
  have h4 : int16 ((last + 1 : ℕ) : ℤ) = ((last + 1 : ℕ) : ℤ) :=
    int16_of_nonneg (by omega) (by omega)
  have h5 : (pending : ℤ) - (((last + 1 : ℕ) : ℤ) - 1) = (pending : ℤ) - (last : ℕ) := by
    omega
  unfold processFrame consume
  simp only [h1, h2, h3, h4, h5, Bool.and_eq_true, Bool.not_eq_true', Bool.not_eq_true]
  split_ifs
  · rfl
  · rw [Option.map_map]
    rfl
  · rfl

/-- A text between two marks is decoded in place; the checks see its decoded bytes. -/
theorem processFrame_text {w : Writes} {s : State} {g c r : List UInt8}
    (h : Loaded s.pucRxbuf0 (g ++ msgMark :: (c ++ msgMark :: r))) :
    ∃ m', m'.slice (g.length + 1) (decoded c).length = decoded c
      ∧ (∀ j, g.length + 1 + c.length ≤ j → m'.cell j = s.pucRxbuf0.cell j) ∧ m'.top ≤ txauxSize
      ∧ processFrame w s (g ++ msgMark :: (c ++ msgMark :: r)).length g.length
          (g.length + 1 + c.length) =
        let s' : State := { s with pucRxbuf0 := m', sbCheckLen := false }
        let pending := (g ++ msgMark :: (c ++ msgMark :: r)).length
        let last := g.length + 1 + c.length
        if s.sbCheckLen = true ∧ ¬ LenOk (decoded c) then some (consume s' last pending, [])
        else if doEoMsg m' (g.length + 1) (decoded c).length = true then
          (processMsg w s' (g.length + 1)).map fun r => (consume r.1 (last + 1) pending, r.2.1)
        else some (consume s' (last + 1) pending, []) := by
  have hle := h.length_le
  simp only [List.length_append, List.length_cons, txauxSize] at hle
  have hmark : s.pucRxbuf0.cell g.length = msgMark := by
    rw [h.cell_eq (by simp)]
    simp
  have hc := (Mem.slice_append h.slice_tail).1
  obtain ⟨m', heq, hdec, hout, htop⟩ := decodeCopy_spec hmark hc (by omega) h.top_le
    (by unfold txauxSize; omega)
  refine ⟨m', hdec, fun j hj => hout j (by omega), htop, ?_⟩
  rw [processFrame_eq (by simp; omega) (by omega), heq]
  simp only [checkIntegrityLen_slice hdec]

/-! ## Sending leaves the receiver alone -/

theorem received_sendLoop {result : ℕ → ℕ → ℤ} {fdWr : ℤ} {m : Mem UInt8} {usLen : ℕ} (fuel : ℕ) :
    ∀ {k usIdxIn i : ℕ} {st : Status} {ev : List Event},
      sendLoop result fdWr m usLen fuel k usIdxIn = some (i, st, ev) → received ev = [] := by
  induction fuel with
  | zero =>
      intro k usIdxIn i st ev h
      unfold sendLoop at h
      split_ifs at h
      cases h
      rfl
  | succ fuel ih =>
      intro k usIdxIn i st ev h
      unfold sendLoop at h
      dsimp only at h
      split_ifs at h
      · cases h
        rfl
      · obtain ⟨⟨i', st', ev'⟩, hrec, heq⟩ := Option.map_eq_some_iff.mp h
        cases heq
        have hev := ih hrec
        exact hev
      · cases h
        rfl

/-- Sending changes the transmit half of the state only and calls nobody back. -/
theorem halUsiSendCmd_frame {w : Writes} {s s' : State} {msg : XUsiCmd} {st : Status}
    {ev : List Event} (h : halUsiSendCmd w s msg = some (s', st, ev)) :
    (∃ m k, s' = { s with pucTxbuf0 := m, usIdxIn := k }) ∧ received ev = [] := by
  have hsame : ∃ m k, s = { s with pucTxbuf0 := m, usIdxIn := k } :=
    ⟨s.pucTxbuf0, s.usIdxIn, rfl⟩
  unfold halUsiSendCmd at h
  split_ifs at h
  · cases h
    exact ⟨hsame, rfl⟩
  · cases h
    exact ⟨hsame, rfl⟩
  · dsimp only at h
    split_ifs at h
    · cases h
      exact ⟨hsame, rfl⟩
    · unfold usiEncodeAndSend at h
      dsimp only at h
      split_ifs at h
      · cases h
        exact ⟨⟨_, s.usIdxIn, rfl⟩, rfl⟩
      all_goals
        split at h
        · cases h
          exact ⟨⟨_, s.usIdxIn, rfl⟩, rfl⟩
        · obtain ⟨⟨i, st', ev'⟩, hloop, heq⟩ := Option.map_eq_some_iff.mp h
          cases heq
          exact ⟨⟨_, _, rfl⟩, received_sendLoop _ hloop⟩

/-- Processing a message changes the transmit half of the state only and calls at
most one callback. -/
theorem processMsg_frame {w : Writes} {s s' : State} {p : ℕ} {r : UInt8} {ev : List Event}
    (h : processMsg w s p = some (s', ev, r)) :
    (∃ m k, s' = { s with pucTxbuf0 := m, usIdxIn := k }) ∧ (received ev).length ≤ 1 := by
  rcases processMsg_cases h with ⟨rfl, rfl⟩ | ⟨idx, q, msg, r', -, hrest⟩
  · exact ⟨⟨s'.pucTxbuf0, s'.usIdxIn, rfl⟩, Nat.zero_le _⟩
  · rcases hrest with ⟨rfl, rfl⟩ | ⟨cmd, st, sent, hsend, rfl⟩
    · exact ⟨⟨s'.pucTxbuf0, s'.usIdxIn, rfl⟩, le_rfl⟩
    · obtain ⟨hs, hev⟩ := halUsiSendCmd_frame hsend
      refine ⟨hs, ?_⟩
      rw [received_append, hev]
      exact le_rfl

/-- The callback is called once, whatever the loopback does. -/
theorem received_of_dispatch {w : Writes} {s s' : State} {ev : List Event} {t r r' : UInt8}
    {p n idx q : ℕ} {msg : List UInt8} (ht : typeProtocol (s.pucRxbuf0.cell (p + 1)) = t)
    (hn : announcedLen s.pucRxbuf0 p = n)
    (hguard : ¬ (n = 0 ∧ ¬ (t = protocolMngpPrimeReset ∨ t = protocolMngpPrimeReboot)))
    (hd : dispatch s t p n = some ([.callback idx q msg], r'))
    (h : processMsg w s p = some (s', ev, r)) : received ev = [(idx, msg)] := by
  rw [processMsg_of_dispatch ht hn hguard hd] at h
  split_ifs at h
  · obtain ⟨⟨s1, st, sent⟩, hsend, heq⟩ := Option.map_eq_some_iff.mp h
    cases heq
    rw [received_append, (halUsiSendCmd_frame hsend).2]
    rfl
  · cases h
    rfl

/-- A valid message reaches its callback. -/
theorem received_processMsg_body {w : Writes} {s s' : State} {u : UsiMsg} {p : ℕ} {r : UInt8}
    {ev : List Event} (hbody : s.pucRxbuf0.slice p u.body.length = u.body)
    (hreg : s.usiCfgMapProtocols u.callbackIdx ≠ none) (h : processMsg w s p = some (s', ev, r)) :
    received ev = [u.delivery] := by
  obtain ⟨pf, hpf⟩ := Option.ne_none_iff_exists'.mp hreg
  exact received_of_dispatch (u.typeProtocol_cell hbody) (u.announcedLen_body hbody)
    u.not_invalid_length (u.dispatch_body hbody hpf) h

/-! ## The refinement -/

/-- The buffer a call searches: what was read stands behind the pending bytes, and
the cells behind the buffer are not ours. -/
def rxMemory (inp : Input) (s : State) (bytes : List UInt8) : Mem UInt8 :=
  (s.pucRxbuf0.withBehind txauxSize inp.behind).storeList s.rxUsSize bytes

/-- The second search of the call does not end behind the buffer. -/
def SearchInside (inp : Input) (s : State) : Prop :=
  ∀ bytes first last, inp.read = some bytes →
    (rxMemory inp s bytes).find msgMark 0 ((s.rxUsSize + bytes.length) % 65536) = some first →
    (rxMemory inp s bytes).find msgMark (first + 1) ((s.rxUsSize + bytes.length) % 65536)
      = some last → last < txauxSize

section Refinement

variable {inp : Input} {s s' : State} {p b : List UInt8} {f : Bool} {ev : List Event}

theorem Tracks.loaded_rxMemory (h : Tracks s p f) (hlen : (p ++ b).length ≤ txauxSize) :
    Loaded (rxMemory inp s b) (p ++ b) := by
  rw [rxMemory, h.size]
  exact h.loaded.read inp.behind hlen

theorem Tracks.pending_eq (h : Tracks s p f) (hlen : (p ++ b).length ≤ txauxSize) :
    (s.rxUsSize + b.length) % 65536 = (p ++ b).length := by
  unfold txauxSize at hlen
  rw [List.length_append] at hlen ⊢
  rw [h.size]
  exact Nat.mod_eq_of_lt (by omega)

/-- The call, with the pending count and the searched buffer named. -/
theorem halUsiProcess_eq (h : Tracks s p f) (hread : inp.read = some b)
    (hlen : (p ++ b).length ≤ txauxSize) :
    halUsiProcess inp s =
      let s1 : State := { s with pucRxbuf0 := rxMemory inp s b }
      if (p ++ b).length = 0 then some (s1, [])
      else
        match s1.pucRxbuf0.find msgMark 0 (p ++ b).length with
        | none =>
            some ({ s1 with
                      rxUsSize := 0
                      pucRxbuf0 := s1.pucRxbuf0.storeList 0
                        (List.replicate (p ++ b).length 0) }, [])
        | some first =>
            match s1.pucRxbuf0.find msgMark (first + 1) (p ++ b).length with
            | none => some ({ s1 with sbCheckLen := true, rxUsSize := (p ++ b).length }, [])
            | some last => processFrame inp.writes s1 (p ++ b).length first last := by
  unfold halUsiProcess
  rw [hread]
  simp only [h.pending_eq hlen]
  rfl

/-- With the loopback off every call returns. -/
theorem processFrame_total {w : Writes} {pending first last : ℕ} (hoff : s.fdSocketLoopback ≤ 0)
    (hp : pending < 32768) (hl : last + 1 < 32768) :
    ∃ s' ev, processFrame w s pending first last = some (s', ev) := by
  rw [processFrame_eq hp hl]
  dsimp only
  split_ifs
  · exact ⟨_, _, rfl⟩
  · obtain ⟨events, r, hmsg, -⟩ := processMsg_of_loopback_off (w := w)
      (s := { s with pucRxbuf0 := (decodeCopy s.pucRxbuf0 first last).1, sbCheckLen := false })
      (p := first + 1) hoff
    rw [hmsg]
    exact ⟨_, _, rfl⟩
  · exact ⟨_, _, rfl⟩

theorem halUsiProcess_total (h : Tracks s p f) (hread : inp.read = some b)
    (hlen : (p ++ b).length ≤ txauxSize) (hoff : s.fdSocketLoopback ≤ 0) :
    ∃ s' ev, halUsiProcess inp s = some (s', ev) := by
  rw [halUsiProcess_eq h hread hlen]
  unfold txauxSize at hlen
  dsimp only
  split_ifs
  · exact ⟨_, _, rfl⟩
  · split
    · exact ⟨_, _, rfl⟩
    · rename_i first hfirst
      have h1 := (Mem.find_eq_some.mp hfirst).2.1
      split
      · exact ⟨_, _, rfl⟩
      · rename_i last hlast
        have h2 := (Mem.find_eq_some.mp hlast).2.1
        exact processFrame_total hoff (by omega) (by omega)

/-- **One frame.**  With both marks pending the call resynchronises on a bad frame or
takes the frame. -/
theorem processFrame_step {w : Writes} {g c r : List UInt8}
    (hload : Loaded s.pucRxbuf0 (g ++ msgMark :: (c ++ msgMark :: r)))
    (hflag : s.sbCheckLen = f) (hg : msgMark ∉ g) (hc : msgMark ∉ c)
    (hrun : processFrame w s (g ++ msgMark :: (c ++ msgMark :: r)).length g.length
      (g.length + 1 + c.length) = some (s', ev)) :
    ∃ p' f', Tracks s' p' f'
      ∧ RxStep s.usiCfgMapProtocols (g ++ msgMark :: (c ++ msgMark :: r)) f p' f' (received ev)
      ∧ s'.usiCfgMapProtocols = s.usiCfgMapProtocols
      ∧ s'.fdSocketLoopback = s.fdSocketLoopback := by
  obtain ⟨m', hdec, hout, htop, hproc⟩ := processFrame_text (w := w) hload
  rw [hproc] at hrun
  have hfull : g ++ msgMark :: (c ++ msgMark :: r) = (g ++ msgMark :: (c ++ [msgMark])) ++ r := by
    simp
  have hkeep : g ++ msgMark :: (c ++ msgMark :: r) = (g ++ msgMark :: c) ++ msgMark :: r := by
    simp
  have hlenfull : (g ++ msgMark :: (c ++ [msgMark])).length = g.length + 1 + c.length + 1 := by
    simp; omega
  have hlenkeep : (g ++ msgMark :: c).length = g.length + 1 + c.length := by
    simp; omega
  -- what is left once both marks are gone, for any state with the decoded buffer
  have hfinish : ∀ s1 : State, s1.pucRxbuf0 = m' → s1.sbCheckLen = false →
      Tracks (consume s1 (g.length + 1 + c.length + 1)
        (g ++ msgMark :: (c ++ msgMark :: r)).length) r false := by
    intro s1 hs1 hclear
    obtain ⟨xs, hxs, hloaded⟩ := (hfull ▸ hload).edit
      (fun j hj => hout j (by omega)) htop
    have htr := tracks_consume (s := s1) (hs1 ▸ hloaded) hclear
    rwa [List.length_append, hxs, ← List.length_append, ← hfull, hlenfull] at htr
  dsimp only at hrun
  by_cases hresync : s.sbCheckLen = true ∧ ¬ LenOk (decoded c)
  · rw [if_pos hresync] at hrun
    cases hrun
    obtain ⟨xs, hxs, hloaded⟩ := (hkeep ▸ hload).edit
      (fun j hj => hout j (by omega)) htop
    have htr := tracks_consume
      (s := { s with pucRxbuf0 := m', sbCheckLen := false }) hloaded rfl
    rw [List.length_append, hxs, ← List.length_append, ← hkeep, hlenkeep] at htr
    refine ⟨msgMark :: r, false, htr, ?_, rfl, rfl⟩
    rw [← hflag, hresync.1]
    exact .resync g c r hg hc hresync.2
  · rw [if_neg hresync] at hrun
    have hcheck : f = true → LenOk (decoded c) := by
      intro hf
      by_contra hbad
      exact hresync ⟨hflag.trans hf, hbad⟩
    by_cases heo : doEoMsg m' (g.length + 1) (decoded c).length = true
    · rw [if_pos heo] at hrun
      obtain ⟨⟨s2, ev2, r2⟩, hmsg, heq⟩ := Option.map_eq_some_iff.mp hrun
      cases heq
      obtain ⟨⟨mt, kt, rfl⟩, hone⟩ := processMsg_frame hmsg
      refine ⟨r, false, hfinish _ rfl rfl, .take g c r f _ hg hc hcheck hone ?_, rfl, rfl⟩
      rintro u hreg rfl
      rw [UsiMsg.text, decoded_stuff] at hdec
      exact received_processMsg_body (s := { s with pucRxbuf0 := m', sbCheckLen := false })
        hdec hreg hmsg
    · rw [if_neg heo] at hrun
      cases hrun
      refine ⟨r, false, hfinish _ rfl rfl, .take g c r f _ hg hc hcheck (Nat.zero_le _) ?_, rfl,
        rfl⟩
      rintro u hreg rfl
      rw [UsiMsg.text, decoded_stuff] at hdec heo
      exact absurd (u.doEoMsg_body hdec) heo

/-- **Refinement.**  A call that keeps the pending bytes inside the buffer, and whose
second search does not leave it, is a step of the machine on lists. -/
theorem halUsiProcess_step (h : Tracks s p f) (hread : inp.read = some b)
    (hlen : (p ++ b).length ≤ txauxSize) (hin : SearchInside inp s)
    (hrun : halUsiProcess inp s = some (s', ev)) :
    ∃ p' f', Tracks s' p' f' ∧ RxStep s.usiCfgMapProtocols (p ++ b) f p' f' (received ev)
      ∧ s'.usiCfgMapProtocols = s.usiCfgMapProtocols
      ∧ s'.fdSocketLoopback = s.fdSocketLoopback := by
  have hload : Loaded (rxMemory inp s b) (p ++ b) := h.loaded_rxMemory hlen
  have hpend := h.pending_eq hlen
  rw [halUsiProcess_eq h hread hlen] at hrun
  have hinside : ∀ first last,
      (rxMemory inp s b).find msgMark 0 (p ++ b).length = some first →
      (rxMemory inp s b).find msgMark (first + 1) (p ++ b).length = some last →
      last < txauxSize := by
    rw [← hpend]
    exact fun first last => hin b first last hread
  have hpnil : p ++ b = [] → s.rxUsSize = 0 := by
    intro hq
    rw [h.size, (List.append_eq_nil_iff.mp hq).1]
    rfl
  -- from here on the step depends on the searched buffer and the pending bytes only
  generalize rxMemory inp s b = m at *
  generalize p ++ b = q at *
  dsimp only at hrun
  by_cases hnil : q = []
  · subst hnil
    cases hrun
    exact ⟨[], f, ⟨hload, hpnil rfl, h.flag⟩, .idle f, rfl, rfl⟩
  have hne : q.length ≠ 0 := fun h0 => hnil (List.length_eq_zero_iff.mp h0)
  rw [if_neg hne] at hrun
  by_cases hmark : msgMark ∈ q
  swap
  · rw [hload.find_none hmark] at hrun
    cases hrun
    exact ⟨[], f, ⟨hload.clear, rfl, h.flag⟩, .discard q f hnil hmark, rfl, rfl⟩
  obtain ⟨g, t, rfl, hg⟩ := List.eq_append_cons_of_mem hmark
  rw [hload.find_first hg] at hrun
  dsimp only at hrun
  by_cases htail : msgMark ∈ t
  swap
  · rw [hload.find_second_none htail (hinside g.length · (hload.find_first hg))] at hrun
    cases hrun
    exact ⟨_, true, ⟨hload, rfl, rfl⟩, .wait g t f hg htail, rfl, rfl⟩
  obtain ⟨c, r, rfl, hc⟩ := List.eq_append_cons_of_mem htail
  rw [hload.find_second hc] at hrun
  exact processFrame_step (s := { s with pucRxbuf0 := m }) hload h.flag hg hc hrun

end Refinement

end Usi
