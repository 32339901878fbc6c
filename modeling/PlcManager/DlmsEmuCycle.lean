/-
# Which nodes a cycle visits

A cycle should ask every connected node for an association, once and in the order of
the list.  A node that has answered its release request is left twice: `_next_step`
goes on to the next node and arms the next-node timer, whose handler goes on once more.
The node in between is skipped.  So a cycle asks exactly the connected nodes if and only
if no node but the last one answers its release request with a valid response.

A `Visit` is what a cycle does, seen from the list of nodes; the emulator refines it.
-/
import PlcManager.DlmsEmuSteps
import PlcManager.Runs

namespace DlmsEmu

open Dlmsotcp (DataRequest cl432InvalidAddress)

/-! ## The nodes of a list -/

/-- The connected nodes from 1 up to `n`, in order. -/
def connectedUpTo (nodes : Mem UInt8) (n : ℕ) : List ℕ :=
  (List.range' 1 n).filter fun i => decide (Connected nodes i)

/-- The connected nodes with an index from 1 to 15. -/
def connectedNodes (nodes : Mem UInt8) : List ℕ := connectedUpTo nodes 15

/-- No node behind `n` is connected. -/
def IsLast (nodes : Mem UInt8) (n : ℕ) : Prop :=
  ∀ k, n < k → k < dlmsEmuMaxNumNodesConnected.toNat → ¬ Connected nodes k

instance (nodes : Mem UInt8) (n : ℕ) : Decidable (IsLast nodes n) :=
  decidable_of_iff (∀ k < dlmsEmuMaxNumNodesConnected.toNat, n < k → ¬ Connected nodes k)
    ⟨fun h k hn hk => h k hk hn, fun h k hk hn => h k hn hk⟩

/-- `m` is the first connected node behind `n`. -/
structure IsNext (nodes : Mem UInt8) (n m : ℕ) : Prop where
  lt : n < m
  inTable : m < dlmsEmuMaxNumNodesConnected.toNat
  connected : Connected nodes m
  first : ∀ k, n < k → k < m → ¬ Connected nodes k

section Nodes

variable {nodes : Mem UInt8} {n m i : ℕ}

theorem IsNext.not_isLast (h : IsNext nodes n m) : ¬ IsLast nodes n :=
  fun hlast => hlast m h.lt h.inTable h.connected

/-- A node that is not the last one has a next one. -/
theorem exists_isNext (h : ¬ IsLast nodes n) : ∃ m, IsNext nodes n m := by
  classical
  have hex : ∃ k, n < k ∧ k < dlmsEmuMaxNumNodesConnected.toNat ∧ Connected nodes k := by
    by_contra hnone
    apply h
    intro k hlt hk hconnected
    exact hnone ⟨k, hlt, hk, hconnected⟩
  obtain ⟨hlt, hk, hconnected⟩ := Nat.find_spec hex
  refine ⟨Nat.find hex, hlt, hk, hconnected, fun j hj hjlt hjconnected => ?_⟩
  exact Nat.find_min hex hjlt ⟨hj, hjlt.trans hk, hjconnected⟩

theorem IsNext.unique (h : IsNext nodes n m) (h' : IsNext nodes n i) : m = i := by
  rcases lt_trichotomy m i with hlt | heq | hgt
  · exact absurd h.connected (h'.first m h.lt hlt)
  · exact heq
  · exact absurd h'.connected (h.first i h'.lt hgt)

theorem mem_connectedUpTo : i ∈ connectedUpTo nodes n ↔ 1 ≤ i ∧ i ≤ n ∧ Connected nodes i := by
  rw [connectedUpTo, List.mem_filter, List.mem_range'_1, decide_eq_true_iff]
  constructor
  · rintro ⟨⟨hge, hlt⟩, hconnected⟩
    exact ⟨hge, by omega, hconnected⟩
  · rintro ⟨hge, hle, hconnected⟩
    exact ⟨⟨hge, by omega⟩, hconnected⟩

theorem connectedUpTo_succ (n : ℕ) : connectedUpTo nodes (n + 1) =
    connectedUpTo nodes n ++ if Connected nodes (n + 1) then [n + 1] else [] := by
  unfold connectedUpTo
  rw [List.range'_concat, List.filter_append, Nat.one_mul, Nat.add_comm 1 n]
  rw [List.filter_singleton]
  by_cases h : Connected nodes (n + 1)
  · rw [if_pos h, decide_eq_true h, cond_true]
  · rw [if_neg h, decide_eq_false h, cond_false]

/-- Nodes that are not connected add nothing. -/
theorem connectedUpTo_of_gap (hle : n ≤ m) (h : ∀ k, n < k → k ≤ m → ¬ Connected nodes k) :
    connectedUpTo nodes m = connectedUpTo nodes n := by
  induction m, hle using Nat.le_induction with
  | base => rfl
  | succ m hle ih =>
      rw [connectedUpTo_succ, if_neg (h _ (by omega) le_rfl), List.append_nil]
      exact ih fun k hlt hk => h k hlt (by omega)

theorem IsNext.connectedUpTo (h : IsNext nodes n m) :
    connectedUpTo nodes m = DlmsEmu.connectedUpTo nodes n ++ [m] := by
  obtain ⟨d, rfl⟩ : ∃ d, m = d + 1 := ⟨m - 1, by have := h.lt; omega⟩
  rw [connectedUpTo_succ, if_pos h.connected,
    connectedUpTo_of_gap (by have := h.lt; omega) fun k hlt hk => h.first k hlt (by omega)]

theorem IsLast.connectedNodes (h : IsLast nodes n)
    (hn : n < dlmsEmuMaxNumNodesConnected.toNat) :
    connectedNodes nodes = connectedUpTo nodes n := by
  have hsize : dlmsEmuMaxNumNodesConnected.toNat = 16 := rfl
  exact connectedUpTo_of_gap (by omega) fun k hlt hk => h k hlt (by omega)

end Nodes

/-! ## Visits -/

/-- Where a cycle stands, and with which node; `release` says whether the step is the
last one of the node. -/
inductive Stage where
  | idle
  | waiting (node : ℕ) (release : Bool)
  | answered (node : ℕ) (release : Bool)
  | passing (node : ℕ)
  | ended

/-- A stage, and the nodes that have been asked for an association. -/
structure Visit where
  stage : Stage
  asked : List ℕ

/-- What a visit does next. -/
inductive Visit.Step (nodes : Mem UInt8) : Visit → Visit → Prop where
  | stay (v : Visit) : Step nodes v v
  | answer (n : ℕ) (r : Bool) (as : List ℕ) :
      Step nodes ⟨.waiting n r, as⟩ ⟨.answered n r, as⟩
  | fail (n : ℕ) (r : Bool) (as : List ℕ) : Step nodes ⟨.waiting n r, as⟩ ⟨.passing n, as⟩
  | timeout (n m : ℕ) (r : Bool) (as : List ℕ) (h : IsNext nodes n m) :
      Step nodes ⟨.waiting n r, as⟩ ⟨.waiting m false, as ++ [m]⟩
  | timeoutLast (n : ℕ) (r : Bool) (as : List ℕ) (h : IsLast nodes n) :
      Step nodes ⟨.waiting n r, as⟩ ⟨.ended, as⟩
  | again (n : ℕ) (r : Bool) (as : List ℕ) :
      Step nodes ⟨.answered n false, as⟩ ⟨.waiting n r, as⟩
  -- after a release the next node is not asked, it is passed
  | skip (n m : ℕ) (as : List ℕ) (h : IsNext nodes n m) :
      Step nodes ⟨.answered n true, as⟩ ⟨.passing m, as⟩
  | releaseLast (n : ℕ) (as : List ℕ) (h : IsLast nodes n) :
      Step nodes ⟨.answered n true, as⟩ ⟨.ended, as⟩
  | pass (n m : ℕ) (as : List ℕ) (h : IsNext nodes n m) :
      Step nodes ⟨.passing n, as⟩ ⟨.waiting m false, as ++ [m]⟩
  | passLast (n : ℕ) (as : List ℕ) (h : IsLast nodes n) :
      Step nodes ⟨.passing n, as⟩ ⟨.ended, as⟩

/-- A release request has been answered by a node that is not the last one. -/
def Stage.Skips (nodes : Mem UInt8) : Stage → Prop
  | .answered n true => ¬ IsLast nodes n
  | _ => False

/-- Every connected node so far has been asked. -/
def Visit.Covers (nodes : Mem UInt8) (v : Visit) : Prop :=
  ¬ v.stage.Skips nodes ∧
    match v.stage with
    | .idle => True
    | .waiting n _ | .answered n _ | .passing n =>
        n < dlmsEmuMaxNumNodesConnected.toNat ∧ v.asked = connectedUpTo nodes n
    | .ended => v.asked = connectedNodes nodes

/-- A connected node has not been asked, and never will be. -/
def Visit.Misses (nodes : Mem UInt8) (v : Visit) : Prop :=
  ∃ m ∈ connectedNodes nodes, m ∉ v.asked ∧
    match v.stage with
    | .idle => False
    | .waiting n _ => m < n
    | .answered n r => m < n ∨ r = true ∧ IsNext nodes n m
    | .passing n => m ≤ n
    | .ended => True

section Visits

variable {nodes : Mem UInt8} {v v' : Visit}

/-- A step keeps the nodes covered, unless it leads to a skip. -/
theorem Visit.Covers.step (h : v.Covers nodes) (hstep : Visit.Step nodes v v')
    (hskip : ¬ v'.stage.Skips nodes) : v'.Covers nodes := by
  refine ⟨hskip, ?_⟩
  cases hstep with
  | stay => exact h.2
  | answer n r as => exact h.2
  | fail n r as => exact h.2
  | timeout n m r as hnext =>
      refine ⟨hnext.inTable, ?_⟩
      rw [hnext.connectedUpTo, ← h.2.2]
  | timeoutLast n r as hlast => exact h.2.2.trans (hlast.connectedNodes h.2.1).symm
  | again n r as => exact h.2
  | skip n m as hnext => exact absurd hnext.not_isLast h.1
  | releaseLast n as hlast => exact h.2.2.trans (hlast.connectedNodes h.2.1).symm
  | pass n m as hnext =>
      refine ⟨hnext.inTable, ?_⟩
      rw [hnext.connectedUpTo, ← h.2.2]
  | passLast n as hlast => exact h.2.2.trans (hlast.connectedNodes h.2.1).symm

/-- A step that leads to a skip misses the node that comes next. -/
theorem Visit.Covers.skips (h : v.Covers nodes) (hstep : Visit.Step nodes v v')
    (hskip : v'.stage.Skips nodes) : v'.Misses nodes := by
  cases hstep with
  | stay => exact absurd hskip h.1
  | answer n r as =>
      cases r with
      | false => exact hskip.elim
      | true =>
          obtain ⟨m, hnext⟩ := exists_isNext hskip
          have hlt := hnext.lt
          have hsize : m < 16 := hnext.inTable
          refine ⟨m, ?_, ?_, Or.inr ⟨rfl, hnext⟩⟩
          · exact mem_connectedUpTo.mpr ⟨by omega, by omega, hnext.connected⟩
          · intro hm
            have hle := (mem_connectedUpTo.mp (h.2.2 ▸ hm)).2.1
            omega
  | fail | timeout | timeoutLast | again | skip | releaseLast | pass | passLast =>
      exact hskip.elim

/-- A node that is missed stays missed. -/
theorem Visit.Misses.step (h : v.Misses nodes) (hstep : Visit.Step nodes v v') :
    v'.Misses nodes := by
  obtain ⟨k, hk, hnot, hstage⟩ := h
  cases hstep with
  | stay => exact ⟨k, hk, hnot, hstage⟩
  | answer n r as => exact ⟨k, hk, hnot, Or.inl hstage⟩
  | fail n r as => exact ⟨k, hk, hnot, le_of_lt hstage⟩
  | timeout n m r as hnext =>
      have hlt : k < m := hstage.trans hnext.lt
      refine ⟨k, hk, ?_, hlt⟩
      rw [List.mem_append, List.mem_singleton, not_or]
      exact ⟨hnot, hlt.ne⟩
  | timeoutLast n r as hlast => exact ⟨k, hk, hnot, trivial⟩
  | again n r as =>
      rcases hstage with hlt | ⟨hr, -⟩
      · exact ⟨k, hk, hnot, hlt⟩
      · exact absurd hr (by simp)
  | skip n m as hnext =>
      refine ⟨k, hk, hnot, ?_⟩
      rcases hstage with hlt | ⟨-, hnext'⟩
      · exact (hlt.trans hnext.lt).le
      · exact (hnext'.unique hnext).le
  | releaseLast n as hlast => exact ⟨k, hk, hnot, trivial⟩
  | pass n m as hnext =>
      have hlt : k < m := lt_of_le_of_lt hstage hnext.lt
      refine ⟨k, hk, ?_, hlt⟩
      rw [List.mem_append, List.mem_singleton, not_or]
      exact ⟨hnot, hlt.ne⟩
  | passLast n as hlast => exact ⟨k, hk, hnot, trivial⟩

end Visits

/-! ## Cycles of the emulator -/

/-- A cycle under way, and whether the last request waits for the end of its step. -/
structure CycleState where
  emu : State
  waiting : Bool

/-- An event that ends a step: a response, a negative confirm, or the timeout. -/
def Event.EndsStep : Event → Prop
  | .dataInd .. => True
  | .dataCfm _ _ _ ucTxStatus => IsNegativeStatus ucTxStatus
  | .expire .timeout => True
  | _ => False

instance : DecidablePred Event.EndsStep := fun e =>
  match e with
  | .dataInd .. => isTrue trivial
  | .dataCfm _ _ _ ucTxStatus => inferInstanceAs (Decidable (IsNegativeStatus ucTxStatus))
  | .expire .timeout => isTrue trivial
  | .expire .nextCycle | .expire .nextNode | .expire .nextStep => isFalse id
  | .command .. | .response .. | .joinInd .. | .leaveInd .. => isFalse id

/-- The other events of a cycle, which leave the set of connected nodes as it is. -/
def Event.CarriesOn : Event → Prop
  | .dataCfm .. => True
  | .expire .nextNode => True
  | .expire .nextStep => True
  | _ => False

instance : DecidablePred Event.CarriesOn := fun e =>
  match e with
  | .dataCfm .. => isTrue trivial
  | .expire .nextNode | .expire .nextStep => isTrue trivial
  | .expire .nextCycle | .expire .timeout => isFalse id
  | .dataInd .. | .command .. | .response .. | .joinInd .. | .leaveInd .. => isFalse id

/-- A request is made on the way from one state to the other. -/
def sends (s s' : State) : Bool := decide (s.requests.length < s'.requests.length)

/-- A step of a cycle.  A step of a node ends once: what ends it comes only while its
request waits. -/
def cycleStep (e : Event) (c : CycleState) : Option CycleState :=
  if e.EndsStep then
    if c.waiting then (step e c.emu).map fun s' => ⟨s', sends c.emu s'⟩ else none
  else if e.CarriesOn then (step e c.emu).map fun s' => ⟨s', c.waiting || sends c.emu s'⟩
  else none

/-- A cycle begins. -/
def cycleBegin (s : State) : CycleState := ⟨startCycle s, sends s (startCycle s)⟩

/-- What has left the module since the cycle began in `s`. -/
def cycleOutputs (s : State) (c : CycleState) : List Output := c.emu.trace.drop s.trace.length

/-- The nodes that are asked for an association. -/
def associations (outs : List Output) : List ℕ :=
  outs.filterMap fun out =>
    out.request?.bind fun r =>
      if r.lsdu = cmdDlmsAssociationRequest then some r.usDstAddress.toNat else none

/-- A release request is answered with a valid response by the last connected node only. -/
def ReleasesLast : Event → CycleState → Prop
  | .dataInd _ _ _ _ pucData _ _, c =>
      c.emu.sucCurrentNodeDlmsStep = .releaseRequest → CheckDlmsMessage .releaseRequest pucData →
        IsLast c.emu.sxListNodes c.emu.susCurrentNode.toNat
  | _, _ => True

/-! ### The emulator refines a visit -/

/-- A state in the middle of a cycle that began with the list `nodes`, when `past` had
left the module; since then `outs` has. -/
structure Follows (nodes : Mem UInt8) (past : List Output) (s : State) (outs : List Output) :
    Prop where
  list : s.sxListNodes = nodes
  below : ∀ i, i < dlmsEmuMaxNumNodesConnected.toNat → Connected nodes i →
    i < s.susMaxIndexConnectedNode.toNat
  max_le : s.susMaxIndexConnectedNode.toNat ≤ dlmsEmuMaxNumNodesConnected.toNat
  trace : s.trace = past ++ outs

/-- The stage of the timers, of the current node and of its step. -/
inductive Refines (nodes : Mem UInt8) (past : List Output) : CycleState → Visit → Prop where
  | idle {s : State} (hnode : s.timers.armed .nextNode = false)
      (hstep : s.timers.armed .nextStep = false) (htrace : s.trace = past) :
      Refines nodes past ⟨s, false⟩ ⟨.idle, []⟩
  | waiting {s : State} {outs : List Output} (hs : Follows nodes past s outs)
      (hnode : s.timers.armed .nextNode = false) (hstep : s.timers.armed .nextStep = false)
      (hend : .reportEndCycle ∉ outs)
      (hlt : s.susCurrentNode.toNat < dlmsEmuMaxNumNodesConnected.toNat)
      (hconnected : Connected nodes s.susCurrentNode.toNat) :
      Refines nodes past ⟨s, true⟩
        ⟨.waiting s.susCurrentNode.toNat (decide (s.sucCurrentNodeDlmsStep = .releaseRequest)),
          associations outs⟩
  | answered {s : State} {outs : List Output} (hs : Follows nodes past s outs)
      (hnode : s.timers.armed .nextNode = false) (hstep : s.timers.armed .nextStep = true)
      (hend : .reportEndCycle ∉ outs)
      (hlt : s.susCurrentNode.toNat < dlmsEmuMaxNumNodesConnected.toNat)
      (hconnected : Connected nodes s.susCurrentNode.toNat) :
      Refines nodes past ⟨s, false⟩
        ⟨.answered s.susCurrentNode.toNat (decide (s.sucCurrentNodeDlmsStep = .releaseRequest)),
          associations outs⟩
  | passing {s : State} {outs : List Output} (hs : Follows nodes past s outs)
      (hnode : s.timers.armed .nextNode = true) (hstep : s.timers.armed .nextStep = false)
      (hend : .reportEndCycle ∉ outs)
      (hlt : s.susCurrentNode.toNat < dlmsEmuMaxNumNodesConnected.toNat) :
      Refines nodes past ⟨s, false⟩ ⟨.passing s.susCurrentNode.toNat, associations outs⟩
  | ended {s : State} {outs : List Output} (htrace : s.trace = past ++ outs)
      (hnode : s.timers.armed .nextNode = false) (hstep : s.timers.armed .nextStep = false) :
      Refines nodes past ⟨s, false⟩ ⟨.ended, associations outs⟩

section Refinement

variable {nodes : Mem UInt8} {past outs new : List Output} {s s' q : State} {c c' : CycleState}
  {v : Visit} {e : Event}

/-- The search of the emulator finds the next connected node. -/
theorem Follows.next_cases (h : Follows nodes past s outs)
    (hlt : s.susCurrentNode.toNat < dlmsEmuMaxNumNodesConnected.toNat) :
    (¬ getNextNodeToCycle s.susCurrentNode s < dlmsEmuMaxNumNodesConnected
        ∧ IsLast nodes s.susCurrentNode.toNat)
      ∨ getNextNodeToCycle s.susCurrentNode s < dlmsEmuMaxNumNodesConnected
        ∧ IsNext nodes s.susCurrentNode.toNat (getNextNodeToCycle s.susCurrentNode s).toNat := by
  have hsize : dlmsEmuMaxNumNodesConnected.toNat = 16 := rfl
  have hsucc : (s.susCurrentNode + 1).toNat = s.susCurrentNode.toNat + 1 := by
    rw [UInt16.toNat_add, show (1 : UInt16).toNat = 1 from rfl]
    omega
  have hmax := h.max_le
  rcases getNextNodeToCycle_cases s.susCurrentNode s with
    ⟨hnone, hnot⟩ | ⟨hconnected, hge, hltmax, hfirst⟩
  · left
    rw [hnone]
    refine ⟨UInt16.lt_irrefl _, fun k hk hk16 hck => ?_⟩
    rw [h.list] at hnot
    exact hnot k (by omega) (h.below k hk16 hck) hck
  · right
    rw [h.list] at hconnected hfirst
    have htable : (getNextNodeToCycle s.susCurrentNode s).toNat
        < dlmsEmuMaxNumNodesConnected.toNat := by omega
    exact ⟨UInt16.lt_iff_toNat_lt.mpr htable,
      ⟨by omega, htable, hconnected, fun k hk hk' => hfirst k (by omega) hk'⟩⟩

theorem associations_append : associations (outs ++ new) = associations outs ++ associations new :=
  List.filterMap_append

theorem associations_end : associations (outs ++ [.reportEndCycle]) = associations outs := by
  simp [associations, Output.request?]

/-- What makes a request. -/
theorem sends_sendRequest (usIndex : UInt16) (t : DlmsStatusTag) (h : s'.requests = s.requests) :
    sends s (sendRequest usIndex t s') = true := by
  obtain ⟨lsdu, -, htrace⟩ := sendRequest_trace usIndex t s'
  unfold sends State.requests at *
  rw [htrace, List.filterMap_append, h, List.length_append, decide_eq_true_iff]
  simp [Output.request?]

theorem sends_of_requests (h : s'.requests = s.requests) : sends s s' = false := by
  unfold sends
  rw [h, decide_eq_false_iff_not]
  exact lt_irrefl _

/-- Neither the timers nor the current node and its step matter. -/
theorem Follows.congr (h : Follows nodes past s outs) (hlist : s'.sxListNodes = s.sxListNodes)
    (hmax : s'.susMaxIndexConnectedNode = s.susMaxIndexConnectedNode)
    (htrace : s'.trace = s.trace) : Follows nodes past s' outs where
  list := hlist.trans h.list
  below := by
    rw [hmax]
    exact h.below
  max_le := by
    rw [hmax]
    exact h.max_le
  trace := htrace.trans h.trace

theorem Follows.emit (h : Follows nodes past s outs) (new : List Output) :
    Follows nodes past (s.emit new) (outs ++ new) where
  list := h.list
  below := h.below
  max_le := h.max_le
  trace := by
    show s.trace ++ new = past ++ (outs ++ new)
    rw [h.trace, List.append_assoc]

/-- A success confirm arms the timeout, whatever the stage. -/
theorem Refines.startTimeout {w : Bool} (h : Refines nodes past ⟨s, w⟩ v) :
    Refines nodes past ⟨startTimer .timeout s, w⟩ v := by
  cases h with
  | idle hnode hstep htrace => exact .idle hnode hstep htrace
  | waiting hs hnode hstep hend hlt hconnected =>
      exact .waiting (hs.congr rfl rfl rfl) hnode hstep hend hlt hconnected
  | answered hs hnode hstep hend hlt hconnected =>
      exact .answered (hs.congr rfl rfl rfl) hnode hstep hend hlt hconnected
  | passing hs hnode hstep hend hlt =>
      exact .passing (hs.congr rfl rfl rfl) hnode hstep hend hlt
  | ended htrace hnode hstep => exact .ended htrace hnode hstep

/-- A request to a connected node, with the next-node and next-step timers disarmed. -/
theorem Refines.sendRequest (hs : Follows nodes past s outs)
    (hnode : s.timers.armed .nextNode = false) (hstep : s.timers.armed .nextStep = false)
    (hend : .reportEndCycle ∉ outs)
    (hlt : s.susCurrentNode.toNat < dlmsEmuMaxNumNodesConnected.toNat)
    (hconnected : Connected nodes s.susCurrentNode.toNat) :
    Refines nodes past ⟨DlmsEmu.sendRequest s.susCurrentNode s.sucCurrentNodeDlmsStep s, true⟩
      ⟨.waiting s.susCurrentNode.toNat (decide (s.sucCurrentNodeDlmsStep = .releaseRequest)),
        associations outs ++
          if s.sucCurrentNodeDlmsStep = .associationRequest then [s.susCurrentNode.toNat]
          else []⟩ := by
  obtain ⟨lsdu, hlsdu, htrace⟩ := sendRequest_trace s.susCurrentNode s.sucCurrentNodeDlmsStep s
  have hasked : associations [.selectApi s.siDlmsEmuAppId,
      .dataRequest ⟨0, 0, s.susCurrentNode, lsdu, UInt16.ofNat lsdu.length, 0⟩] =
        if s.sucCurrentNodeDlmsStep = .associationRequest then [s.susCurrentNode.toNat]
        else [] := by
    by_cases h : s.sucCurrentNodeDlmsStep = .associationRequest
    · rw [if_pos h]
      simp [associations, Output.request?, hlsdu.mpr h]
    · rw [if_neg h]
      have hne : lsdu ≠ cmdDlmsAssociationRequest := fun hl => h (hlsdu.mp hl)
      simp [associations, Output.request?, hne]
  rw [← hasked, ← associations_append]
  refine .waiting ⟨hs.list, hs.below, hs.max_le, ?_⟩ hnode hstep ?_ hlt hconnected
  · rw [htrace, hs.trace, List.append_assoc]
  · rw [List.mem_append, not_or]
    exact ⟨hend, by simp⟩

/-- `_cycle_next_node` asks the next connected node, or it ends the cycle. -/
theorem Refines.cycleNextNode (hs : Follows nodes past s outs)
    (hnode : s.timers.armed .nextNode = false) (hstep : s.timers.armed .nextStep = false)
    (hend : .reportEndCycle ∉ outs)
    (hlt : s.susCurrentNode.toNat < dlmsEmuMaxNumNodesConnected.toNat)
    (hrequests : s.requests = q.requests) :
    (∃ m, IsNext nodes s.susCurrentNode.toNat m ∧
        Refines nodes past ⟨DlmsEmu.cycleNextNode s, sends q (DlmsEmu.cycleNextNode s)⟩
          ⟨.waiting m false, associations outs ++ [m]⟩)
      ∨ IsLast nodes s.susCurrentNode.toNat ∧
        Refines nodes past ⟨DlmsEmu.cycleNextNode s, sends q (DlmsEmu.cycleNextNode s)⟩
          ⟨.ended, associations outs⟩ := by
  rcases hs.next_cases hlt with ⟨hnot, hlast⟩ | ⟨hnext16, hnext⟩
  · right
    refine ⟨hlast, ?_⟩
    have hended : (DlmsEmu.cycleNextNode s).requests = q.requests := by
      rw [cycleNextNode_of_not_lt hnot, ← hrequests]
      simp [State.requests, startTimer, State.emit, Output.request?]
    rw [sends_of_requests hended, cycleNextNode_of_not_lt hnot, ← associations_end]
    exact .ended (hs.emit _).trace hnode hstep
  · left
    refine ⟨_, hnext, ?_⟩
    -- the state in which the request is made
    obtain ⟨r, hr⟩ : ∃ r : State, r = { s with
      susCurrentNode := getNextNodeToCycle s.susCurrentNode s
      sucCurrentNodeDlmsStep := .associationRequest } := ⟨_, rfl⟩
    have hcurrent : r.susCurrentNode = getNextNodeToCycle s.susCurrentNode s := by rw [hr]
    have hassociation : r.sucCurrentNodeDlmsStep = .associationRequest := by rw [hr]
    have hfollows : Follows nodes past r outs := by
      rw [hr]
      exact hs.congr rfl rfl rfl
    rw [← hcurrent] at hnext ⊢
    have hasked := Refines.sendRequest hfollows (by rwa [hr]) (by rwa [hr]) hend hnext.inTable
      hnext.connected
    rw [hassociation] at hasked
    rw [cycleNextNode_of_lt hnext16, ← hr, ← hcurrent,
      sends_sendRequest _ _ (show r.requests = q.requests by rw [hr]; exact hrequests)]
    exact hasked

/-- The request of a step that is not the first one. -/
theorem Refines.stMachineSend (hs : Follows nodes past s outs)
    (hnode : s.timers.armed .nextNode = false) (hstep : s.timers.armed .nextStep = false)
    (hend : .reportEndCycle ∉ outs)
    (hlt : s.susCurrentNode.toNat < dlmsEmuMaxNumNodesConnected.toNat)
    (hconnected : Connected nodes s.susCurrentNode.toNat)
    (hne : s.sucCurrentNodeDlmsStep ≠ .associationRequest) (hrequests : s.requests = q.requests) :
    Refines nodes past
      ⟨DlmsEmu.stMachineSend s.susCurrentNode s.sucCurrentNodeDlmsStep s,
        sends q (DlmsEmu.stMachineSend s.susCurrentNode s.sucCurrentNodeDlmsStep s)⟩
      ⟨.waiting s.susCurrentNode.toNat (decide (s.sucCurrentNodeDlmsStep = .releaseRequest)),
        associations outs⟩ := by
  have hsent := Refines.sendRequest hs hnode hstep hend hlt hconnected
  rw [if_neg hne, List.append_nil] at hsent
  have hconnected' : Connected s.sxListNodes s.susCurrentNode.toNat := by rwa [hs.list]
  rw [stMachineSend_of_connected hconnected', sends_sendRequest _ _ hrequests]
  exact hsent

/-- What ends a step comes while its request waits. -/
theorem cycleStep_endsStep (he : e.EndsStep) (hc : cycleStep e c = some c') :
    c.waiting = true ∧ ∃ s', step e c.emu = some s' ∧ c' = ⟨s', sends c.emu s'⟩ := by
  rw [cycleStep, if_pos he] at hc
  split_ifs at hc with hwaiting
  obtain ⟨s', hs', heq⟩ := Option.map_eq_some_iff.mp hc
  exact ⟨hwaiting, s', hs', heq.symm⟩

theorem cycleStep_carriesOn (he : ¬ e.EndsStep) (hc : cycleStep e c = some c') :
    e.CarriesOn ∧ ∃ s', step e c.emu = some s' ∧ c' = ⟨s', c.waiting || sends c.emu s'⟩ := by
  rw [cycleStep, if_neg he] at hc
  split_ifs at hc with hcarries
  obtain ⟨s', hs', heq⟩ := Option.map_eq_some_iff.mp hc
  exact ⟨hcarries, s', hs', heq.symm⟩

/-- A confirm that does not end a step. -/
theorem Refines.confirm {dstLsap srcLsap status : UInt8} {dst : UInt16} (h : Refines nodes past c v)
    (hstatus : ¬ IsNegativeStatus status)
    (hc : cycleStep (.dataCfm dstLsap srcLsap dst status) c = some c') :
    Refines nodes past c' v := by
  obtain ⟨s, w⟩ := c
  obtain ⟨-, s', hs', rfl⟩ :=
    cycleStep_carriesOn (e := .dataCfm dstLsap srcLsap dst status) hstatus hc
  obtain rfl := Option.some.inj hs'
  unfold dlmsEmuCl432DlDataCfmCb
  dsimp only
  by_cases hsuccess : status = cl432TxStatusSuccess
  · have hsends : sends s (startTimer .timeout s) = false := sends_of_requests rfl
    rw [if_pos hsuccess, hsends, Bool.or_false]
    exact h.startTimeout
  · rw [if_neg hsuccess, if_neg hstatus, sends_of_requests rfl, Bool.or_false]
    exact h

/-- The report of a node makes no request and asks no node. -/
theorem reportNode_requests (pcResult : String) (s : State) :
    (reportNode pcResult s).requests = s.requests := by
  simp [reportNode, State.emit, State.requests, Output.request?]

theorem associations_report (info : DlmsReportInfo) :
    associations (outs ++ [.reportNodeCycle info]) = associations outs := by
  simp [associations, Output.request?]

theorem end_not_mem_report {info : DlmsReportInfo} (h : .reportEndCycle ∉ outs) :
    .reportEndCycle ∉ outs ++ [.reportNodeCycle info] := by
  rw [List.mem_append, not_or]
  exact ⟨h, by simp⟩

/-- A node is reported. -/
theorem Follows.report (h : Follows nodes past s outs) (pcResult : String) :
    ∃ info, Follows nodes past (reportNode pcResult s) (outs ++ [.reportNodeCycle info]) :=
  ⟨_, h.emit _⟩

/-- A step has failed: the next-node timer is armed. -/
theorem Refines.fail (pcResult : String) (hs : Follows nodes past s outs)
    (hstep : s.timers.armed .nextStep = false) (hend : .reportEndCycle ∉ outs)
    (hlt : s.susCurrentNode.toNat < dlmsEmuMaxNumNodesConnected.toNat)
    (hrequests : s.requests = q.requests) :
    Refines nodes past ⟨startTimer .nextNode (reportNode pcResult s),
      sends q (startTimer .nextNode (reportNode pcResult s))⟩
      ⟨.passing s.susCurrentNode.toNat, associations outs⟩ := by
  have hreport : (startTimer .nextNode (reportNode pcResult s)).requests = q.requests :=
    (reportNode_requests pcResult s).trans hrequests
  obtain ⟨info, hfollows⟩ := hs.report pcResult
  rw [sends_of_requests hreport, ← associations_report info]
  exact .passing (hfollows.congr rfl rfl rfl) rfl hstep
    (end_not_mem_report hend) hlt

/-- The next-step timer of a node that has answered its release request expires. -/
theorem Refines.release (hs : Follows nodes past s outs)
    (hnode : s.timers.armed .nextNode = false) (hstep : s.timers.armed .nextStep = false)
    (hend : .reportEndCycle ∉ outs)
    (hlt : s.susCurrentNode.toNat < dlmsEmuMaxNumNodesConnected.toNat)
    (hrelease : s.sucCurrentNodeDlmsStep = .releaseRequest)
    (hrequests : s.requests = q.requests) :
    (∃ m, IsNext nodes s.susCurrentNode.toNat m ∧
        Refines nodes past ⟨nextStep s, sends q (nextStep s)⟩ ⟨.passing m, associations outs⟩)
      ∨ IsLast nodes s.susCurrentNode.toNat ∧
        Refines nodes past ⟨nextStep s, sends q (nextStep s)⟩ ⟨.ended, associations outs⟩ := by
  -- the state in which the timer is armed
  obtain ⟨r, hr⟩ : ∃ r : State, r = { reportNode spcRepResultSuccess s with
    susCurrentNode := getNextNodeToCycle s.susCurrentNode s } := ⟨_, rfl⟩
  have hcurrent : r.susCurrentNode = getNextNodeToCycle s.susCurrentNode s := by rw [hr]
  have hreport : r.requests = q.requests := by
    rw [hr]
    exact (reportNode_requests spcRepResultSuccess s).trans hrequests
  obtain ⟨info, hreported⟩ := hs.report spcRepResultSuccess
  have hfollows : Follows nodes past r (outs ++ [.reportNodeCycle info]) := by
    rw [hr]
    exact hreported.congr rfl rfl rfl
  have htimers : r.timers = s.timers := by
    rw [hr]
    rfl
  rw [nextStep_of_release hrelease, ← hr, ← associations_report info]
  rw [← htimers] at hnode hstep
  rcases hs.next_cases hlt with ⟨hnot, hlast⟩ | ⟨hnext16, hnext⟩
  · right
    refine ⟨hlast, ?_⟩
    have hended : (startTimer .nextCycle (r.emit [.reportEndCycle])).requests = q.requests := by
      rw [← hreport]
      simp [State.requests, startTimer, State.emit, Output.request?]
    rw [if_neg hnot, sends_of_requests hended]
    rw [← associations_end]
    exact .ended (hfollows.emit _).trace hnode hstep
  · left
    refine ⟨_, hnext, ?_⟩
    have harmed : (startTimer .nextNode r).requests = q.requests := hreport
    rw [if_pos hnext16, sends_of_requests harmed, ← hcurrent]
    rw [← hcurrent] at hnext
    exact .passing (hfollows.congr rfl rfl rfl) rfl hstep
      (end_not_mem_report hend) hnext.inTable

/-- The timeout of a step. -/
theorem Refines.timeout (hs : Follows nodes past s outs)
    (hnode : s.timers.armed .nextNode = false) (hstep : s.timers.armed .nextStep = false)
    (hend : .reportEndCycle ∉ outs)
    (hlt : s.susCurrentNode.toNat < dlmsEmuMaxNumNodesConnected.toNat)
    (hrequests : s.requests = q.requests) :
    (∃ m, IsNext nodes s.susCurrentNode.toNat m ∧
        Refines nodes past ⟨DlmsEmu.timeout s, sends q (DlmsEmu.timeout s)⟩
          ⟨.waiting m false, associations outs ++ [m]⟩)
      ∨ IsLast nodes s.susCurrentNode.toNat ∧
        Refines nodes past ⟨DlmsEmu.timeout s, sends q (DlmsEmu.timeout s)⟩
          ⟨.ended, associations outs⟩ := by
  have hreport := (reportNode_requests spcRepResultFailTimeout s).trans hrequests
  obtain ⟨info, hfollows⟩ := hs.report spcRepResultFailTimeout
  have hcycle := Refines.cycleNextNode hfollows hnode hstep (end_not_mem_report hend) hlt hreport
  rw [associations_report] at hcycle
  exact hcycle

/-- The next-step timer of a node before its release expires. -/
theorem Refines.nextStep (hs : Follows nodes past s outs)
    (hnode : s.timers.armed .nextNode = false) (hstep : s.timers.armed .nextStep = false)
    (hend : .reportEndCycle ∉ outs)
    (hlt : s.susCurrentNode.toNat < dlmsEmuMaxNumNodesConnected.toNat)
    (hconnected : Connected nodes s.susCurrentNode.toNat)
    (hrelease : s.sucCurrentNodeDlmsStep ≠ .releaseRequest) (hrequests : s.requests = q.requests) :
    ∃ r, Refines nodes past ⟨DlmsEmu.nextStep s, sends q (DlmsEmu.nextStep s)⟩
      ⟨.waiting s.susCurrentNode.toNat r, associations outs⟩ := by
  obtain ⟨t, bn, ht, heq⟩ := nextStep_of_ne_release hrelease
  -- the state in which the request is made
  obtain ⟨r, hr⟩ : ∃ r : State, r = { reportNode spcRepResultSuccess s with
    sucCurrentNodeDlmsStep := t
    sucBlocknumber := bn } := ⟨_, rfl⟩
  have hcurrent : r.susCurrentNode = s.susCurrentNode := by
    rw [hr]
    rfl
  have htag : r.sucCurrentNodeDlmsStep = t := by rw [hr]
  have htimers : r.timers = s.timers := by
    rw [hr]
    rfl
  have hreport : r.requests = q.requests := by
    rw [hr]
    exact (reportNode_requests spcRepResultSuccess s).trans hrequests
  obtain ⟨info, hreported⟩ := hs.report spcRepResultSuccess
  have hfollows : Follows nodes past r (outs ++ [.reportNodeCycle info]) := by
    rw [hr]
    exact hreported.congr rfl rfl rfl
  rw [← htimers] at hnode hstep
  rw [← hcurrent] at hlt hconnected
  have hsent := Refines.stMachineSend hfollows hnode hstep (end_not_mem_report hend) hlt hconnected
    (by rwa [htag]) hreport
  rw [heq, ← hr, ← hcurrent, ← associations_report]
  rw [htag] at hsent
  exact ⟨_, hsent⟩

/-- A step of the cycle is a step of the visit, and leads to a skip exactly when a node
that is not the last one answers its release request. -/
def Simulates (nodes : Mem UInt8) (past : List Output) (e : Event) (c c' : CycleState)
    (v : Visit) : Prop :=
  ∃ v', Visit.Step nodes v v' ∧ Refines nodes past c' v'
    ∧ (v'.stage.Skips nodes → v.stage.Skips nodes ∨ ¬ ReleasesLast e c)
    ∧ (¬ ReleasesLast e c → v'.stage.Skips nodes)

/-- A step of the visit that does not lead to a skip. -/
theorem Simulates.intro {v' : Visit} (hstep : Visit.Step nodes v v')
    (hrefines : Refines nodes past c' v') (hskip : ¬ v'.stage.Skips nodes)
    (hlast : ReleasesLast e c) : Simulates nodes past e c c' v :=
  ⟨v', hstep, hrefines, fun h => absurd h hskip, fun h => absurd hlast h⟩

theorem Refines.simulates_dataCfm {dstLsap srcLsap status : UInt8} {dst : UInt16}
    (h : Refines nodes past c v)
    (hc : cycleStep (.dataCfm dstLsap srcLsap dst status) c = some c') :
    Simulates nodes past (.dataCfm dstLsap srcLsap dst status) c c' v := by
  by_cases hstatus : IsNegativeStatus status
  · obtain ⟨hwaiting, s', hs', rfl⟩ :=
      cycleStep_endsStep (e := .dataCfm dstLsap srcLsap dst status) hstatus hc
    obtain rfl := Option.some.inj hs'
    have hsuccess : status ≠ cl432TxStatusSuccess := by
      rintro rfl
      exact absurd hstatus (by decide)
    unfold dlmsEmuCl432DlDataCfmCb
    rw [if_neg hsuccess, if_pos hstatus]
    cases h with
    | waiting hs hnode hstep hend hlt hconnected =>
        exact .intro (.fail _ _ _) (.fail _ hs hstep hend hlt rfl) id trivial
    | idle | answered | passing | ended => exact absurd hwaiting (by simp)
  · exact ⟨v, .stay v, h.confirm hstatus hc, Or.inl, fun hr => absurd trivial hr⟩

theorem Refines.simulates_dataInd {dstLsap srcLsap linkClass : UInt8} {dst src len : UInt16}
    {data : Mem UInt8} (h : Refines nodes past c v)
    (hc : cycleStep (.dataInd dstLsap srcLsap dst src data len linkClass) c = some c') :
    Simulates nodes past (.dataInd dstLsap srcLsap dst src data len linkClass) c c' v := by
  obtain ⟨hwaiting, s', hs', rfl⟩ := cycleStep_endsStep (e := .dataInd ..) trivial hc
  obtain rfl := Option.some.inj hs'
  cases h with
  | idle | answered | passing | ended => exact absurd hwaiting (by simp)
  | @waiting s outs hs hnode hstep hend hlt hconnected =>
      obtain ⟨ts, hts, harmed⟩ := dataInd_eq dstLsap srcLsap dst src data len linkClass s
      -- the timeout timer is not one of the two
      have hnode' : ts.armed .nextNode = false := by rw [harmed, if_neg (by simp), hnode]
      have hstep' : ts.armed .nextStep = false := by rw [harmed, if_neg (by simp), hstep]
      rw [hts]
      have hstopped : Follows nodes past { s with timers := ts } outs := hs.congr rfl rfl rfl
      by_cases hvalid : CheckDlmsMessage s.sucCurrentNodeDlmsStep data
      · have hsends : sends s (startTimer .nextStep { s with timers := ts }) = false :=
          sends_of_requests rfl
        rw [if_pos hvalid, hsends]
        refine ⟨_, .answer _ _ _, .answered (hs.congr rfl rfl rfl) hnode' rfl hend
          hlt hconnected, ?_, ?_⟩
        · intro hskip
          right
          intro hreleases
          by_cases hrelease : s.sucCurrentNodeDlmsStep = .releaseRequest
          · have hlast := hreleases hrelease (hrelease ▸ hvalid)
            rw [decide_eq_true hrelease] at hskip
            exact hskip (hs.list ▸ hlast)
          · rw [decide_eq_false hrelease] at hskip
            exact hskip
        · intro hreleases
          by_cases hrelease : s.sucCurrentNodeDlmsStep = .releaseRequest
          · rw [decide_eq_true hrelease]
            intro hlast
            apply hreleases
            intro _ _
            exact hs.list.symm ▸ hlast
          · exact absurd (fun hr => absurd hr hrelease) hreleases
      · rw [if_neg hvalid]
        refine .intro (.fail _ _ _) (.fail _ hstopped hstep' hend hlt rfl) id ?_
        intro hrelease hcheck
        exact absurd (hrelease ▸ hcheck) hvalid

theorem Refines.simulates_timeout (h : Refines nodes past c v)
    (hc : cycleStep (.expire .timeout) c = some c') :
    Simulates nodes past (.expire .timeout) c c' v := by
  obtain ⟨hwaiting, s', hs', rfl⟩ := cycleStep_endsStep (e := .expire .timeout) trivial hc
  rw [step_expire] at hs'
  split_ifs at hs'
  obtain rfl := Option.some.inj hs'
  cases h with
  | idle | answered | passing | ended => exact absurd hwaiting (by simp)
  | @waiting s outs hs hnode hstep hend hlt hconnected =>
      rcases Refines.timeout (s := s.disarm .timeout) (q := s)
        (hs.congr rfl rfl rfl) hnode hstep hend hlt rfl with
        ⟨m, hnext, hrefines⟩ | ⟨hlast, hrefines⟩
      · exact .intro (.timeout _ m _ _ hnext) hrefines id trivial
      · exact .intro (.timeoutLast _ _ _ hlast) hrefines id trivial

theorem Refines.simulates_nextNode (h : Refines nodes past c v)
    (hc : cycleStep (.expire .nextNode) c = some c') :
    Simulates nodes past (.expire .nextNode) c c' v := by
  obtain ⟨-, s', hs', rfl⟩ := cycleStep_carriesOn (e := .expire .nextNode) id hc
  rw [step_expire] at hs'
  split_ifs at hs' with harmed
  obtain rfl := Option.some.inj hs'
  cases h with
  | idle hnode | waiting _ hnode | answered _ hnode | ended _ hnode =>
      exact absurd (hnode.symm.trans harmed) (by simp)
  | @passing s outs hs hnode hstep hend hlt =>
      rcases Refines.cycleNextNode (s := s.disarm .nextNode) (q := s)
        (hs.congr rfl rfl rfl) rfl hstep hend hlt rfl with
        ⟨m, hnext, hrefines⟩ | ⟨hlast, hrefines⟩ <;> simp only [Bool.false_or]
      · exact .intro (.pass _ m _ hnext) hrefines id trivial
      · exact .intro (.passLast _ _ hlast) hrefines id trivial

theorem Refines.simulates_nextStep (h : Refines nodes past c v)
    (hc : cycleStep (.expire .nextStep) c = some c') :
    Simulates nodes past (.expire .nextStep) c c' v := by
  obtain ⟨-, s', hs', rfl⟩ := cycleStep_carriesOn (e := .expire .nextStep) id hc
  rw [step_expire] at hs'
  split_ifs at hs' with harmed
  obtain rfl := Option.some.inj hs'
  cases h with
  | idle _ hstep | waiting _ _ hstep | passing _ _ hstep | ended _ _ hstep =>
      exact absurd (hstep.symm.trans harmed) (by simp)
  | @answered s outs hs hnode hstep hend hlt hconnected =>
      have hstopped : Follows nodes past (s.disarm .nextStep) outs :=
        (hs.congr rfl rfl rfl)
      by_cases hrelease : s.sucCurrentNodeDlmsStep = .releaseRequest
      · rw [decide_eq_true hrelease]
        rcases Refines.release (q := s) hstopped hnode rfl hend hlt hrelease rfl with
          ⟨m, hnext, hrefines⟩ | ⟨hlast, hrefines⟩
        · exact .intro (.skip _ m _ hnext) hrefines id trivial
        · exact .intro (.releaseLast _ _ hlast) hrefines id trivial
      · rw [decide_eq_false hrelease]
        obtain ⟨r, hrefines⟩ := Refines.nextStep (q := s) hstopped hnode rfl hend hlt hconnected
          hrelease rfl
        exact .intro (.again _ r _) hrefines id trivial

/-- **One step.**  The emulator refines the visit. -/
theorem Refines.simulates (h : Refines nodes past c v) (hc : cycleStep e c = some c') :
    Simulates nodes past e c c' v := by
  have hnot (he : e.EndsStep ∨ e.CarriesOn → False) : False := by
    by_cases hends : e.EndsStep
    · exact he (Or.inl hends)
    · exact he (Or.inr (cycleStep_carriesOn hends hc).1)
  cases e with
  | command | response | joinInd | leaveInd => exact (hnot fun he => he.elim id id).elim
  | dataCfm => exact h.simulates_dataCfm hc
  | dataInd => exact h.simulates_dataInd hc
  | expire t =>
      cases t with
      | timeout => exact h.simulates_timeout hc
      | nextCycle => exact (hnot fun he => he.elim id id).elim
      | nextNode => exact h.simulates_nextNode hc
      | nextStep => exact h.simulates_nextStep hc

/-- The cycle begins as a visit of the first connected node, or of none. -/
theorem refines_cycleBegin (s : State) (hnode : s.timers.armed .nextNode = false)
    (hstep : s.timers.armed .nextStep = false) :
    ∃ v, Refines s.sxListNodes s.trace (cycleBegin s) v ∧ v.Covers s.sxListNodes := by
  unfold cycleBegin
  rcases startCycle_cases s with ⟨m, c, heq⟩ | ⟨m, hm, hlt, heq⟩
  · have hsends : sends s (startCycle s) = false := sends_of_requests (by rw [heq]; rfl)
    rw [hsends, heq]
    exact ⟨⟨.idle, []⟩, .idle hnode hstep rfl, id, trivial⟩
  · have hsize : dlmsEmuMaxNumNodesConnected.toNat = 16 := rfl
    have hmax := getNumberNodesConnected_max s
    rw [hm] at hmax
    rcases getNextNodeToCycle_cases 0 { s with susMaxIndexConnectedNode := m } with
      ⟨hnone, -⟩ | ⟨hconnected, hge, -, hfirst⟩
    · rw [hnone] at hlt
      exact absurd hlt (UInt16.lt_irrefl _)
    have htable := UInt16.lt_iff_toNat_lt.mp hlt
    -- the state in which the first request is made
    obtain ⟨r, hr⟩ : ∃ r : State, r = { s with
        susMaxIndexConnectedNode := m
        susCurrentNode := getNextNodeToCycle 0 { s with susMaxIndexConnectedNode := m }
        sulTotalCycleNumber := s.sulTotalCycleNumber + 1
        sucCurrentNodeDlmsStep := .associationRequest
        trace := s.trace ++ [.reportStartCycle] } := ⟨_, rfl⟩
    have hcurrent : r.susCurrentNode
        = getNextNodeToCycle 0 { s with susMaxIndexConnectedNode := m } := by rw [hr]
    have htag : r.sucCurrentNodeDlmsStep = .associationRequest := by rw [hr]
    have hfollows : Follows s.sxListNodes s.trace r [.reportStartCycle] := by
      rw [hr]
      exact ⟨rfl, fun i hi hci => (hmax i hi hci).1, (hmax _ htable hconnected).2, rfl⟩
    have htimers : r.timers = s.timers := by rw [hr]
    rw [← htimers] at hnode hstep
    rw [← hcurrent] at hconnected hge hfirst htable
    have hnext : IsNext s.sxListNodes 0 r.susCurrentNode.toNat :=
      ⟨hge, htable, hconnected, hfirst⟩
    have hsent := Refines.sendRequest hfollows hnode hstep (by simp) htable hconnected
    rw [htag] at hsent
    have hsends : sends s (startCycle s) = true := by
      rw [heq]
      exact sends_sendRequest _ _ (by simp [State.requests, Output.request?])
    rw [hsends, heq, ← hr, ← hcurrent]
    refine ⟨_, hsent, id, htable, ?_⟩
    rw [hnext.connectedUpTo]
    rfl

end Refinement

/-! ### The nodes asked in a cycle -/

/-- **Cycle coverage.**  Let a cycle begin when no other one is under way, so that the
next-node and the next-step timer are disarmed.  In every run of it that comes to its
end, the nodes asked for an association are the connected nodes, in order and each
once, exactly when only the last one answers its release request with a valid response. -/
theorem dlms_emu_cycle_covers_iff (s : State) (es : List Event) (c : CycleState)
    (hnode : s.timers.armed .nextNode = false) (hstep : s.timers.armed .nextStep = false)
    (hrun : runSteps cycleStep es (cycleBegin s) = some c)
    (hend : .reportEndCycle ∈ cycleOutputs s c) :
    associations (cycleOutputs s c) = connectedNodes s.sxListNodes
      ↔ AlongSteps cycleStep ReleasesLast es (cycleBegin s) := by
  obtain ⟨v, hrefines, hcovers⟩ := refines_cycleBegin s hnode hstep
  have hdichotomy := runSteps_dichotomy (C := ReleasesLast)
    (G := fun c => ∃ v, Refines s.sxListNodes s.trace c v ∧ v.Covers s.sxListNodes)
    (B := fun c => ∃ v, Refines s.sxListNodes s.trace c v ∧ v.Misses s.sxListNodes)
    ?_ ?_ ?_ ⟨v, hrefines, hcovers⟩ hrun
  · -- at the end, only the last stage is left
    have hended (v : Visit) (h : Refines s.sxListNodes s.trace c v) :
        v.stage = .ended ∧ v.asked = associations (cycleOutputs s c) := by
      unfold cycleOutputs at hend ⊢
      cases h with
      | idle _ _ htrace => simp [htrace] at hend
      | waiting hs _ _ hnot | answered hs _ _ hnot | passing hs _ _ hnot =>
          rw [hs.trace, List.drop_left] at hend
          exact absurd hend hnot
      | ended htrace =>
          rw [htrace, List.drop_left]
          exact ⟨rfl, rfl⟩
    constructor
    · intro hall
      by_contra hnot
      obtain ⟨v', hv', m, hm, hmissed, -⟩ := hdichotomy.2 hnot
      rw [(hended v' hv').2, hall] at hmissed
      exact hmissed hm
    · intro halong
      obtain ⟨v', hv', -, hasked⟩ := hdichotomy.1 halong
      obtain ⟨hstage, heq⟩ := hended v' hv'
      rw [hstage] at hasked
      rw [← heq]
      exact hasked
  · rintro e c1 c2 ⟨v1, hv1, hcov⟩ hreleases hc
    obtain ⟨v2, hv, hv2, hskip, -⟩ := hv1.simulates hc
    exact ⟨v2, hv2, hcov.step hv fun h => (hskip h).elim hcov.1 fun hr => hr hreleases⟩
  · rintro e c1 c2 ⟨v1, hv1, hcov⟩ hreleases hc
    obtain ⟨v2, hv, hv2, -, hskip⟩ := hv1.simulates hc
    exact ⟨v2, hv2, hcov.skips hv (hskip hreleases)⟩
  · rintro e c1 c2 ⟨v1, hv1, hmiss⟩ hc
    obtain ⟨v2, hv, hv2, -, -⟩ := hv1.simulates hc
    exact ⟨v2, hv2, hmiss.step hv⟩

/-- The emulator after the nodes 1 and 2 have joined. -/
def twoNodes : State :=
  dlmsEmulCl432JoinIndCb (message []) 0 2 (message [])
    (dlmsEmulCl432JoinIndCb (message []) 0 1 (message []) (started 4 .inOrder fun _ => 0))

/-- The request to node 1 is not sent, and node 2 gives an invalid response: both have
been asked, so no release request was answered too early. -/
theorem dlms_emu_cycle_covers_failing : ∃ es c,
    runSteps cycleStep es (cycleBegin twoNodes) = some c
      ∧ associations (cycleOutputs twoNodes c) = [1, 2]
      ∧ AlongSteps cycleStep ReleasesLast es (cycleBegin twoNodes) := by
  have hrun : ((runSteps cycleStep
      [.dataCfm 0 0 1 cl432TxStatusTimeout, .expire .nextNode, .dataCfm 0 0 2 cl432TxStatusSuccess,
        .dataInd 0 0 0 2 (message []) 0 0, .expire .nextNode] (cycleBegin twoNodes)).map fun c =>
      (associations (cycleOutputs twoNodes c),
        decide (.reportEndCycle ∈ cycleOutputs twoNodes c))) = some ([1, 2], true) := by
    decide +kernel
  obtain ⟨c, hc, heq⟩ := Option.map_eq_some_iff.mp hrun
  rw [Prod.mk.injEq, decide_eq_true_iff] at heq
  have hnodes : connectedNodes twoNodes.sxListNodes = [1, 2] := by decide +kernel
  refine ⟨_, c, hc, heq.1, ?_⟩
  apply (dlms_emu_cycle_covers_iff twoNodes _ c rfl rfl hc heq.2).mp
  rw [heq.1, hnodes]

/-- All steps of a node are confirmed and end in a valid response, release included. -/
def answerAll (node : UInt16) : List Event :=
  ([assocResponseVal, getRequestDateVal] ++ List.replicate 8 getRequestS02val
      ++ [releaseResponseVal]).flatMap fun response =>
    [.dataCfm 0 0 node cl432TxStatusSuccess, .dataInd 0 0 0 node (message response) 16 0,
      .expire .nextStep]

/-- Node 1 answers all its requests: node 2 is skipped, and the cycle ends. -/
theorem dlms_emu_cycle_skips :
    ¬ ∀ (s : State) (es : List Event) (c : CycleState), s.timers.armed .nextNode = false →
      s.timers.armed .nextStep = false → runSteps cycleStep es (cycleBegin s) = some c →
        .reportEndCycle ∈ cycleOutputs s c →
          associations (cycleOutputs s c) = connectedNodes s.sxListNodes := by
  intro hclaim
  have hrun : ((runSteps cycleStep (answerAll 1 ++ [.expire .nextNode])
      (cycleBegin twoNodes)).map fun c => (associations (cycleOutputs twoNodes c),
        decide (.reportEndCycle ∈ cycleOutputs twoNodes c))) = some ([1], true) := by
    decide +kernel
  obtain ⟨c, hc, heq⟩ := Option.map_eq_some_iff.mp hrun
  rw [Prod.mk.injEq, decide_eq_true_iff] at heq
  have hnodes : connectedNodes twoNodes.sxListNodes = [1, 2] := by decide +kernel
  have hcovers := hclaim twoNodes _ c rfl rfl hc heq.2
  rw [heq.1, hnodes] at hcovers
  exact absurd hcovers (by decide)

end DlmsEmu
