/-
# The handlers of the DLMS emulator

What each function of the emulator does, stated once: which node comes next, the two
equations by which `_st_machine` and `_cycle_next_node` call each other, and for every
handler the timers it arms and the requests it makes.
-/
import PlcManager.DlmsEmu

namespace DlmsEmu

open Dlmsotcp (DataRequest cl432InvalidAddress)

variable {s s' : State} {usIndex : UInt16} {t : DlmsStatusTag}

/-! ## The next node -/

/-- What the search returns: no node behind the one searched from is connected, or the
node returned is the first one. -/
theorem getNextNodeToCycle_cases (usIndex : UInt16) (s : State) :
    (getNextNodeToCycle usIndex s = dlmsEmuMaxNumNodesConnected
        ∧ ∀ k, (usIndex + 1).toNat ≤ k → k < s.susMaxIndexConnectedNode.toNat →
          ¬ Connected s.sxListNodes k)
      ∨ Connected s.sxListNodes (getNextNodeToCycle usIndex s).toNat
        ∧ (usIndex + 1).toNat ≤ (getNextNodeToCycle usIndex s).toNat
        ∧ (getNextNodeToCycle usIndex s).toNat < s.susMaxIndexConnectedNode.toNat
        ∧ ∀ k, (usIndex + 1).toNat ≤ k → k < (getNextNodeToCycle usIndex s).toNat →
          ¬ Connected s.sxListNodes k := by
  unfold getNextNodeToCycle
  dsimp only
  split
  case h_1 k hfind =>
      right
      obtain ⟨hconnected, hmem, hfirst⟩ := List.find?_range'_eq_some.mp hfind
      rw [decide_eq_true_iff] at hconnected
      rw [List.mem_range'_1] at hmem
      have hlt := s.susMaxIndexConnectedNode.toNat_lt
      have hk : (UInt16.ofNat k).toNat = k := by
        rw [UInt16.toNat_ofNat']
        omega
      rw [hk]
      refine ⟨hconnected, hmem.1, by omega, fun i hge hlti => ?_⟩
      have hnot := hfirst i hge hlti
      rwa [Bool.not_eq_true', decide_eq_false_iff_not] at hnot
  case h_2 hfind =>
      left
      refine ⟨rfl, fun k hge hlt => ?_⟩
      have hnot := List.find?_eq_none.mp hfind k (List.mem_range'_1.mpr (by omega))
      rwa [decide_eq_true_iff] at hnot

theorem connected_getNextNodeToCycle
    (h : getNextNodeToCycle usIndex s < dlmsEmuMaxNumNodesConnected) :
    Connected s.sxListNodes (getNextNodeToCycle usIndex s).toNat := by
  rcases getNextNodeToCycle_cases usIndex s with ⟨hnone, -⟩ | hfound
  · rw [hnone] at h
    exact absurd h (UInt16.lt_irrefl _)
  · exact hfound.1

/-- The search depends on the list and on the largest index only. -/
theorem getNextNodeToCycle_congr (hnodes : s'.sxListNodes = s.sxListNodes)
    (hmax : s'.susMaxIndexConnectedNode = s.susMaxIndexConnectedNode) :
    getNextNodeToCycle usIndex s' = getNextNodeToCycle usIndex s := by
  unfold getNextNodeToCycle
  rw [hnodes, hmax]

/-- The count only touches the largest index. -/
theorem getNumberNodesConnected_snd (s : State) :
    ∃ m, (getNumberNodesConnected s).2 = { s with susMaxIndexConnectedNode := m } := by
  apply forRange_invariant
    (fun r : UInt16 × State => ∃ m, r.2 = { s with susMaxIndexConnectedNode := m })
    ⟨s.susMaxIndexConnectedNode, rfl⟩
  rintro i ⟨n, t⟩ - - ⟨m, rfl⟩
  dsimp only
  split_ifs
  · exact ⟨_, rfl⟩
  · exact ⟨m, rfl⟩

/-- The largest index comes behind all connected nodes; if there is one, it is in the list. -/
theorem getNumberNodesConnected_max (s : State) :
    ∀ i, i < dlmsEmuMaxNumNodesConnected.toNat → Connected s.sxListNodes i →
      i < (getNumberNodesConnected s).2.susMaxIndexConnectedNode.toNat
        ∧ (getNumberNodesConnected s).2.susMaxIndexConnectedNode.toNat
          ≤ dlmsEmuMaxNumNodesConnected.toNat := by
  -- after `k` rounds, for the nodes below `k`
  have hall : (getNumberNodesConnected s).2.sxListNodes = s.sxListNodes ∧
      ∀ i, i < dlmsEmuMaxNumNodesConnected.toNat → Connected s.sxListNodes i →
        i < (getNumberNodesConnected s).2.susMaxIndexConnectedNode.toNat
          ∧ (getNumberNodesConnected s).2.susMaxIndexConnectedNode.toNat
            ≤ dlmsEmuMaxNumNodesConnected.toNat := by
    unfold getNumberNodesConnected
    refine forRange_induction (fun k (r : UInt16 × State) => r.2.sxListNodes = s.sxListNodes ∧
      ∀ i, i < k → Connected s.sxListNodes i → i < r.2.susMaxIndexConnectedNode.toNat
        ∧ r.2.susMaxIndexConnectedNode.toNat ≤ k) (Nat.zero_le _)
      ⟨rfl, fun i hi => absurd hi (Nat.not_lt_zero i)⟩ ?_
    rintro k r - hk ⟨hnodes, hbelow⟩
    have hsize : dlmsEmuMaxNumNodesConnected.toNat = 16 := rfl
    have hmax : (UInt16.ofNat k + 1).toNat = k + 1 := by
      rw [UInt16.toNat_add, UInt16.toNat_ofNat', show (1 : UInt16).toNat = 1 from rfl]
      omega
    dsimp only
    split_ifs with hconnected
    · refine ⟨hnodes, fun i hi _ => ?_⟩
      dsimp only
      omega
    · refine ⟨hnodes, fun i hi hci => ?_⟩
      have hne : i ≠ k := by
        rintro rfl
        rw [hnodes] at hconnected
        exact hconnected hci
      obtain ⟨hlt, hle⟩ := hbelow i (by omega) hci
      exact ⟨hlt, by omega⟩
  exact hall.2

/-- With a connected node, the count is not zero. -/
theorem getNumberNodesConnected_ne_zero {i : ℕ} (hi : i < dlmsEmuMaxNumNodesConnected.toNat)
    (h : Connected s.sxListNodes i) : (getNumberNodesConnected s).1 ≠ 0 := by
  have hsize : dlmsEmuMaxNumNodesConnected.toNat = 16 := rfl
  -- after `k` rounds the count is at most `k`, and not zero once the node has been passed
  have hall : (getNumberNodesConnected s).2.sxListNodes = s.sxListNodes
      ∧ (getNumberNodesConnected s).1.toNat ≤ dlmsEmuMaxNumNodesConnected.toNat
      ∧ (i < dlmsEmuMaxNumNodesConnected.toNat → 0 < (getNumberNodesConnected s).1.toNat) := by
    unfold getNumberNodesConnected
    refine forRange_induction (fun k (r : UInt16 × State) => r.2.sxListNodes = s.sxListNodes
      ∧ r.1.toNat ≤ k ∧ (i < k → 0 < r.1.toNat)) (Nat.zero_le _)
      ⟨rfl, le_rfl, fun hlt => absurd hlt (Nat.not_lt_zero i)⟩ ?_
    rintro k r - hk ⟨hnodes, hle, hpos⟩
    dsimp only
    split_ifs with hconnected
    · have hsum : (r.1 + 1).toNat = r.1.toNat + 1 := by
        rw [UInt16.toNat_add, UInt16.toNat_one]
        omega
      dsimp only
      rw [hsum]
      exact ⟨hnodes, by omega, fun _ => by omega⟩
    · have hne : i ≠ k := by
        rintro rfl
        rw [hnodes] at hconnected
        exact hconnected h
      exact ⟨hnodes, by omega, fun hlt => hpos (by omega)⟩
  intro hzero
  have hpos := hall.2.2 hi
  rw [hzero] at hpos
  exact absurd hpos (by decide)

/-- The count leaves the largest index in the list. -/
theorem getNumberNodesConnected_le
    (h : s.susMaxIndexConnectedNode.toNat ≤ dlmsEmuMaxNumNodesConnected.toNat) :
    (getNumberNodesConnected s).2.susMaxIndexConnectedNode.toNat
      ≤ dlmsEmuMaxNumNodesConnected.toNat := by
  have hsize : dlmsEmuMaxNumNodesConnected.toNat = 16 := rfl
  unfold getNumberNodesConnected
  apply forRange_invariant (fun r : UInt16 × State =>
    r.2.susMaxIndexConnectedNode.toNat ≤ dlmsEmuMaxNumNodesConnected.toNat) h
  rintro i r - hi hr
  dsimp only
  split_ifs
  · show (UInt16.ofNat i + 1).toNat ≤ _
    rw [UInt16.toNat_add, UInt16.toNat_ofNat', UInt16.toNat_one]
    omega
  · exact hr

/-! ## Requests -/

/-- The request in a call that leaves the module. -/
def Output.request? : Output → Option DataRequest
  | .dataRequest r => some r
  | _ => none

/-- The requests made so far. -/
def State.requests (s : State) : List DataRequest := s.trace.filterMap Output.request?

section SendRequest

@[simp] theorem sendRequest_sxListNodes : (sendRequest usIndex t s).sxListNodes = s.sxListNodes :=
  rfl

@[simp] theorem sendRequest_timers : (sendRequest usIndex t s).timers = s.timers := rfl

@[simp] theorem sendRequest_susCurrentNode :
    (sendRequest usIndex t s).susCurrentNode = s.susCurrentNode := rfl

@[simp] theorem sendRequest_sucCurrentNodeDlmsStep :
    (sendRequest usIndex t s).sucCurrentNodeDlmsStep = s.sucCurrentNodeDlmsStep := rfl

@[simp] theorem sendRequest_susMaxIndexConnectedNode :
    (sendRequest usIndex t s).susMaxIndexConnectedNode = s.susMaxIndexConnectedNode := rfl

/-- A request is one call of the API, for the node, with the message of the step. -/
theorem sendRequest_trace (usIndex : UInt16) (t : DlmsStatusTag) (s : State) :
    ∃ lsdu : List UInt8, (lsdu = cmdDlmsAssociationRequest ↔ t = .associationRequest) ∧
      (sendRequest usIndex t s).trace = s.trace ++ [.selectApi s.siDlmsEmuAppId,
        .dataRequest ⟨0, 0, usIndex, lsdu, UInt16.ofNat lsdu.length, 0⟩] := by
  cases t
  case associationRequest =>
      refine ⟨cmdDlmsAssociationRequest, by simp, ?_⟩
      simp only [sendRequest, State.emit, generateStr, Mem.slice_storeList]
  case dateRequest =>
      refine ⟨cmdDlmsDate.set 2 0xc1, by decide, ?_⟩
      simp only [sendRequest, State.emit, generateStr, Mem.slice_storeList]
  case so2Request =>
      refine ⟨cmdDlmsS02.set 2 (0xc1 + 1), by decide, ?_⟩
      simp only [sendRequest, State.emit, generateStr, Mem.slice_storeList]
  case nextblockRequest =>
      refine ⟨(cmdDlmsNextBlock.set 2 (0xc1 + 1)).set 6 (s.sucBlocknumber + 1), ?_, ?_⟩
      · refine iff_of_false (fun h => ?_) (by decide)
        have hlength := congrArg List.length h
        rw [List.length_set, List.length_set] at hlength
        exact absurd hlength (by decide)
      · simp only [sendRequest, State.emit, generateStr, Mem.slice_storeList]
  case releaseRequest =>
      refine ⟨cmdDlmsReleaseRequest, by decide, ?_⟩
      simp only [sendRequest, State.emit, generateStr, Mem.slice_storeList]

end SendRequest

/-! ## The two functions that call each other -/

/-- `_cycle_next_node` calls `_st_machine` for connected nodes only. -/
theorem cycleNextNodeWith_congr {f g : UInt16 → DlmsStatusTag → State → State}
    (h : ∀ (i : UInt16) t (s : State), Connected s.sxListNodes i.toNat → f i t s = g i t s)
    (s : State) :
    cycleNextNodeWith f s = cycleNextNodeWith g s := by
  unfold cycleNextNodeWith
  dsimp only
  split_ifs with hlt
  · exact h _ _ _ (connected_getNextNodeToCycle hlt)
  · rfl

/-- **The first equation.**  `_st_machine` for `CMD_SEND`, as the source has it. -/
theorem stMachineSend_eq (usIndex : UInt16) (t : DlmsStatusTag) (s : State) :
    stMachineSend usIndex t s =
      if Connected s.sxListNodes usIndex.toNat then sendRequest usIndex t s
      else cycleNextNode s := by
  rw [stMachineSend, stMachineSendWithin]
  by_cases h : Connected s.sxListNodes usIndex.toNat
  · rw [if_pos h, if_pos h]
  · rw [if_neg h, if_neg h]
    apply cycleNextNodeWith_congr
    intro i u r hr
    rw [stMachineSend, stMachineSendWithin, stMachineSendWithin, if_pos hr, if_pos hr]

theorem stMachineSend_of_connected (h : Connected s.sxListNodes usIndex.toNat) :
    stMachineSend usIndex t s = sendRequest usIndex t s := by
  rw [stMachineSend_eq, if_pos h]

/-- **The second equation.**  `_cycle_next_node` asks the next node for an association, … -/
theorem cycleNextNode_of_lt
    (h : getNextNodeToCycle s.susCurrentNode s < dlmsEmuMaxNumNodesConnected) :
    cycleNextNode s = sendRequest (getNextNodeToCycle s.susCurrentNode s) .associationRequest
      { s with
        susCurrentNode := getNextNodeToCycle s.susCurrentNode s
        sucCurrentNodeDlmsStep := .associationRequest } := by
  unfold cycleNextNode cycleNextNodeWith
  dsimp only
  rw [if_pos h]
  exact stMachineSend_of_connected (connected_getNextNodeToCycle h)

/-- … or ends the cycle. -/
theorem cycleNextNode_of_not_lt
    (h : ¬ getNextNodeToCycle s.susCurrentNode s < dlmsEmuMaxNumNodesConnected) :
    cycleNextNode s = startTimer .nextCycle
      (State.emit { s with susCurrentNode := getNextNodeToCycle s.susCurrentNode s }
        [.reportEndCycle]) := by
  unfold cycleNextNode cycleNextNodeWith
  dsimp only
  rw [if_neg h]

/-- `_start_cycle` asks the first node for an association, … -/
theorem startCycle_of_lt {m : UInt16}
    (hm : (getNumberNodesConnected s).2 = { s with susMaxIndexConnectedNode := m })
    (hcount : (getNumberNodesConnected s).1 ≠ 0)
    (hlt : getNextNodeToCycle 0 { s with susMaxIndexConnectedNode := m }
      < dlmsEmuMaxNumNodesConnected) :
    startCycle s = sendRequest (getNextNodeToCycle 0 { s with susMaxIndexConnectedNode := m })
      .associationRequest
      { s with
        susMaxIndexConnectedNode := m
        susCurrentNode := getNextNodeToCycle 0 { s with susMaxIndexConnectedNode := m }
        sulTotalCycleNumber := s.sulTotalCycleNumber + 1
        sucCurrentNodeDlmsStep := .associationRequest
        trace := s.trace ++ [.reportStartCycle] } := by
  unfold startCycle
  dsimp only
  rw [hm, if_pos hcount, if_pos hlt]
  exact stMachineSend_of_connected (connected_getNextNodeToCycle hlt)

/-- … or it finds nothing to do. -/
theorem startCycle_cases (s : State) :
    (∃ m c, startCycle s = { s with susMaxIndexConnectedNode := m, susCurrentNode := c })
      ∨ ∃ m, (getNumberNodesConnected s).2 = { s with susMaxIndexConnectedNode := m }
        ∧ getNextNodeToCycle 0 { s with susMaxIndexConnectedNode := m }
          < dlmsEmuMaxNumNodesConnected
        ∧ startCycle s = sendRequest (getNextNodeToCycle 0 { s with susMaxIndexConnectedNode := m })
          .associationRequest
          { s with
            susMaxIndexConnectedNode := m
            susCurrentNode := getNextNodeToCycle 0 { s with susMaxIndexConnectedNode := m }
            sulTotalCycleNumber := s.sulTotalCycleNumber + 1
            sucCurrentNodeDlmsStep := .associationRequest
            trace := s.trace ++ [.reportStartCycle] } := by
  obtain ⟨m, hm⟩ := getNumberNodesConnected_snd s
  by_cases hcount : (getNumberNodesConnected s).1 ≠ 0
  · by_cases hlt : getNextNodeToCycle 0 { s with susMaxIndexConnectedNode := m }
        < dlmsEmuMaxNumNodesConnected
    · exact Or.inr ⟨m, hm, hlt, startCycle_of_lt hm hcount hlt⟩
    · left
      unfold startCycle
      dsimp only
      rw [hm, if_pos hcount, if_neg hlt]
      exact ⟨m, _, rfl⟩
  · left
    unfold startCycle
    dsimp only
    rw [hm, if_neg hcount]
    exact ⟨m, _, rfl⟩

/-- Before its release, a node is sent the request of its next step. -/
theorem nextStep_of_ne_release (h : s.sucCurrentNodeDlmsStep ≠ .releaseRequest) :
    ∃ t bn, t ≠ .associationRequest ∧ nextStep s = stMachineSend s.susCurrentNode t
      { reportNode spcRepResultSuccess s with
        sucCurrentNodeDlmsStep := t
        sucBlocknumber := bn } := by
  obtain ⟨r, hr⟩ : ∃ r, r = reportNode spcRepResultSuccess s := ⟨_, rfl⟩
  have hstep : r.sucCurrentNodeDlmsStep = s.sucCurrentNodeDlmsStep := by
    rw [hr]
    rfl
  unfold nextStep
  rw [← hr, show s.susCurrentNode = r.susCurrentNode by rw [hr]; rfl]
  dsimp only
  split
  case h_1 => exact ⟨.dateRequest, 0, by decide, rfl⟩
  case h_2 => exact ⟨.so2Request, r.sucBlocknumber, by decide, rfl⟩
  case h_3 => exact ⟨.nextblockRequest, 0, by decide, rfl⟩
  case h_4 heq =>
      split_ifs
      · exact ⟨.releaseRequest, 0, by decide, rfl⟩
      · refine ⟨.nextblockRequest, r.sucBlocknumber + 1, by decide, ?_⟩
        rw [← heq]
  case h_5 heq => exact absurd (hstep.symm.trans heq) h

/-- After its release, a node is left, and left again when the timer armed here expires. -/
theorem nextStep_of_release (h : s.sucCurrentNodeDlmsStep = .releaseRequest) : nextStep s =
    if getNextNodeToCycle s.susCurrentNode s < dlmsEmuMaxNumNodesConnected then
      startTimer .nextNode { reportNode spcRepResultSuccess s with
        susCurrentNode := getNextNodeToCycle s.susCurrentNode s }
    else
      startTimer .nextCycle (State.emit { reportNode spcRepResultSuccess s with
        susCurrentNode := getNextNodeToCycle s.susCurrentNode s } [.reportEndCycle]) := by
  have hnext : getNextNodeToCycle s.susCurrentNode (reportNode spcRepResultSuccess s)
      = getNextNodeToCycle s.susCurrentNode s := getNextNodeToCycle_congr rfl rfl
  rw [← hnext]
  unfold nextStep
  dsimp only
  split
  case h_5 => rfl
  all_goals
    rename_i heq
    exact absurd (heq.symm.trans h) (by decide)

/-! ## Timers -/

theorem armed_set (ts : Timers) (b : Bool) (t u : Timer) :
    (ts.set b t).armed u = if u = t then b else ts.armed u := by
  cases t <;> cases u <;> rfl

theorem step_expire (t : Timer) (s : State) : step (.expire t) s =
    if s.timers.armed t = true then some (timerHandler t (s.disarm t)) else none := rfl

@[simp] theorem startTimer_timers (t : Timer) : (startTimer t s).timers = s.timers.set true t := rfl

@[simp] theorem disarm_timers (t : Timer) : (s.disarm t).timers = s.timers.set false t := rfl

/-- `_stop_timer` changes nothing but its timer, and not even that if the id is zero. -/
theorem stopTimer_eq (t : Timer) (s : State) : ∃ ts, stopTimer t s = { s with timers := ts }
    ∧ ∀ u, ts.armed u = if u = t ∧ s.timerIds t ≠ 0 then false else s.timers.armed u := by
  unfold stopTimer
  by_cases hid : s.timerIds t ≠ 0
  · rw [if_pos hid]
    refine ⟨s.timers.set false t, rfl, fun u => ?_⟩
    simp only [armed_set, hid, and_true, ne_eq, not_false_eq_true]
  · rw [if_neg hid]
    exact ⟨s.timers, rfl, fun u => by rw [if_neg fun h => hid h.2]⟩

/-- STOP disarms the timers whose id is not zero. -/
theorem stopCycles_eq (s : State) : ∃ ts, stopCycles s = { s with
      timers := ts
      sulTotalCycleNumber := 0
      sucCurrentNodeDlmsStep := .associationRequest }
    ∧ ∀ u, ts.armed u = if s.timerIds u ≠ 0 then false else s.timers.armed u := by
  obtain ⟨t1, h1, harmed1⟩ := stopTimer_eq .timeout s
  obtain ⟨t2, h2, harmed2⟩ := stopTimer_eq .nextCycle { s with timers := t1 }
  obtain ⟨t3, h3, harmed3⟩ := stopTimer_eq .nextNode { s with timers := t2 }
  obtain ⟨t4, h4, harmed4⟩ := stopTimer_eq .nextStep { s with timers := t3 }
  unfold stopCycles
  dsimp only at h2 h3 h4 ⊢
  rw [h1, h2, h3, h4]
  refine ⟨t4, rfl, fun u => ?_⟩
  rw [harmed4, harmed3, harmed2, harmed1]
  cases u <;> simp

/-- A data indication stops the timeout timer and arms another one. -/
theorem dataInd_eq (dstLsap srcLsap : UInt8) (dst src : UInt16) (data : Mem UInt8)
    (len : UInt16) (linkClass : UInt8) (s : State) :
    ∃ ts, dlmsEmuCl432DlDataIndCb dstLsap srcLsap dst src data len linkClass s =
        (if CheckDlmsMessage s.sucCurrentNodeDlmsStep data then
          startTimer .nextStep { s with timers := ts }
        else startTimer .nextNode (reportNode spcRepResultFailInvalid { s with timers := ts }))
      ∧ ∀ u, ts.armed u
        = if u = .timeout ∧ s.timerIds .timeout ≠ 0 then false else s.timers.armed u := by
  obtain ⟨ts, hts, harmed⟩ := stopTimer_eq .timeout s
  refine ⟨ts, ?_, harmed⟩
  unfold dlmsEmuCl432DlDataIndCb
  dsimp only
  rw [hts]

theorem startCycle_timers (s : State) : (startCycle s).timers = s.timers := by
  rcases startCycle_cases s with ⟨m, c, h⟩ | ⟨m, -, -, h⟩ <;> rw [h]
  rfl

/-! ## The list -/

/-- The list and the largest index are as they were. -/
structure State.SameList (s s' : State) : Prop where
  nodes : s'.sxListNodes = s.sxListNodes
  max : s'.susMaxIndexConnectedNode = s.susMaxIndexConnectedNode

theorem sameList_cycleNextNode (s : State) : s.SameList (cycleNextNode s) := by
  by_cases h : getNextNodeToCycle s.susCurrentNode s < dlmsEmuMaxNumNodesConnected
  · rw [cycleNextNode_of_lt h]
    exact ⟨rfl, rfl⟩
  · rw [cycleNextNode_of_not_lt h]
    exact ⟨rfl, rfl⟩

theorem sameList_stMachineSend (usIndex : UInt16) (t : DlmsStatusTag) (s : State) :
    s.SameList (stMachineSend usIndex t s) := by
  rw [stMachineSend_eq]
  split_ifs
  · exact ⟨rfl, rfl⟩
  · exact sameList_cycleNextNode s

theorem sameList_nextStep (s : State) : s.SameList (nextStep s) := by
  by_cases h : s.sucCurrentNodeDlmsStep = .releaseRequest
  · rw [nextStep_of_release h]
    split_ifs
    · exact ⟨rfl, rfl⟩
    · exact ⟨rfl, rfl⟩
  · obtain ⟨t, bn, -, heq⟩ := nextStep_of_ne_release h
    rw [heq]
    exact ⟨(sameList_stMachineSend _ _ _).nodes, (sameList_stMachineSend _ _ _).max⟩

/-- A cycle starts with the largest index that the count has found. -/
theorem sameList_startCycle (s : State) :
    (getNumberNodesConnected s).2.SameList (startCycle s) := by
  unfold startCycle
  generalize getNumberNodesConnected s = r
  dsimp only
  split_ifs
  · exact ⟨(sameList_stMachineSend _ _ _).nodes, (sameList_stMachineSend _ _ _).max⟩
  · exact ⟨rfl, rfl⟩
  · exact ⟨rfl, rfl⟩

/-! ## Management responses -/

/-- A message, with zeros behind it. -/
def message (bytes : List UInt8) : Mem UInt8 := Mem.init fun i => bytes.getD i 0

theorem updateMaxIndex_eq (usAddress : UInt16) (s : State) :
    ∃ m, updateMaxIndex usAddress s = { s with susMaxIndexConnectedNode := m } := by
  unfold updateMaxIndex
  split_ifs
  · exact ⟨_, rfl⟩
  · exact ⟨_, rfl⟩

/-- A node that joins changes the list and its largest index. -/
theorem joinInd_eq (pucDeviceId : Mem UInt8) (ucDeviceIdLen : UInt8) (usDstAddress : UInt16)
    (pucMac : Mem UInt8) (s : State) : ∃ nodes m,
      dlmsEmulCl432JoinIndCb pucDeviceId ucDeviceIdLen usDstAddress pucMac s =
        { s with sxListNodes := nodes, susMaxIndexConnectedNode := m } := by
  obtain ⟨m, hm⟩ := updateMaxIndex_eq usDstAddress s
  unfold dlmsEmulCl432JoinIndCb
  rw [hm]
  exact ⟨_, m, rfl⟩

/-- A command queries the list, stops the cycles, or does nothing. -/
theorem dlmsEmuRcvCmd_cases (buf : List UInt8) (s : State) :
    (buf.head? = some dlmsEmuCmdStartCycles ∧ dlmsEmuRcvCmd buf s = updateNodesList s)
      ∨ dlmsEmuRcvCmd buf s = stopCycles s ∨ dlmsEmuRcvCmd buf s = s := by
  unfold dlmsEmuRcvCmd
  cases buf with
  | nil => exact Or.inr (Or.inr rfl)
  | cons cmd rest =>
      dsimp only
      split_ifs with hstart
      · exact Or.inl ⟨congrArg some hstart, rfl⟩
      · exact Or.inr (Or.inl rfl)
      · exact Or.inr (Or.inr rfl)

/-- The largest index is raised to an address of the list. -/
theorem updateMaxIndex_le {usAddress : UInt16}
    (h : s.susMaxIndexConnectedNode.toNat ≤ dlmsEmuMaxNumNodesConnected.toNat)
    (haddress : usAddress < dlmsEmuMaxNumNodesConnected) :
    (updateMaxIndex usAddress s).susMaxIndexConnectedNode.toNat
      ≤ dlmsEmuMaxNumNodesConnected.toNat := by
  have hlt : usAddress.toNat < 16 := haddress
  have hsize : dlmsEmuMaxNumNodesConnected.toNat = 16 := rfl
  unfold updateMaxIndex
  split_ifs
  · show (usAddress + 1).toNat ≤ _
    rw [UInt16.toNat_add, UInt16.toNat_one]
    omega
  · exact h

/-- The records of a list response change the list and the largest index only. -/
theorem listRecords_eq (msg : Mem UInt8) (s : State) :
    ∃ nodes m, listRecords msg s =
      { s with sxListNodes := nodes, susMaxIndexConnectedNode := m } := by
  apply forRange_invariant (fun r : State => ∃ nodes m, r =
    { s with sxListNodes := nodes, susMaxIndexConnectedNode := m })
    ⟨s.sxListNodes, s.susMaxIndexConnectedNode, rfl⟩
  rintro i r - - ⟨nodes, m, rfl⟩
  unfold listRecord
  dsimp only
  split_ifs
  · exact ⟨nodes, m, rfl⟩
  · obtain ⟨m', hm'⟩ := updateMaxIndex_eq
      (bigEndian msg (recordAt (msg.cell 6) i + 2))
      { s with sxListNodes := nodes, susMaxIndexConnectedNode := m }
    rw [hm']
    exact ⟨_, m', rfl⟩

/-- A response is ignored, its records are taken over and more of them are queried, or it
is the last page and a cycle starts. -/
theorem dlmsMngpRspCb_cases (msg : Mem UInt8) (len : UInt16) (s : State) :
    dlmsMngpRspCb msg len s = s ∨ dlmsMngpRspCb msg len s = listRecords msg s
      ∨ (∃ it, dlmsMngpRspCb msg len s = queryNodesList it (listRecords msg s))
      ∨ IsLastPage msg len ∧ dlmsMngpRspCb msg len s = startCycle (listRecords msg s) := by
  unfold dlmsMngpRspCb
  dsimp only
  split_ifs with hlen hrsp hpib hlast h1 h2
  · exact Or.inl rfl
  · exact Or.inl rfl
  · refine Or.inr (Or.inr (Or.inr ⟨⟨⟨?_, not_not.mp hrsp, hpib⟩, ?_⟩, rfl⟩))
    · exact UInt16.not_lt.mp hlen
    · rcases hlast with hzero | hlt
      · rw [hzero]
        decide
      · exact hlt
  · exact Or.inr (Or.inl rfl)
  · exact Or.inr (Or.inl rfl)
  · exact Or.inr (Or.inr (Or.inl ⟨_, rfl⟩))
  · exact Or.inl rfl

/-- What is not a page of the list is ignored. -/
theorem dlmsMngpRspCb_of_not_page {msg : Mem UInt8} {len : UInt16} (h : ¬ IsListPage msg len) :
    dlmsMngpRspCb msg len s = s := by
  unfold dlmsMngpRspCb
  split_ifs with hlen hrsp hpib
  · rfl
  · rfl
  · exact absurd ⟨UInt16.not_lt.mp hlen, not_not.mp hrsp, hpib⟩ h
  · rfl

/-- The last page of the list starts a cycle. -/
theorem dlmsMngpRspCb_of_last {msg : Mem UInt8} {len : UInt16} (h : IsLastPage msg len) :
    dlmsMngpRspCb msg len s = startCycle (listRecords msg s) := by
  obtain ⟨⟨hlen, hrsp, hpib⟩, hlast⟩ := h
  unfold dlmsMngpRspCb
  rw [if_neg (UInt16.not_lt.mpr hlen), if_neg (not_not.mpr hrsp), if_pos hpib]
  exact if_pos (Or.inr hlast)

/-- After another page, the list is what its records have made of it. -/
theorem dlmsMngpRspCb_of_more {msg : Mem UInt8} {len : UInt16} (hpage : IsListPage msg len)
    (h : ¬ IsLastPage msg len) : (listRecords msg s).SameList (dlmsMngpRspCb msg len s) := by
  obtain ⟨hlen, hrsp, hpib⟩ := hpage
  unfold dlmsMngpRspCb
  rw [if_neg (UInt16.not_lt.mpr hlen), if_neg (not_not.mpr hrsp), if_pos hpib]
  dsimp only
  split_ifs with hlast
  · refine absurd ⟨⟨hlen, hrsp, hpib⟩, ?_⟩ h
    rcases hlast with hzero | hlt
    · rw [hzero]
      decide
    · exact hlt
  · exact ⟨rfl, rfl⟩
  · exact ⟨rfl, rfl⟩
  · exact ⟨rfl, rfl⟩

theorem dlmsMngpRspCb_timers (msg : Mem UInt8) (len : UInt16) (s : State) :
    (dlmsMngpRspCb msg len s).timers = s.timers := by
  obtain ⟨nodes, m, hrecords⟩ := listRecords_eq msg s
  rcases dlmsMngpRspCb_cases msg len s with h | h | ⟨it, h⟩ | ⟨-, h⟩
  · rw [h]
  · rw [h, hrecords]
  · rw [h, hrecords]
    rfl
  · rw [h, startCycle_timers, hrecords]

end DlmsEmu
