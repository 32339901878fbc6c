/-
# One thread of progress

A sequence of requests is carried on by what its node answers, and between two requests
by the next-step, the next-node and the next-cycle timer.  So it stands at a request whose
step has not ended, or at one of the three timers: two sequences run at once when there
are two such things.

The handlers arm a timer without looking at the other two, a cycle is started without
looking at the one that runs, and a timeout sends the next request although the step has
ended.  At most one sequence runs in every state of a run exactly when no event that does
one of these meets another sequence.
-/
import PlcManager.DlmsEmuCycle
import PlcManager.DlmsEmuTimers

namespace DlmsEmu

/-! ## Sequences -/

/-- The emulator, and the number of requests whose step has not ended. -/
structure Threads where
  emu : State
  waiting : ℕ

/-- The number of requests made on the way from one state to the other. -/
def requestsMade (s s' : State) : ℕ := s'.requests.length - s.requests.length

/-- A step of the emulator.  What ends a step ends that of a request that waits. -/
def threadStep (e : Event) (c : Threads) : Option Threads :=
  (step e c.emu).map fun s' =>
    ⟨s', (if e.EndsStep then c.waiting - 1 else c.waiting) + requestsMade c.emu s'⟩

/-- The emulator when it has been started. -/
def threadsStarted (appId : ℤ) (ids : TimerIds) (behind : ℕ → UInt8) : Threads :=
  ⟨started appId ids behind, 0⟩

/-- No timer of the cycle is armed. -/
def Timers.NoneArmed (ts : Timers) : Prop := ∀ u, u ≠ .timeout → ts.armed u = false

/-- No other timer of the cycle than `t` is armed. -/
def Timers.OnlyBy (ts : Timers) (t : Timer) : Prop := ∀ u, u ≠ .timeout → u ≠ t → ts.armed u = false

/-- At most one timer of the cycle is armed. -/
def Timers.SingleThread (ts : Timers) : Prop :=
  ∀ t u, t ≠ .timeout → u ≠ .timeout → ts.armed t = true → ts.armed u = true → t = u

/-- At most one timer of the cycle is armed, and no two sequences of requests run: at most
one request waits, and while it does, none of the timers is armed. -/
structure Threads.Single (c : Threads) : Prop where
  timers : c.emu.timers.SingleThread
  requests : c.waiting ≤ 1
  apart : c.waiting ≠ 0 → c.emu.timers.NoneArmed

/-- One of the nodes 1 to 15 is connected. -/
def AnyConnected (nodes : Mem UInt8) : Prop :=
  ∃ i < dlmsEmuMaxNumNodesConnected.toNat, 1 ≤ i ∧ Connected nodes i

/-- An event that carries a sequence on, or begins one, finds no other one: a valid response
arms the next-step timer, an invalid one and a negative confirm arm the next-node timer, a
timeout sends the next request or ends the cycle, and the last page of a list query sends
the first one. -/
def Orderly : Event → Threads → Prop
  | .dataInd _ _ _ _ pucData _ _, c =>
      if CheckDlmsMessage c.emu.sucCurrentNodeDlmsStep pucData then c.emu.timers.OnlyBy .nextStep
      else c.emu.timers.OnlyBy .nextNode
  | .dataCfm _ _ _ ucTxStatus, c => IsNegativeStatus ucTxStatus → c.emu.timers.OnlyBy .nextNode
  | .expire .timeout, c =>
      c.emu.timers.armed .timeout = true →
        if getNextNodeToCycle c.emu.susCurrentNode c.emu < dlmsEmuMaxNumNodesConnected then
          c.emu.timers.NoneArmed
        else c.emu.timers.OnlyBy .nextCycle
  | .response ptrMsg len, c =>
      IsLastPage ptrMsg len → AnyConnected (listRecords ptrMsg c.emu).sxListNodes →
        c.waiting = 0 ∧ c.emu.timers.NoneArmed
  | _, _ => True

/-- The event leaves at most one sequence running. -/
def KeepsSingle (e : Event) (c : Threads) : Prop := ∀ c', threadStep e c = some c' → c'.Single

/-! ## What carries a sequence on -/

section CarriesOn

variable {s s' : State} {usIndex : UInt16} {t : DlmsStatusTag}

/-- One request is made, and no timer is touched. -/
structure SendsOne (s s' : State) : Prop where
  timers : s'.timers = s.timers
  requests : s'.requests.length = s.requests.length + 1

/-- A timer is armed, and no request is made. -/
structure Arms (u : Timer) (s s' : State) : Prop where
  timers : s'.timers = s.timers.set true u
  requests : s'.requests.length = s.requests.length

theorem length_requests_emit {outs : List Output} (h : outs.filterMap Output.request? = []) :
    (s.emit outs).requests.length = s.requests.length := by
  rw [State.requests, State.emit, List.filterMap_append, h, List.append_nil]
  rfl

theorem sendsOne_sendRequest {r : State} (usIndex : UInt16) (t : DlmsStatusTag)
    (htimers : r.timers = s.timers) (hrequests : r.requests.length = s.requests.length) :
    SendsOne s (sendRequest usIndex t r) := by
  obtain ⟨lsdu, -, htrace⟩ := sendRequest_trace usIndex t r
  refine ⟨htimers, ?_⟩
  rw [State.requests, htrace, List.filterMap_append, List.length_append, ← hrequests]
  rfl

/-- `_cycle_next_node` asks the next node, … -/
theorem sendsOne_cycleNextNode
    (h : getNextNodeToCycle s.susCurrentNode s < dlmsEmuMaxNumNodesConnected) :
    SendsOne s (cycleNextNode s) := by
  rw [cycleNextNode_of_lt h]
  exact sendsOne_sendRequest _ _ rfl rfl

/-- … or arms the next-cycle timer. -/
theorem arms_cycleNextNode
    (h : ¬ getNextNodeToCycle s.susCurrentNode s < dlmsEmuMaxNumNodesConnected) :
    Arms .nextCycle s (cycleNextNode s) := by
  rw [cycleNextNode_of_not_lt h]
  exact ⟨rfl, length_requests_emit rfl⟩

theorem cycleNextNode_carriesOn (s : State) :
    SendsOne s (cycleNextNode s) ∨ ∃ u, u ≠ .timeout ∧ Arms u s (cycleNextNode s) := by
  by_cases h : getNextNodeToCycle s.susCurrentNode s < dlmsEmuMaxNumNodesConnected
  · exact Or.inl (sendsOne_cycleNextNode h)
  · exact Or.inr ⟨.nextCycle, by decide, arms_cycleNextNode h⟩

theorem stMachineSend_carriesOn (usIndex : UInt16) (t : DlmsStatusTag) (s : State) :
    SendsOne s (stMachineSend usIndex t s)
      ∨ ∃ u, u ≠ .timeout ∧ Arms u s (stMachineSend usIndex t s) := by
  rw [stMachineSend_eq]
  split_ifs
  · exact Or.inl (sendsOne_sendRequest _ _ rfl rfl)
  · exact cycleNextNode_carriesOn s

/-- The report of a node is neither a request nor a timer. -/
theorem length_requests_reportNode (pcResult : String) (s : State) :
    (reportNode pcResult s).requests.length = s.requests.length := length_requests_emit rfl

/-- `_next_step` sends one request or arms one timer. -/
theorem nextStep_carriesOn (s : State) :
    SendsOne s (nextStep s) ∨ ∃ u, u ≠ .timeout ∧ Arms u s (nextStep s) := by
  have hreport := length_requests_reportNode spcRepResultSuccess s
  by_cases hrelease : s.sucCurrentNodeDlmsStep = .releaseRequest
  · right
    rw [nextStep_of_release hrelease]
    split_ifs
    · exact ⟨.nextNode, by decide, rfl, hreport⟩
    · exact ⟨.nextCycle, by decide, rfl, (length_requests_emit rfl).trans hreport⟩
  · obtain ⟨t, bn, -, heq⟩ := nextStep_of_ne_release hrelease
    rw [heq]
    rcases stMachineSend_carriesOn s.susCurrentNode t { reportNode spcRepResultSuccess s with
        sucCurrentNodeDlmsStep := t
        sucBlocknumber := bn } with hsends | ⟨u, hu, harms⟩
    · exact Or.inl ⟨hsends.timers, by rw [hsends.requests]; exact congrArg (· + 1) hreport⟩
    · exact Or.inr ⟨u, hu, harms.timers, harms.requests.trans hreport⟩

/-- `_start_cycle` makes a request if there is a node to ask, … -/
theorem sendsOne_startCycle (h : AnyConnected s.sxListNodes) : SendsOne s (startCycle s) := by
  obtain ⟨i, hi, hge, hconnected⟩ := h
  obtain ⟨m, hm⟩ := getNumberNodesConnected_snd s
  have hmax := (getNumberNodesConnected_max s i hi hconnected)
  have hcount := getNumberNodesConnected_ne_zero hi hconnected
  rw [hm] at hmax
  have hlt : getNextNodeToCycle 0 { s with susMaxIndexConnectedNode := m }
      < dlmsEmuMaxNumNodesConnected := by
    rcases getNextNodeToCycle_cases 0 { s with susMaxIndexConnectedNode := m } with
      ⟨-, hnone⟩ | ⟨-, -, hlt, -⟩
    · exact absurd hconnected (hnone i hge hmax.1)
    · exact UInt16.lt_iff_toNat_lt.mpr (lt_of_lt_of_le hlt hmax.2)
  rw [startCycle_of_lt hm hcount hlt]
  exact sendsOne_sendRequest _ _ rfl (length_requests_emit (s := s) rfl)

/-- … and does next to nothing if there is none. -/
theorem startCycle_of_not_anyConnected (h : ¬ AnyConnected s.sxListNodes) :
    (startCycle s).timers = s.timers ∧ (startCycle s).requests = s.requests := by
  obtain ⟨m, c, hs⟩ := startCycle_of_none fun i hge hi hc => h ⟨i, hi, hge, hc⟩
  rw [hs]
  exact ⟨rfl, rfl⟩

end CarriesOn

/-! ## One step -/

section Single

variable {e : Event} {c c' : Threads} {ts : Timers} {s' : State} {t u : Timer}

theorem Timers.NoneArmed.onlyBy (h : ts.NoneArmed) (t : Timer) : ts.OnlyBy t :=
  fun u hu _ => h u hu

theorem Timers.NoneArmed.singleThread (h : ts.NoneArmed) : ts.SingleThread := by
  intro t _ ht _ harmed _
  rw [h t ht] at harmed
  exact absurd harmed (by simp)

/-- A timer of the cycle may be armed exactly when no other one is. -/
theorem singleThread_set_true (ht : t ≠ .timeout) :
    (ts.set true t).SingleThread ↔ ts.OnlyBy t := by
  constructor
  · intro h u hu hut
    by_contra harmed
    rw [Bool.not_eq_false] at harmed
    apply hut
    apply h u t hu ht
    · rwa [armed_set, if_neg hut]
    · rw [armed_set, if_pos rfl]
  · intro h u v hu hv harmedu harmedv
    have honly (w : Timer) (hw : w ≠ .timeout) (harmed : (ts.set true t).armed w = true) :
        w = t := by
      by_contra hwt
      rw [armed_set, if_neg hwt, h w hw hwt] at harmed
      exact absurd harmed (by simp)
    rw [honly u hu harmedu, honly v hv harmedv]

/-- While a timer is armed, no request waits, and when it has expired, none is armed. -/
theorem Threads.Single.expired (h : c.Single) (ht : t ≠ .timeout)
    (harmed : c.emu.timers.armed t = true) :
    c.waiting = 0 ∧ (c.emu.timers.set false t).NoneArmed := by
  constructor
  · by_contra hwaiting
    rw [h.apart hwaiting t ht] at harmed
    exact absurd harmed (by simp)
  · intro u hu
    rw [armed_set]
    split_ifs with hut
    · rfl
    · by_contra hon
      rw [Bool.not_eq_false] at hon
      exact hut (h.timers u t hu ht hon harmed)

/-- Fewer requests wait, and fewer timers are armed. -/
theorem Threads.Single.anti (h : c.Single) (hwaiting : c'.waiting ≤ c.waiting)
    (htimers : ∀ u, u ≠ .timeout → c'.emu.timers.armed u = true → c.emu.timers.armed u = true) :
    c'.Single := by
  refine ⟨fun t u ht hu harmedt harmedu => ?_, hwaiting.trans h.requests, fun hne u hu => ?_⟩
  · exact h.timers t u ht hu (htimers t ht harmedt) (htimers u hu harmedu)
  · by_contra harmed
    rw [Bool.not_eq_false] at harmed
    have hoff := h.apart (by omega) u hu
    rw [htimers u hu harmed] at hoff
    exact absurd hoff (by simp)

/-- A timer is armed after the step of a request has ended. -/
theorem single_iff_of_armed (c : Threads) (ts : Timers) (ht : t ≠ .timeout)
    (hwaiting : c'.waiting = 0) (htimers : c'.emu.timers = ts.set true t)
    (hsame : ∀ u, u ≠ .timeout → ts.armed u = c.emu.timers.armed u) :
    c'.Single ↔ c.emu.timers.OnlyBy t := by
  have hsingle : c'.Single ↔ c'.emu.timers.SingleThread :=
    ⟨fun h => h.timers, fun h => ⟨h, by omega, fun hne => absurd hwaiting hne⟩⟩
  rw [hsingle, htimers, singleThread_set_true ht]
  refine forall_congr' fun u => forall_congr' fun hu => ?_
  rw [hsame u hu]

/-- A request waits. -/
theorem single_iff_of_waiting (hwaiting : c'.waiting = 1)
    (hsame : ∀ u, u ≠ .timeout → c'.emu.timers.armed u = c.emu.timers.armed u) :
    c'.Single ↔ c.emu.timers.NoneArmed := by
  have hsingle : c'.Single ↔ c'.emu.timers.NoneArmed :=
    ⟨fun h => h.apart (by omega), fun h => ⟨h.singleThread, by omega, fun _ => h⟩⟩
  rw [hsingle]
  refine forall_congr' fun u => forall_congr' fun hu => ?_
  rw [hsame u hu]

/-- With nothing that carries a sequence on, one may be sent or a timer armed. -/
theorem single_of_carriesOn {s : State} (hnone : s.timers.NoneArmed)
    (h : SendsOne s s' ∨ ∃ u, u ≠ .timeout ∧ Arms u s s') (hwaiting : c'.waiting =
      s'.requests.length - s.requests.length) (hemu : c'.emu = s') : c'.Single := by
  subst hemu
  rcases h with hsends | ⟨u, hu, harms⟩
  · refine (single_iff_of_waiting (c := ⟨s, 0⟩) ?_ fun v _ => ?_).mpr hnone
    · rw [hwaiting, hsends.requests]
      omega
    · rw [hsends.timers]
  · refine (single_iff_of_armed ⟨s, 0⟩ s.timers hu ?_ harms.timers
      fun v _ => rfl).mpr (hnone.onlyBy u)
    rw [hwaiting, harms.requests]
    omega

theorem keepsSingle_iff_of_step (hs : step e c.emu = some s') : KeepsSingle e c ↔
    Threads.Single
      ⟨s', (if e.EndsStep then c.waiting - 1 else c.waiting) + requestsMade c.emu s'⟩ := by
  unfold KeepsSingle threadStep
  rw [hs]
  exact ⟨fun h => h _ rfl, fun h c' hc => Option.some.inj hc ▸ h⟩

theorem keepsSingle_iff_of_ends (he : e.EndsStep) (hs : step e c.emu = some s') :
    KeepsSingle e c ↔ Threads.Single ⟨s', c.waiting - 1 + requestsMade c.emu s'⟩ := by
  rw [keepsSingle_iff_of_step hs, if_pos he]

theorem keepsSingle_iff_of_not_ends (he : ¬ e.EndsStep) (hs : step e c.emu = some s') :
    KeepsSingle e c ↔ Threads.Single ⟨s', c.waiting + requestsMade c.emu s'⟩ := by
  rw [keepsSingle_iff_of_step hs, if_neg he]

/-- An event that makes no request and arms no timer of the cycle. -/
theorem keepsSingle_of_anti (h : c.Single) (hs : step e c.emu = some s')
    (hrequests : s'.requests.length = c.emu.requests.length)
    (htimers : ∀ u, u ≠ .timeout → s'.timers.armed u = true → c.emu.timers.armed u = true) :
    KeepsSingle e c := by
  rw [keepsSingle_iff_of_step hs]
  refine h.anti ?_ htimers
  dsimp only [requestsMade]
  rw [hrequests]
  split_ifs <;> omega

/-- A command makes no request and arms no timer. -/
theorem dlmsEmuRcvCmd_quiet (buf : List UInt8) (s : State) :
    (dlmsEmuRcvCmd buf s).requests.length = s.requests.length
      ∧ ∀ u, (dlmsEmuRcvCmd buf s).timers.armed u = true → s.timers.armed u = true := by
  rcases dlmsEmuRcvCmd_cases buf s with ⟨-, hcmd⟩ | hcmd | hcmd
  · rw [hcmd]
    exact ⟨length_requests_emit rfl, fun u hu => hu⟩
  · obtain ⟨ts, hs, harmed⟩ := stopCycles_eq s
    rw [hcmd, hs]
    refine ⟨rfl, fun u hu => ?_⟩
    rw [harmed] at hu
    split_ifs at hu
    exact hu
  · rw [hcmd]
    exact ⟨rfl, fun u hu => hu⟩

/-- A list response makes a request when it is the last page and leaves a node to ask. -/
theorem keepsSingle_response_iff (h : c.Single) (msg : Mem UInt8) (len : UInt16) :
    KeepsSingle (.response msg len) c ↔ Orderly (.response msg len) c := by
  have htimers := dlmsMngpRspCb_timers msg len c.emu
  obtain ⟨nodes, m, hrecords⟩ := listRecords_eq msg c.emu
  have hsame : (listRecords msg c.emu).requests = c.emu.requests := by
    rw [hrecords]
    rfl
  unfold Orderly
  by_cases hstart : IsLastPage msg len ∧ AnyConnected (listRecords msg c.emu).sxListNodes
  · have hsends := sendsOne_startCycle hstart.2
    have hs : step (.response msg len) c.emu = some (dlmsMngpRspCb msg len c.emu) := rfl
    rw [keepsSingle_iff_of_not_ends id hs]
    have hwaiting : c.waiting + requestsMade c.emu (dlmsMngpRspCb msg len c.emu)
        = c.waiting + 1 := by
      rw [requestsMade, dlmsMngpRspCb_of_last hstart.1, hsends.requests, hsame]
      omega
    rw [hwaiting]
    constructor
    · intro hsingle _ _
      have hone := hsingle.requests
      dsimp only at hone
      have hnone := hsingle.apart (Nat.succ_ne_zero _)
      rw [htimers] at hnone
      exact ⟨by omega, hnone⟩
    · intro horderly
      obtain ⟨hzero, hnone⟩ := horderly hstart.1 hstart.2
      refine (single_iff_of_waiting (c := c) (by rw [hzero]) fun u _ => ?_).mpr hnone
      rw [htimers]
  · refine iff_of_true (keepsSingle_of_anti h rfl ?_ fun u _ => ?_)
      fun hlast hany => absurd ⟨hlast, hany⟩ hstart
    · rcases dlmsMngpRspCb_cases msg len c.emu with hs | hs | ⟨it, hs⟩ | ⟨hlast, hs⟩
      · rw [hs]
      · rw [hs, hsame]
      · rw [hs, ← hsame]
        exact length_requests_emit rfl
      · have hnot : ¬ AnyConnected (listRecords msg c.emu).sxListNodes :=
          fun hany => hstart ⟨hlast, hany⟩
        rw [hs, (startCycle_of_not_anyConnected hnot).2, hsame]
    · rw [htimers]
      exact id

/-- What ends a step, and makes no request, leaves no request waiting. -/
theorem Threads.Single.waiting_of_ends (h : c.Single) (s' : State)
    (hrequests : s'.requests.length = c.emu.requests.length) :
    c.waiting - 1 + requestsMade c.emu s' = 0 := by
  have hone := h.requests
  rw [requestsMade, hrequests]
  omega

/-- A negative confirm arms the next-node timer. -/
theorem keepsSingle_dataCfm_iff (h : c.Single) (dstLsap srcLsap : UInt8) (dst : UInt16)
    (status : UInt8) : KeepsSingle (.dataCfm dstLsap srcLsap dst status) c
      ↔ Orderly (.dataCfm dstLsap srcLsap dst status) c := by
  by_cases hnegative : IsNegativeStatus status
  · have hsuccess : status ≠ cl432TxStatusSuccess := by
      rintro rfl
      exact absurd hnegative (by decide)
    have hs : step (.dataCfm dstLsap srcLsap dst status) c.emu
        = some (startTimer .nextNode (reportNode spcRepResultFail c.emu)) := by
      apply congrArg some
      rw [dlmsEmuCl432DlDataCfmCb, if_neg hsuccess, if_pos hnegative]
    have hwaiting := h.waiting_of_ends _ (length_requests_reportNode spcRepResultFail c.emu)
    rw [keepsSingle_iff_of_ends (by exact hnegative) hs, Orderly, imp_iff_right hnegative]
    exact single_iff_of_armed c _ (by decide) hwaiting rfl fun u _ => rfl
  · have hs : ∃ ts, step (.dataCfm dstLsap srcLsap dst status) c.emu
          = some { c.emu with timers := ts }
        ∧ ∀ u, u ≠ .timeout → ts.armed u = c.emu.timers.armed u := by
      by_cases hsuccess : status = cl432TxStatusSuccess
      · refine ⟨c.emu.timers.set true .timeout, ?_, fun u hu => by rw [armed_set, if_neg hu]⟩
        apply congrArg some
        rw [dlmsEmuCl432DlDataCfmCb, if_pos hsuccess]
        rfl
      · refine ⟨c.emu.timers, ?_, fun u _ => rfl⟩
        apply congrArg some
        rw [dlmsEmuCl432DlDataCfmCb, if_neg hsuccess, if_neg hnegative]
    obtain ⟨ts, hs, hsame⟩ := hs
    refine iff_of_true (keepsSingle_of_anti h hs rfl fun u hu hon => ?_)
      fun hyes => absurd hyes hnegative
    rw [← hsame u hu]
    exact hon

/-- A response of the node arms one timer, the next step if it is valid. -/
theorem keepsSingle_dataInd_iff (h : c.Single) (dstLsap srcLsap : UInt8) (dst src : UInt16)
    (data : Mem UInt8) (len : UInt16) (linkClass : UInt8) :
    KeepsSingle (.dataInd dstLsap srcLsap dst src data len linkClass) c
      ↔ Orderly (.dataInd dstLsap srcLsap dst src data len linkClass) c := by
  obtain ⟨ts, hs, harmed⟩ := dataInd_eq dstLsap srcLsap dst src data len linkClass c.emu
  have hsame (u : Timer) (hu : u ≠ .timeout) : ts.armed u = c.emu.timers.armed u := by
    rw [harmed, if_neg fun hboth => hu hboth.1]
  have hstep : step (.dataInd dstLsap srcLsap dst src data len linkClass) c.emu = some _ :=
    congrArg some hs
  rw [keepsSingle_iff_of_ends (by trivial) hstep, Orderly]
  split_ifs
  · have hwaiting := h.waiting_of_ends (startTimer .nextStep { c.emu with timers := ts }) rfl
    exact single_iff_of_armed c _ (by decide) hwaiting rfl hsame
  · have hwaiting := h.waiting_of_ends (startTimer .nextNode
      (reportNode spcRepResultFailInvalid { c.emu with timers := ts }))
      (length_requests_reportNode spcRepResultFailInvalid { c.emu with timers := ts })
    exact single_iff_of_armed c _ (by decide) hwaiting rfl hsame

/-- The timeout sends the next request, or it ends the cycle and arms the next-cycle timer. -/
theorem keepsSingle_timeout_iff (h : c.Single) :
    KeepsSingle (.expire .timeout) c ↔ Orderly (.expire .timeout) c := by
  rw [Orderly]
  by_cases harmed : c.emu.timers.armed .timeout = true
  · obtain ⟨r, hr⟩ : ∃ r, r = reportNode spcRepResultFailTimeout (c.emu.disarm .timeout) := ⟨_, rfl⟩
    have hs : step (.expire .timeout) c.emu = some (cycleNextNode r) := by
      rw [step_expire, if_pos harmed, hr]
      rfl
    have hrequests : r.requests.length = c.emu.requests.length := by
      rw [hr]
      exact length_requests_reportNode spcRepResultFailTimeout (c.emu.disarm .timeout)
    have hsame (u : Timer) (hu : u ≠ .timeout) : r.timers.armed u = c.emu.timers.armed u := by
      rw [hr]
      show (c.emu.timers.set false .timeout).armed u = _
      rw [armed_set, if_neg hu]
    have hnext : getNextNodeToCycle r.susCurrentNode r
        = getNextNodeToCycle c.emu.susCurrentNode c.emu := by
      rw [hr]
      exact getNextNodeToCycle_congr rfl rfl
    have hone := h.requests
    rw [imp_iff_right harmed, keepsSingle_iff_of_ends (by trivial) hs, ← hnext]
    split_ifs with hlt
    · have hsends := sendsOne_cycleNextNode hlt
      refine single_iff_of_waiting ?_ fun u hu => ?_
      · show c.waiting - 1 + requestsMade c.emu (cycleNextNode r) = 1
        rw [requestsMade, hsends.requests, hrequests]
        omega
      · show (cycleNextNode r).timers.armed u = _
        rw [hsends.timers, hsame u hu]
    · have harms := arms_cycleNextNode hlt
      have hwaiting := h.waiting_of_ends _ (harms.requests.trans hrequests)
      exact single_iff_of_armed c _ (by decide) hwaiting harms.timers hsame
  · refine iff_of_true (fun c' hc => ?_) fun hyes => absurd hyes harmed
    rw [threadStep, step_expire, if_neg harmed] at hc
    exact absurd hc (by simp)

/-- The other timers carry on the only sequence there is. -/
theorem keepsSingle_expire (h : c.Single) (ht : t ≠ .timeout) : KeepsSingle (.expire t) c := by
  by_cases harmed : c.emu.timers.armed t = true
  · obtain ⟨hwaiting, hnone⟩ := h.expired ht harmed
    have hs : step (.expire t) c.emu = some (timerHandler t (c.emu.disarm t)) := by
      rw [step_expire, if_pos harmed]
    have hends : ¬ (Event.expire t).EndsStep := by
      cases t
      case timeout => exact absurd rfl ht
      all_goals exact id
    rw [keepsSingle_iff_of_not_ends hends hs, hwaiting, Nat.zero_add]
    have hcarries (r : State) (hr : SendsOne (c.emu.disarm t) r
        ∨ ∃ u, u ≠ .timeout ∧ Arms u (c.emu.disarm t) r) :
        Threads.Single ⟨r, requestsMade c.emu r⟩ :=
      single_of_carriesOn (s := c.emu.disarm t) hnone hr rfl rfl
    cases t with
    | timeout => exact absurd rfl ht
    | nextCycle =>
        by_cases hany : AnyConnected (c.emu.disarm .nextCycle).sxListNodes
        · exact hcarries _ (Or.inl (sendsOne_startCycle hany))
        · obtain ⟨htimers, hrequests⟩ := startCycle_of_not_anyConnected hany
          have hzero : requestsMade c.emu (startCycle (c.emu.disarm .nextCycle)) = 0 := by
            rw [requestsMade, hrequests]
            exact Nat.sub_self _
          have hnone' : (startCycle (c.emu.disarm .nextCycle)).timers.NoneArmed := by
            rw [htimers]
            exact hnone
          refine ⟨hnone'.singleThread, ?_, fun _ => hnone'⟩
          exact hzero.le.trans (Nat.zero_le 1)
    | nextNode => exact hcarries _ (cycleNextNode_carriesOn _)
    | nextStep => exact hcarries _ (nextStep_carriesOn _)
  · intro c' hc
    rw [threadStep, step_expire, if_neg harmed] at hc
    exact absurd hc (by simp)

/-- **One step.**  From a state in which at most one sequence runs, an event leads to such a
state exactly when it is orderly. -/
theorem keepsSingle_iff (h : c.Single) : KeepsSingle e c ↔ Orderly e c := by
  cases e with
  | command buf =>
      obtain ⟨hrequests, htimers⟩ := dlmsEmuRcvCmd_quiet buf c.emu
      exact iff_of_true (keepsSingle_of_anti h rfl hrequests fun u _ => htimers u) trivial
  | response msg len => exact keepsSingle_response_iff h msg len
  | dataCfm dstLsap srcLsap dst status => exact keepsSingle_dataCfm_iff h dstLsap srcLsap dst status
  | dataInd dstLsap srcLsap dst src data len linkClass =>
      exact keepsSingle_dataInd_iff h dstLsap srcLsap dst src data len linkClass
  | joinInd deviceId len dst mac =>
      obtain ⟨nodes, m, hjoin⟩ := joinInd_eq deviceId len dst mac c.emu
      exact iff_of_true (keepsSingle_of_anti h (congrArg some hjoin) rfl fun _ _ => id) trivial
  | leaveInd dst => exact iff_of_true (keepsSingle_of_anti h rfl rfl fun _ _ => id) trivial
  | expire t =>
      cases t with
      | timeout => exact keepsSingle_timeout_iff h
      | nextCycle => exact iff_of_true (keepsSingle_expire h (by decide)) trivial
      | nextNode => exact iff_of_true (keepsSingle_expire h (by decide)) trivial
      | nextStep => exact iff_of_true (keepsSingle_expire h (by decide)) trivial

end Single

/-! ## Runs -/

/-- The emulator does what it does, whatever is counted. -/
theorem map_emu_threadStep (e : Event) (c : Threads) :
    (threadStep e c).map Threads.emu = step e c.emu := by
  rw [threadStep, Option.map_map]
  exact Option.map_id'

/-- The emulator starts with nothing to carry on. -/
theorem single_threadsStarted (appId : ℤ) (ids : TimerIds) (behind : ℕ → UInt8) :
    (threadsStarted appId ids behind).Single := by
  have hnone : (started appId ids behind).timers.NoneArmed := by
    intro t _
    cases t <;> rfl
  exact ⟨hnone.singleThread, Nat.zero_le 1, fun _ => hnone⟩

/-- **One thread of progress.**  In every state of a run at most one of the three timers is
armed and at most one sequence of requests runs exactly when all its events are orderly. -/
theorem dlms_emu_single_thread_iff (appId : ℤ) (ids : TimerIds) (behind : ℕ → UInt8)
    (es : List Event) :
    AlongSteps threadStep KeepsSingle es (threadsStarted appId ids behind)
      ↔ AlongSteps threadStep Orderly es (threadsStarted appId ids behind) := by
  refine alongSteps_congr (I := Threads.Single) (fun e c h => keepsSingle_iff h) ?_
    (single_threadsStarted appId ids behind)
  intro e c c' _ hkeeps hc
  exact hkeeps c' hc

/-- The request to node 1 is confirmed with a timeout, and then the response of the node
comes all the same: both the next-node and the next-step timer are armed. -/
theorem dlms_emu_two_threads :
    ¬ ∀ (appId : ℤ) (ids : TimerIds) (behind : ℕ → UInt8) (es : List Event) (c : Threads),
      runSteps threadStep es (threadsStarted appId ids behind) = some c → c.Single := by
  intro hclaim
  have hrun : ((runSteps threadStep (startNode1 ++ [.dataCfm 0 0 1 cl432TxStatusTimeout,
      .dataInd 0 0 0 1 (message assocResponseVal) 16 0])
        (threadsStarted 4 .inOrder fun _ => 0)).map fun c =>
          (c.emu.timers.armed .nextNode, c.emu.timers.armed .nextStep)) = some (true, true) := by
    decide +kernel
  obtain ⟨c, hc, harmed⟩ := Option.map_eq_some_iff.mp hrun
  obtain ⟨hnode, hstep⟩ := Prod.mk.injEq .. ▸ harmed
  have hsingle := hclaim 4 .inOrder (fun _ => 0) _ c hc
  have heq := hsingle.timers .nextNode .nextStep (by decide) (by decide) hnode hstep
  exact absurd heq (by decide)

/-- A second START, and the answer to its list query, send a second association request
while the first one waits. -/
example : (runSteps threadStep (startNode1 ++ [.command [dlmsEmuCmdStartCycles],
    .response (message [0, 0, 0x0f, 0x82, 0x50, 0, 0]) 7])
      (threadsStarted 4 .inOrder fun _ => 0)).map Threads.waiting = some 2 := by
  decide +kernel

end DlmsEmu
