/-
# What STOP stops

`_stop_cycles` disarms the timers, and that is all it does.  A confirm or a response that
is still on its way arms one again, and the last page of a list query starts a cycle.  A
timer with the id zero stays armed: `_stop_timer` takes the id for that of a timer that
has not been created.

While nothing of this arrives and no such timer expires, no request is made after STOP.
-/
import PlcManager.DlmsEmuSteps
import PlcManager.Runs

namespace DlmsEmu

open Dlmsotcp (cl432InvalidAddress)

variable {s s' : State} {e : Event} {es : List Event}

/-! ## STOP -/

/-- The client asks for cycles. -/
def Event.IsStart : Event → Prop
  | .command buf => buf.head? = some dlmsEmuCmdStartCycles
  | _ => False

/-- No confirm with a status that is handled, no data indication, no last page of a list
query that leaves one of the nodes 1 to 15 connected, and no expiry of an armed timer with
the id zero. -/
def Quiet : Event → State → Prop
  | .dataCfm _ _ _ ucTxStatus, _ =>
      ucTxStatus ≠ cl432TxStatusSuccess ∧ ¬ IsNegativeStatus ucTxStatus
  | .dataInd .., _ => False
  | .response ptrMsg len, s =>
      IsLastPage ptrMsg len → ∀ i, 1 ≤ i → i < dlmsEmuMaxNumNodesConnected.toNat →
        ¬ Connected (listRecords ptrMsg s).sxListNodes i
  | .expire t, s => s.timers.armed t = true → s.timerIds t ≠ 0
  | _, _ => True

instance : ∀ (e : Event) (s : State), Decidable (Quiet e s)
  | .dataCfm .., _ => inferInstanceAs (Decidable (_ ∧ _))
  | .dataInd .., _ => isFalse id
  | .response ptrMsg len, s =>
      decidable_of_iff (IsLastPage ptrMsg len → ∀ i < dlmsEmuMaxNumNodesConnected.toNat, 1 ≤ i →
          ¬ Connected (listRecords ptrMsg s).sxListNodes i)
        ⟨fun h hlast i hi hlt => h hlast i hlt hi, fun h hlast i hlt hi => h hlast i hi hlt⟩
  | .expire t, s => inferInstanceAs (Decidable (s.timers.armed t = true → s.timerIds t ≠ 0))
  | .command .., _ | .joinInd .., _ | .leaveInd .., _ => isTrue trivial

/-- Every timer with another id than zero is disarmed. -/
def State.Stopped (s : State) : Prop := ∀ t, s.timerIds t ≠ 0 → s.timers.armed t = false

/-- What STOP leaves behind. -/
theorem stopCycles_spec (s : State) :
    (stopCycles s).timerIds = s.timerIds ∧ (stopCycles s).requests = s.requests
      ∧ (stopCycles s).Stopped := by
  obtain ⟨ts, hs, harmed⟩ := stopCycles_eq s
  rw [hs]
  exact ⟨rfl, rfl, fun t ht => by rw [harmed, if_pos ht]⟩

/-- Without a node to ask, `_start_cycle` does next to nothing. -/
theorem startCycle_of_none (h : ∀ i, 1 ≤ i → i < dlmsEmuMaxNumNodesConnected.toNat →
    ¬ Connected s.sxListNodes i) :
    ∃ m c, startCycle s = { s with susMaxIndexConnectedNode := m, susCurrentNode := c } := by
  rcases startCycle_cases s with hs | ⟨m, -, hlt, -⟩
  · exact hs
  · rcases getNextNodeToCycle_cases 0 { s with susMaxIndexConnectedNode := m } with
      ⟨hnone, -⟩ | ⟨hconnected, hge, -, -⟩
    · rw [hnone] at hlt
      exact absurd hlt (UInt16.lt_irrefl _)
    · exact absurd hconnected (h _ hge (UInt16.lt_iff_toNat_lt.mp hlt))

/-- A response that starts no cycle arms no timer and makes no request. -/
theorem Quiet.response {msg : Mem UInt8} {len : UInt16} (h : Quiet (.response msg len) s) :
    (dlmsMngpRspCb msg len s).timerIds = s.timerIds
      ∧ (dlmsMngpRspCb msg len s).timers = s.timers
      ∧ (dlmsMngpRspCb msg len s).requests = s.requests := by
  obtain ⟨nodes, m, hrecords⟩ := listRecords_eq msg s
  rcases dlmsMngpRspCb_cases msg len s with hs | hs | ⟨it, hs⟩ | ⟨hlast, hs⟩
  · rw [hs]
    exact ⟨rfl, rfl, rfl⟩
  · rw [hs, hrecords]
    exact ⟨rfl, rfl, rfl⟩
  · rw [hs, hrecords]
    refine ⟨rfl, rfl, ?_⟩
    simp [queryNodesList, State.emit, State.requests, Output.request?]
  · obtain ⟨m', c, hidle⟩ := startCycle_of_none (h hlast)
    rw [hs, hidle, hrecords]
    exact ⟨rfl, rfl, rfl⟩

/-- **One step.**  After STOP, a quiet event other than START makes no request and arms no
timer. -/
theorem Quiet.step (hquiet : Quiet e s) (hstart : ¬ e.IsStart) (hstopped : s.Stopped)
    (hstep : DlmsEmu.step e s = some s') : s'.Stopped ∧ s'.requests = s.requests := by
  cases e with
  | command buf =>
      obtain rfl := Option.some.inj hstep
      rcases dlmsEmuRcvCmd_cases buf s with ⟨hhead, -⟩ | hcmd | hcmd
      · exact absurd hhead hstart
      · rw [hcmd]
        exact ⟨(stopCycles_spec s).2.2, (stopCycles_spec s).2.1⟩
      · rw [hcmd]
        exact ⟨hstopped, rfl⟩
  | response msg len =>
      obtain rfl := Option.some.inj hstep
      obtain ⟨hids, htimers, hrequests⟩ := hquiet.response
      refine ⟨fun t ht => ?_, hrequests⟩
      rw [htimers]
      exact hstopped t (hids ▸ ht)
  | dataCfm dstLsap srcLsap dst status =>
      obtain rfl := Option.some.inj hstep
      unfold dlmsEmuCl432DlDataCfmCb
      rw [if_neg hquiet.1, if_neg hquiet.2]
      exact ⟨hstopped, rfl⟩
  | dataInd => exact hquiet.elim
  | joinInd deviceId len dst mac =>
      obtain rfl := Option.some.inj hstep
      obtain ⟨nodes, m, hjoin⟩ := joinInd_eq deviceId len dst mac s
      rw [hjoin]
      exact ⟨hstopped, rfl⟩
  | leaveInd dst =>
      obtain rfl := Option.some.inj hstep
      exact ⟨hstopped, rfl⟩
  | expire t =>
      -- a timer that is still armed has the id zero
      rw [step_expire] at hstep
      split_ifs at hstep with harmed
      rw [hstopped t (hquiet harmed)] at harmed
      exact absurd harmed (by simp)

/-- **STOP.**  From any state, after `_stop_cycles` no request is made as long as START
does not come and all events are quiet. -/
theorem dlms_emu_stop_final (s s' : State) (es : List Event) (hstart : ∀ e ∈ es, ¬ e.IsStart)
    (hquiet : AlongSteps step Quiet es (stopCycles s))
    (hrun : runSteps step es (stopCycles s) = some s') :
    s'.requests = (stopCycles s).requests := by
  -- what STOP leaves behind is kept
  suffices h : ∀ r : State, r.Stopped → AlongSteps step Quiet es r →
      runSteps step es r = some s' → s'.requests = r.requests from
    h _ (stopCycles_spec s).2.2 hquiet hrun
  clear hquiet hrun
  induction es with
  | nil =>
      intro r _ _ hrun
      rw [Option.some.inj hrun]
  | cons e es ih =>
      intro r hstopped hquiet hrun
      obtain ⟨r', hr', hrest⟩ := Option.bind_eq_some_iff.mp hrun
      have hnot := hstart e List.mem_cons_self
      obtain ⟨hstopped', hrequests⟩ := hquiet.1.step hnot hstopped hr'
      rw [ih (fun f hf => hstart f (List.mem_cons_of_mem e hf)) r' hstopped' (hquiet.2 r' hr')
        hrest, hrequests]

/-- Node 1 joins, and the client asks for cycles: the answer to the list query starts one. -/
def startNode1 : List Event :=
  [.joinInd (message []) 0 1 (message []), .command [dlmsEmuCmdStartCycles],
    .response (message [0, 0, 0x0f, 0x82, 0x50, 0, 0]) 7]

/-- The request to node 1 is confirmed, and STOP comes.  It leaves the timeout timer armed,
whose id is zero; that does not expire, and a confirm that is not looked at, a leave and an
empty page follow. -/
theorem dlms_emu_stop_final_leave : ∃ s s' : State,
    runSteps step (startNode1 ++ [.dataCfm 0 0 1 cl432TxStatusSuccess])
        (started 4 .inOrder fun _ => 0) = some s
      ∧ (stopCycles s).timers.armed .timeout = true
      ∧ runSteps step [.dataCfm 0 0 1 7, .leaveInd 1,
          .response (message [0, 0, 0x0f, 0x82, 0x50, 0, 0]) 7] (stopCycles s) = some s'
      ∧ s'.requests = (stopCycles s).requests := by
  have hrun : ((runSteps step (startNode1 ++ [.dataCfm 0 0 1 cl432TxStatusSuccess])
      (started 4 .inOrder fun _ => 0)).bind fun s =>
        (runSteps step [.dataCfm 0 0 1 7, .leaveInd 1,
          .response (message [0, 0, 0x0f, 0x82, 0x50, 0, 0]) 7] (stopCycles s)).map fun _ =>
            ((stopCycles s).timers.armed .timeout,
              decide (AlongSteps step Quiet [.dataCfm 0 0 1 7, .leaveInd 1,
                .response (message [0, 0, 0x0f, 0x82, 0x50, 0, 0]) 7] (stopCycles s))))
        = some (true, true) := by
    decide +kernel
  obtain ⟨s, hs, hrest⟩ := Option.bind_eq_some_iff.mp hrun
  obtain ⟨s', hs', hboth⟩ := Option.map_eq_some_iff.mp hrest
  obtain ⟨harmed, hquiet⟩ := Prod.mk.injEq .. ▸ hboth
  refine ⟨s, s', hs, harmed, hs', dlms_emu_stop_final s s' _ ?_ (of_decide_eq_true hquiet) hs'⟩
  simp [Event.IsStart]

/-- STOP comes while node 1 is asked for an association; the response of the node arms
the next-step timer, and when it expires the next request is made. -/
theorem dlms_emu_stop_not_final :
    ¬ ∀ (appId : ℤ) (ids : TimerIds) (behind : ℕ → UInt8) (past es : List Event) (s s' : State),
      runSteps step past (started appId ids behind) = some s → (∀ e ∈ es, ¬ e.IsStart) →
        runSteps step es (stopCycles s) = some s' → s'.requests = (stopCycles s).requests := by
  intro hclaim
  have hrun : ((runSteps step startNode1 (started 4 .inOrder fun _ => 0)).bind fun s =>
      (runSteps step [.dataInd 0 0 0 1 (message assocResponseVal) 16 0, .expire .nextStep]
        (stopCycles s)).map fun s' =>
          (s'.requests.length, (stopCycles s).requests.length)) = some (2, 1) := by
    decide +kernel
  obtain ⟨s, hs, hrest⟩ := Option.bind_eq_some_iff.mp hrun
  obtain ⟨s', hs', hlengths⟩ := Option.map_eq_some_iff.mp hrest
  rw [hclaim 4 .inOrder (fun _ => 0) startNode1 _ s s' hs (by simp [Event.IsStart]) hs'] at hlengths
  obtain ⟨htwo, hone⟩ := Prod.mk.injEq .. ▸ hlengths
  rw [htwo] at hone
  exact absurd hone (by decide)

end DlmsEmu
