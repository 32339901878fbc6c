/-
# Conservation of the message buffers

After `dlmsotcp_init` every allocated buffer is in the free list or in the pending list,
and in one of them only, as long as each data message finds a free buffer.  One that
does not makes `dlmsotcp_RxProcess` put the NULL pointer it got back to the free list,
which follows it: a burst of more messages than there are buffers stops the program.
-/
import PlcManager.DlmsotcpPackets

namespace Dlmsotcp

/-! ## The state in which reception starts -/

/-- The state that `dlmsotcp_init` leaves. -/
def started (appId : ℤ) (memory : ℕ → XDlmsMsg) (behind : ℕ → ConnectedNode) : State :=
  (dlmsotcpInit appId (State.static memory behind)).getD (State.static memory behind)

/-- The buffers from `i` on are put to the free list. -/
theorem reserveMemory_spec (n : ℕ) : ∀ {i : ℕ} {s : State}, s.Lists (List.range i) [] →
    i + n < 65535 → ∃ s', reserveMemory n i s = some s' ∧ s'.Lists (List.range (i + n)) []
      ∧ s'.trace = s.trace := by
  induction n with
  | zero => exact fun {i s} h _ => ⟨s, rfl, h, rfl⟩
  | succ n ih =>
      intro i s h hbound
      have hnd : (i :: (List.range i ++ [])).Nodup := by
        rw [List.append_nil]
        exact List.nodup_cons.mpr ⟨by simp, List.nodup_range⟩
      obtain ⟨link, free, hput, h1⟩ := h.putFree hnd (by rw [List.length_range]; omega)
      rw [← List.range_succ] at h1
      obtain ⟨s', hreserve, hlists, htrace⟩ := ih h1 (by omega)
      refine ⟨s', ?_, ?_, htrace⟩
      · rw [reserveMemory, hput]
        exact hreserve
      · rwa [show i + (n + 1) = i + 1 + n by omega]

section Started

variable (appId : ℤ) (memory : ℕ → XDlmsMsg) (behind : ℕ → ConnectedNode)

/-- `dlmsotcp_init` allocates all the buffers, puts them to the free list and requests
nothing. -/
theorem dlmsotcpInit_spec :
    dlmsotcpInit appId (State.static memory behind) = some (started appId memory behind)
      ∧ (started appId memory behind).Holds (List.range maxMsgList) []
      ∧ (started appId memory behind).requests = [] := by
  have hinit : ∃ s, dlmsotcpInit appId (State.static memory behind) = some s
      ∧ s.Lists (List.range maxMsgList) [] ∧ s.requests = [] := by
    unfold dlmsotcpInit
    dsimp only
    set s0 : State := { State.static memory behind with
      siDlmsoctpAppId := appId, siDlmsoctpDataFd := -1, siDlmsoctpLinkFd := -1 }
    have h0 : ∀ nodes, State.Lists { s0 with
        xListNodesConnected := nodes
        xFreeMessagesList := dlmsMsgListInit
        xPendingCfmMessagesList := dlmsMsgListInit } (List.range 0) [] := fun nodes =>
      ⟨⟨LinkedQueue.holds_empty _, rfl⟩, ⟨LinkedQueue.holds_empty _, rfl⟩⟩
    obtain ⟨s, hreserve, hlists, htrace⟩ := reserveMemory_spec maxMsgList (h0 _) (by decide)
    rw [hreserve]
    refine ⟨_, rfl, ?_, ?_⟩
    · rw [Nat.zero_add] at hlists
      exact hlists.congr rfl rfl rfl
    · rw [State.requests_emit, State.requests, htrace]
      rfl
  obtain ⟨s, hs, hlists, hrequests⟩ := hinit
  have hstarted : started appId memory behind = s := by rw [started, hs, Option.getD_some]
  rw [hstarted]
  exact ⟨hs, ⟨hlists, by rw [List.append_nil]⟩, hrequests⟩

theorem holds_started : (started appId memory behind).Holds (List.range maxMsgList) [] :=
  (dlmsotcpInit_spec appId memory behind).2.1

theorem requests_started : (started appId memory behind).requests = [] :=
  (dlmsotcpInit_spec appId memory behind).2.2

end Started

/-! ## Conservation -/

/-- The buffers are split between the two lists, each in exactly one of them and once;
the counters are the lengths, and a tail is NULL exactly when its list is empty. -/
def State.Conserved (s : State) : Prop :=
  ∃ fs ps, s.Holds fs ps ∧ (s.xFreeMessagesList.pxTail = none ↔ fs = [])
    ∧ (s.xPendingCfmMessagesList.pxTail = none ↔ ps = [])

/-- A data message finds a free buffer. -/
def FindsBuffer (m : Message) (s : State) : Prop := m.IsData → s.xFreeMessagesList.pxHead ≠ none

/-- A data message that finds no free buffer leaves both lists as they were. -/
def LeavesLists (clock : ℕ → ℕ) (m : Message) (s : State) : Prop :=
  m.IsData → s.xFreeMessagesList.pxHead = none → ∃ s', handleMessage clock m s = some s'
    ∧ s'.xFreeMessagesList = s.xFreeMessagesList
    ∧ s'.xPendingCfmMessagesList = s.xPendingCfmMessagesList

/-- `C` holds of every message of a packet when it is its turn. -/
def EachMessage (clock : ℕ → ℕ) (C : Message → State → Prop) : Event → State → Prop
  | .packet fd buf, s =>
      AlongSteps (handleMessage clock) C (messages buf) { s with siDlmsoctpDataFd := fd }
  | .confirm .., _ => True

section Conservation

variable {clock : ℕ → ℕ} {s s' : State} {m : Message} {e : Event} {fs ps : List ℕ}

theorem EachMessage.mono {C D : Message → State → Prop} (hCD : ∀ m s, C m s → D m s)
    (h : EachMessage clock C e s) : EachMessage clock D e s := by
  cases e with
  | packet fd buf => exact AlongSteps.mono hCD h
  | confirm ucDstLsap ucSrcLsap usDstAddress ucTxStatus => trivial

theorem State.Holds.conserved (h : s.Holds fs ps) : s.Conserved :=
  ⟨fs, ps, h, h.free.queue.tail_eq_none_iff, h.pending.queue.tail_eq_none_iff⟩

/-- What a message that finds a buffer can do: a command changes nothing that can be seen of
the lists; a data message is accepted, and the first pending message may be given up. -/
theorem handleMessage_cases (clock : ℕ → ℕ) (h : s.Holds fs ps) (hbuffer : FindsBuffer m s) :
    ∃ s' fs' ps', handleMessage clock m s = some s' ∧ s'.Holds fs' ps'
      ∧ (¬ m.IsData ∧ ps' = ps ∧ s'.outbox ps' = s.outbox ps
        ∨ m.IsData ∧ ps' ≠ [] ∧ (s'.outbox ps' = (s.outbox ps).accept m.request
          ∨ s'.outbox ps' = ((s.outbox ps).accept m.request).remove)) := by
  by_cases hm : m.IsData
  · cases fs with
    | nil => exact absurd (h.free.pxHead_eq_none_iff.mpr rfl) (hbuffer hm)
    | cons f fs =>
        obtain ⟨s', fs', ps', hs', hholds, hne, hout⟩ := handleMessage_data clock hm h
        exact ⟨s', fs', ps', hs', hholds, .inr ⟨hm, hne, hout⟩⟩
  · obtain ⟨s', hs', hholds, hout⟩ := handleMessage_command clock hm h
    exact ⟨s', fs, ps, hs', hholds, .inl ⟨hm, rfl, hout⟩⟩

/-- A message that finds a buffer keeps them all. -/
theorem handleMessage_conserved (clock : ℕ → ℕ) (h : s.Conserved) (hbuffer : FindsBuffer m s) :
    ∃ s', handleMessage clock m s = some s' ∧ s'.Conserved := by
  obtain ⟨fs, ps, h, -, -⟩ := h
  obtain ⟨s', fs', ps', hs', hholds, -⟩ := handleMessage_cases clock h hbuffer
  exact ⟨s', hs', hholds.conserved⟩

/-- An event whose data messages find buffers keeps them all. -/
theorem step_conserved (h : s.Conserved) (hbuffers : EachMessage clock FindsBuffer e s) :
    ∃ s', step clock e s = some s' ∧ s'.Conserved := by
  cases e with
  | packet fd buf =>
      obtain ⟨outs, -, hstep⟩ := step_packet clock fd buf
      obtain ⟨fs, ps, h, -, -⟩ := h
      have h1 : State.Conserved { s with siDlmsoctpDataFd := fd } :=
        State.Holds.conserved ⟨h.toLists.congr rfl rfl rfl, h.perm⟩
      obtain ⟨t, ht, fs', ps', hholds, -, -⟩ :=
        runSteps_induction (I := fun _ s => s.Conserved)
          (fun _ _ _ hs hb => handleMessage_conserved clock hs hb) (messages buf) [] _ h1 hbuffers
      refine ⟨t.emit outs, ?_,
        State.Holds.conserved ⟨hholds.toLists.congr rfl rfl rfl, hholds.perm⟩⟩
      rw [hstep, ht]
      rfl
  | confirm ucDstLsap ucSrcLsap usDstAddress ucTxStatus =>
      obtain ⟨fs, ps, h, -, -⟩ := h
      cases ps with
      | nil => exact ⟨s, h.confirm_nil clock, h.conserved⟩
      | cons p ps =>
          obtain ⟨s', hs', hholds, -⟩ := h.confirm_cons clock
          exact ⟨s', hs', hholds.conserved⟩

/-- A message that is processed to its end has found its buffer. -/
theorem findsBuffer_of_handleMessage (h : s.Conserved) (hs : handleMessage clock m s = some s') :
    FindsBuffer m s := by
  intro hm hnone
  obtain ⟨fs, ps, h, -, -⟩ := h
  obtain rfl := h.free.pxHead_eq_none_iff.mp hnone
  rw [handleMessage_full clock hm h] at hs
  cases hs

/-- A packet that is processed to its end has found its buffers. -/
theorem findsBuffers_of_step (h : s.Conserved) (hs : step clock e s = some s') :
    EachMessage clock FindsBuffer e s := by
  cases e with
  | packet fd buf =>
      obtain ⟨outs, -, hstep⟩ := step_packet clock fd buf
      rw [hstep] at hs
      obtain ⟨t, ht, -⟩ := Option.map_eq_some_iff.mp hs
      obtain ⟨fs, ps, h, -, -⟩ := h
      have h1 : State.Conserved { s with siDlmsoctpDataFd := fd } :=
        State.Holds.conserved ⟨h.toLists.congr rfl rfl rfl, h.perm⟩
      refine alongSteps_of_run (I := State.Conserved) (fun m u u' hu hu' => ?_) h1 ht
      have hbuffer := findsBuffer_of_handleMessage hu hu'
      obtain ⟨v, hv, hv'⟩ := handleMessage_conserved clock hu hbuffer
      obtain rfl : v = u' := Option.some.inj (hv.symm.trans hu')
      exact ⟨hbuffer, hv'⟩
  | confirm ucDstLsap ucSrcLsap usDstAddress ucTxStatus => trivial

/-- A run that comes to its end has found its buffers. -/
theorem alongSteps_findsBuffer {evs : List Event} (h : s.Conserved)
    (hrun : runSteps (step clock) evs s = some s') :
    AlongSteps (step clock) (EachMessage clock FindsBuffer) evs s := by
  refine alongSteps_of_run (I := State.Conserved) (fun e t t' ht ht' => ?_) h hrun
  have hbuffers := findsBuffers_of_step ht ht'
  obtain ⟨u, hu, hu'⟩ := step_conserved ht hbuffers
  obtain rfl : u = t' := Option.some.inj (hu.symm.trans ht')
  exact ⟨hbuffers, hu'⟩

/-- **Conservation of the buffers.**  At every moment of a run the buffers are split
between the two lists, and a message without a free buffer leaves the lists alone,
exactly when every data message finds a free buffer; otherwise the run ends in a NULL
pointer. -/
theorem dlms_buffers_conserved_iff (appId : ℤ) (memory : ℕ → XDlmsMsg)
    (behind : ℕ → ConnectedNode) (clock : ℕ → ℕ) (evs : List Event) :
    ((∀ k, ∃ s', runSteps (step clock) (evs.take k) (started appId memory behind) = some s'
        ∧ s'.Conserved)
      ∧ AlongSteps (step clock) (EachMessage clock (LeavesLists clock)) evs
          (started appId memory behind))
      ↔ AlongSteps (step clock) (EachMessage clock FindsBuffer) evs
          (started appId memory behind) := by
  have hstart : (started appId memory behind).Conserved := (holds_started _ _ _).conserved
  constructor
  · -- the whole run comes to its end, so every message has found its buffer
    rintro ⟨h, -⟩
    obtain ⟨s', hrun, -⟩ := h evs.length
    rw [List.take_length] at hrun
    exact alongSteps_findsBuffer hstart hrun
  · intro h
    constructor
    · intro k
      obtain ⟨s', hrun, hs'⟩ := runSteps_induction (I := fun _ s => s.Conserved)
        (fun _ _ _ hs hb => step_conserved hs hb) (evs.take k) [] _ hstart (h.take k)
      exact ⟨s', hrun, hs'⟩
    · exact h.mono fun e s => EachMessage.mono fun m s hbuffer hm hnone => absurd hnone (hbuffer hm)

/-- Memory as `malloc` may return it, for the examples. -/
def zeroMemory : ℕ → XDlmsMsg := fun _ => ⟨0, 0, 0, 0, 0, Mem.init fun _ => 0, none⟩

/-- The memory behind the node table, for the examples. -/
def zeroNodes : ℕ → ConnectedNode :=
  fun _ => ⟨0, Vector.replicate _ 0, 0, Vector.replicate _ 0, 0⟩

/-- A data message from association 2 to node 3, without payload. -/
def emptyMessage : List UInt8 := [0, 1, 0, 2, 0, 3, 0, 0]

/-- Six data messages in one packet: the sixth finds no free buffer. -/
theorem dlms_burst_puts_null :
    ¬ ∀ (appId : ℤ) (memory : ℕ → XDlmsMsg) (behind : ℕ → ConnectedNode) (clock : ℕ → ℕ)
        (evs : List Event),
      (∀ k, ∃ s', runSteps (step clock) (evs.take k) (started appId memory behind) = some s'
          ∧ s'.Conserved)
        ∧ AlongSteps (step clock) (EachMessage clock (LeavesLists clock)) evs
            (started appId memory behind) := by
  intro hclaim
  obtain ⟨s', hrun, -⟩ := (hclaim 3 zeroMemory zeroNodes (fun _ => 0)
    [.packet 7 (List.replicate 6 emptyMessage).flatten]).1 1
  have hstuck : (runSteps (step fun _ => 0) [.packet 7 (List.replicate 6 emptyMessage).flatten]
      (started 3 zeroMemory zeroNodes)).isNone = true := by decide +kernel
  rw [List.take_succ_cons, List.take_zero] at hrun
  rw [hrun] at hstuck
  cases hstuck

end Conservation

end Dlmsotcp
