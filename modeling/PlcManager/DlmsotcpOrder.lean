/-
# The order of the requests

Three paths of `dlmsotcp.c` make requests: a message that finds nothing pending is
requested at once, a confirm requests the next message, and so does the timeout.  In
every run that does not run out of buffers the requests are the first data messages
that arrived, in the order of their arrival and each once; what is pending has its
first message requested and no other.
-/
import PlcManager.DlmsotcpConservation

namespace Dlmsotcp

/-! ## What has arrived -/

/-- The request that a message asks for. -/
def Message.requests (m : Message) : List DataRequest := if m.IsData then [m.request] else []

/-- The requests that the messages of an event ask for. -/
def Event.requests : Event → List DataRequest
  | .packet _ buf => (messages buf).flatMap Message.requests
  | .confirm .. => []

/-- The requests that the messages of a run ask for, in the order of arrival. -/
def arrived (evs : List Event) : List DataRequest := evs.flatMap Event.requests

theorem arrived_append (evs evs' : List Event) :
    arrived (evs ++ evs') = arrived evs ++ arrived evs' := List.flatMap_append

theorem arrived_singleton (e : Event) : arrived [e] = e.requests := List.append_nil _

/-! ## The law of the sender -/

/-- The messages `accepted` have been accepted: those that have left the pending list
and the first one in it, and no others, have been requested. -/
def State.Ordered (s : State) (accepted : List DataRequest) : Prop :=
  ∃ fs ps, s.Holds fs ps ∧ (s.outbox ps).InOrder accepted

section Order

variable (clock : ℕ → ℕ) {s s' : State} {m : Message} {e : Event} {accepted : List DataRequest}

/-- Every message keeps the law. -/
theorem State.Ordered.handleMessage (h : s.Ordered accepted) (hbuffer : FindsBuffer m s) :
    ∃ s', Dlmsotcp.handleMessage clock m s = some s' ∧ s'.Ordered (accepted ++ m.requests) := by
  obtain ⟨fs, ps, h, horder⟩ := h
  obtain ⟨s', fs', ps', hs', hholds, hcases⟩ := handleMessage_cases clock h hbuffer
  refine ⟨s', hs', fs', ps', hholds, ?_⟩
  rcases hcases with ⟨hm, -, hout⟩ | ⟨hm, -, hout | hout⟩
  · rwa [Message.requests, if_neg hm, List.append_nil, hout]
  · rw [Message.requests, if_pos hm, hout]
    exact horder.accept m.request
  · rw [Message.requests, if_pos hm, hout]
    exact (horder.accept m.request).remove (by simp [Outbox.accept])

/-- Every event keeps the law. -/
theorem State.Ordered.step (h : s.Ordered accepted) (hbuffers : EachMessage clock FindsBuffer e s) :
    ∃ s', Dlmsotcp.step clock e s = some s' ∧ s'.Ordered (accepted ++ e.requests) := by
  obtain ⟨fs, ps, h, horder⟩ := h
  cases e with
  | packet fd buf =>
      obtain ⟨outs, houts, hstep⟩ := step_packet clock fd buf
      have h1 : State.Ordered { s with siDlmsoctpDataFd := fd } accepted :=
        ⟨fs, ps, ⟨h.toLists.congr rfl rfl rfl, h.perm⟩, horder⟩
      obtain ⟨t, ht, fs', ps', hholds, horder'⟩ :=
        runSteps_induction
          (I := fun past s => s.Ordered (accepted ++ past.flatMap Message.requests))
          (fun past m s hs hb => by
            obtain ⟨s', hs', hs''⟩ := hs.handleMessage clock hb
            refine ⟨s', hs', ?_⟩
            rwa [List.flatMap_append, ← List.append_assoc, List.flatMap_singleton])
          (messages buf) [] _ (by rwa [List.flatMap_nil, List.append_nil]) hbuffers
      have hrequests : (t.emit outs).requests = t.requests := by
        rw [State.requests_emit]
        rcases houts with rfl | rfl
        · exact List.append_nil _
        · exact List.append_nil _
      refine ⟨t.emit outs, ?_, fs', ps', ⟨hholds.toLists.congr rfl rfl rfl, hholds.perm⟩, ?_⟩
      · rw [hstep, ht]
        rfl
      · rw [State.outbox, hrequests]
        exact horder'
  | confirm ucDstLsap ucSrcLsap usDstAddress ucTxStatus =>
      rw [Event.requests, List.append_nil]
      cases ps with
      | nil => exact ⟨s, h.confirm_nil clock, fs, [], h, horder⟩
      | cons p ps =>
          obtain ⟨s', hs', hholds, hout⟩ := h.confirm_cons clock
          refine ⟨s', hs', fs ++ [p], ps, hholds, ?_⟩
          rw [hout]
          exact horder.remove (by simp [State.outbox, State.requestsOf])

theorem ordered_started (appId : ℤ) (memory : ℕ → XDlmsMsg) (behind : ℕ → ConnectedNode) :
    (started appId memory behind).Ordered [] := by
  refine ⟨_, _, holds_started appId memory behind, ?_⟩
  rw [State.outbox, requests_started]
  exact Outbox.inOrder_empty

/-- **Transmission order.**  In a run in which every data message finds a free buffer the
requests are, at every moment, the first of the data messages that have arrived; the
messages that have left the pending list and the first one in it have been requested,
and no others. -/
theorem dlms_transmission_order (appId : ℤ) (memory : ℕ → XDlmsMsg)
    (behind : ℕ → ConnectedNode) (clock : ℕ → ℕ) (evs : List Event)
    (hbuffers : AlongSteps (Dlmsotcp.step clock) (EachMessage clock FindsBuffer) evs
      (started appId memory behind)) (k : ℕ) :
    ∃ s', runSteps (Dlmsotcp.step clock) (evs.take k) (started appId memory behind) = some s'
      ∧ s'.requests <+: arrived (evs.take k) ∧ s'.Ordered (arrived (evs.take k)) := by
  obtain ⟨s', hrun, hordered⟩ := runSteps_induction (I := fun past s => s.Ordered (arrived past))
    (fun past e s hs hb => by
      obtain ⟨s', hs', hs''⟩ := hs.step clock hb
      exact ⟨s', hs', by rwa [arrived_append, arrived_singleton]⟩)
    (evs.take k) [] _ (ordered_started appId memory behind) (hbuffers.take k)
  rw [List.nil_append] at hordered
  obtain ⟨fs, ps, hholds, horder⟩ := hordered
  exact ⟨s', hrun, horder.requested_isPrefix, fs, ps, hholds, horder⟩

end Order

/-- Two messages in one packet, and a confirm. -/
theorem dlms_transmission_order_two :
    ∃ s', runSteps (step fun _ => 0) [.packet 7 (emptyMessage ++ emptyMessage), .confirm 1 2 3 0]
        (started 3 zeroMemory zeroNodes) = some s'
      ∧ s'.requests <+: arrived [.packet 7 (emptyMessage ++ emptyMessage), .confirm 1 2 3 0]
      ∧ s'.Ordered (arrived [.packet 7 (emptyMessage ++ emptyMessage), .confirm 1 2 3 0]) := by
  have hsome : (runSteps (step fun _ => 0)
      [.packet 7 (emptyMessage ++ emptyMessage), .confirm 1 2 3 0]
      (started 3 zeroMemory zeroNodes)).isSome = true := by decide +kernel
  obtain ⟨t, ht⟩ := Option.isSome_iff_exists.mp hsome
  exact dlms_transmission_order 3 zeroMemory zeroNodes (fun _ => 0) _
    (alongSteps_findsBuffer (holds_started _ _ _).conserved ht) 2

end Dlmsotcp
