/-
# The client of DLMSoTCP

DLMSoTCP serves one client.  A second one is accepted and closed at once: it is in slot 1
of the table then, because the first one never leaves slot 0.  When the client goes away,
its 4-32 connections are closed.
-/
import PlcManager.SocketDescriptors

namespace SocketHandler

open SlotTable

/-! ## What holds of an event -/

/-- How often `dlmsotcp_close_432` has run. -/
def State.closed432 (s : State) : ℕ := s.trace.count .dlmsotcpClose432

/-- The last connection of DLMSoTCP is detached. -/
def LastDetached (s s' : State) : Prop :=
  used socketUnused (s.conns dlmsotcpAppId) ≠ []
    ∧ used socketUnused (s'.conns dlmsotcpAppId) = []

instance (s s' : State) : Decidable (LastDetached s s') := inferInstanceAs (Decidable (_ ∧ _))

/-- The policy at one event: at most one connection; a client that comes second is closed
and changes nothing; the 4-32 connections are closed exactly with the last connection. -/
structure SingleClient (r : Round) (evInfo : SocketEvInfo) (s s' : State) : Prop where
  one : (used socketUnused (s'.conns dlmsotcpAppId)).length ≤ 1
  kept : evInfo.iEventType = .link → ∀ fd, 0 < fd → fd ∈ s.conns dlmsotcpAppId →
    s'.conns dlmsotcpAppId = s.conns dlmsotcpAppId
  newcomer : evInfo.iEventType = .link → ∀ fd, 0 < fd → fd ∈ s.conns dlmsotcpAppId →
    0 < r.accepted → s'.trace = s.trace ++ [.close r.accepted]
  close432 : s'.closed432 = s.closed432 + if LastDetached s s' then 1 else 0

section Events

variable {s : State} {r : Round} {evInfo : SocketEvInfo} {fd x : ℤ} {appId : ℕ}

theorem OneConnection.used_length {slots : List ℤ} (h : OneConnection slots) :
    (used socketUnused slots).length ≤ 1 := by
  obtain ⟨x, rfl⟩ := h
  by_cases hx : x = socketUnused
  · rw [hx]
    decide
  · rw [used_cons_of_ne hx]
    exact le_of_eq rfl

/-- The only connection is the one that is in a slot. -/
theorem OneConnection.eq_of_mem {slots : List ℤ} (h : OneConnection slots) (hfd : 0 < fd)
    (hmem : fd ∈ slots) :
    slots = [fd, socketUnused, socketUnused, socketUnused, socketUnused] := by
  obtain ⟨x, rfl⟩ := h
  rcases List.mem_cons.mp hmem with rfl | hrest
  · rfl
  · have hunused : fd = socketUnused := by simpa using hrest
    exact absurd hunused (ne_unused_of_pos hfd)

theorem used_single (hx : x ≠ socketUnused) :
    used socketUnused [x, socketUnused, socketUnused, socketUnused, socketUnused] = [x] := by
  rw [used_cons_of_ne hx]
  rfl

theorem trace_accept (hfree : socketUnused ∈ s.conns evInfo.iAppId) :
    (socketAcceptConn fd evInfo s).trace = s.trace := by
  unfold socketAcceptConn socketAttachConnection
  rw [if_pos hfree]

theorem trace_dettach (hmem : fd ∈ s.conns appId) :
    (socketDettachConnection appId fd s).trace = s.trace ++ [.close fd] := by
  unfold socketDettachConnection
  rw [if_pos hmem]
  rfl

/-- Closing a connection is nothing else. -/
theorem closed432_dettach : (socketDettachConnection appId fd s).closed432 = s.closed432 := by
  by_cases hmem : fd ∈ s.conns appId
  · unfold State.closed432
    rw [trace_dettach hmem, List.count_append]
    rfl
  · unfold socketDettachConnection
    rw [if_neg hmem]

theorem not_lastDetached {t : State} (hconns : t.conns dlmsotcpAppId = s.conns dlmsotcpAppId) :
    ¬ LastDetached s t := by
  rintro ⟨hsome, hnone⟩
  rw [hconns] at hnone
  exact hsome hnone

/-- An event that changes no connection. -/
theorem singleClient_of_same {t : State} (h : s.Ok)
    (hconns : t.conns dlmsotcpAppId = s.conns dlmsotcpAppId) (hclosed : t.closed432 = s.closed432)
    (hnew : evInfo.iEventType = .link → ∀ fd, 0 < fd → fd ∈ s.conns dlmsotcpAppId →
      0 < r.accepted → t.trace = s.trace ++ [.close r.accepted]) :
    SingleClient r evInfo s t := by
  constructor
  · rw [hconns]
    exact (h.one _ (.inr rfl)).used_length
  · exact fun _ _ _ _ => hconns
  · exact hnew
  · rw [hclosed, if_neg (not_lastDetached hconns), Nat.add_zero]

/-- The first client gets slot 0. -/
theorem first_singleClient (happ : evInfo.iAppId = dlmsotcpAppId)
    (hnone : s.conns dlmsotcpAppId
      = [socketUnused, socketUnused, socketUnused, socketUnused, socketUnused]) :
    SingleClient r evInfo s (closeSecond dlmsotcpAppId (socketAcceptConn r.accepted evInfo s)) := by
  have hconns : (socketAcceptConn r.accepted evInfo s).conns dlmsotcpAppId
      = [r.accepted, socketUnused, socketUnused, socketUnused, socketUnused] := by
    rw [conns_accept, if_pos happ.symm, hnone, put_cons_free]
  have htrace : (socketAcceptConn r.accepted evInfo s).trace = s.trace := by
    apply trace_accept
    rw [happ, hnone]
    exact List.mem_cons_self
  have hnobody {y : ℤ} (hy : 0 < y) : y ∉ s.conns dlmsotcpAppId := by
    rw [hnone]
    intro hmem
    exact ne_unused_of_pos hy (by simpa using hmem)
  rw [closeSecond_of_one ⟨_, hconns⟩]
  constructor
  · rw [hconns]
    exact OneConnection.used_length ⟨_, rfl⟩
  · exact fun _ fd hfd hmem => absurd hmem (hnobody hfd)
  · exact fun _ fd hfd hmem => absurd hmem (hnobody hfd)
  · unfold State.closed432
    rw [htrace, if_neg, Nat.add_zero]
    rintro ⟨hsome, -⟩
    rw [hnone] at hsome
    exact hsome rfl

/-- A second client is put in slot 1, and closed from there. -/
theorem second_singleClient (h : s.Ok) (hpos : 0 < r.accepted)
    (hfresh : r.accepted ∉ s.conns dlmsotcpAppId) (happ : evInfo.iAppId = dlmsotcpAppId)
    (hx : 0 < x)
    (hsome : s.conns dlmsotcpAppId = [x, socketUnused, socketUnused, socketUnused, socketUnused]) :
    SingleClient r evInfo s (closeSecond dlmsotcpAppId (socketAcceptConn r.accepted evInfo s)) := by
  have hxne : x ≠ r.accepted := by
    rintro rfl
    rw [hsome] at hfresh
    exact hfresh List.mem_cons_self
  have hconns : (socketAcceptConn r.accepted evInfo s).conns dlmsotcpAppId
      = [x, r.accepted, socketUnused, socketUnused, socketUnused] := by
    rw [conns_accept, if_pos happ.symm, hsome, put_cons_of_ne (ne_unused_of_pos hx), put_cons_free]
  have htrace : (socketAcceptConn r.accepted evInfo s).trace = s.trace := by
    apply trace_accept
    rw [happ, hsome]
    exact List.mem_cons_of_mem _ List.mem_cons_self
  rw [closeSecond_of_two hconns hx hpos]
  apply singleClient_of_same h
  · rw [conns_dettach, if_pos rfl, hconns, take_cons_of_ne hxne, take_cons_self, hsome]
  · rw [closed432_dettach]
    unfold State.closed432
    rw [htrace]
  · intro _ fd _ _ _
    rw [trace_dettach, htrace]
    rw [hconns]
    exact List.mem_cons_of_mem _ List.mem_cons_self

/-- A client comes. -/
theorem link_singleClient (h : s.Ok) (haccept : AcceptsUnused r s)
    (happ : evInfo.iAppId = dlmsotcpAppId) :
    SingleClient r evInfo s (closeSecond dlmsotcpAppId (socketAcceptConn r.accepted evInfo s)) := by
  obtain ⟨x, hx⟩ := h.one dlmsotcpAppId (.inr rfl)
  have hfree : socketUnused ∈ s.conns evInfo.iAppId := by
    rw [happ, hx]
    exact List.mem_cons_of_mem _ List.mem_cons_self
  rcases haccept with hfailed | ⟨hpos, hfresh⟩
  · have hconns : (socketAcceptConn r.accepted evInfo s).conns dlmsotcpAppId
        = s.conns dlmsotcpAppId := by
      rw [conns_accept, if_pos happ.symm, hfailed]
      exact put_free
    rw [closeSecond_of_one ⟨x, hconns.trans hx⟩]
    apply singleClient_of_same h hconns
    · unfold State.closed432
      rw [trace_accept hfree]
    · intro _ fd _ _ hpos
      rw [hfailed] at hpos
      exact absurd hpos (by decide)
  · by_cases hunused : x = socketUnused
    · rw [hunused] at hx
      exact first_singleClient happ hx
    · have hmem : x ∈ s.conns dlmsotcpAppId := by
        rw [hx]
        exact List.mem_cons_self
      have hxpos := (h.consistent.positive dlmsotcpAppId (by decide) x hmem).resolve_left hunused
      exact second_singleClient h hpos (hfresh dlmsotcpAppId (by decide)).2 happ hxpos hx

/-- The client is looked at: if it has gone, none is left. -/
theorem closeData_singleClient (h : s.Ok) (hpos : 0 < fd) (hmem : fd ∈ s.conns dlmsotcpAppId)
    (hdata : evInfo.iEventType = .data) :
    SingleClient r evInfo s (closeData (socketCheckConnection r.available dlmsotcpAppId fd s)) := by
  have hlink {p : Prop} (heq : evInfo.iEventType = .link) : p := by
    rw [hdata] at heq
    cases heq
  have hfd := ne_unused_of_pos hpos
  have hone := (h.one dlmsotcpAppId (.inr rfl)).eq_of_mem hpos hmem
  unfold socketCheckConnection
  split_ifs with hgone
  · have hconns : (socketDettachConnection dlmsotcpAppId fd s).conns dlmsotcpAppId
        = [socketUnused, socketUnused, socketUnused, socketUnused, socketUnused] := by
      rw [conns_dettach, if_pos rfl, hone, take_cons_self]
    have hnone : socketGetConnectionsFds dlmsotcpAppId
        (socketDettachConnection dlmsotcpAppId fd s) = 0 := by
      rw [oneConnection_count hconns, if_neg (by decide)]
    unfold closeData
    rw [if_pos hnone]
    constructor
    · exact le_of_eq_of_le (congrArg (fun slots => (used socketUnused slots).length) hconns)
        (by decide)
    · exact fun heq => hlink heq
    · exact fun heq => hlink heq
    · rw [if_pos]
      · unfold State.closed432 State.emit
        dsimp only
        rw [List.count_append, ← State.closed432, closed432_dettach]
        rfl
      · constructor
        · rw [hone, used_single hfd]
          exact List.cons_ne_nil _ _
        · exact (congrArg (used socketUnused) hconns).trans rfl
  · have hsome : ¬ socketGetConnectionsFds dlmsotcpAppId s = 0 := by
      rw [oneConnection_count hone, if_pos hpos]
      exact one_ne_zero
    unfold closeData
    rw [if_neg hsome]
    exact singleClient_of_same h rfl rfl fun heq => hlink heq

theorem State.Ok.closeData (h : s.Ok) : (closeData s).Ok := by
  unfold SocketHandler.closeData
  split_ifs
  · exact h.congr rfl
  · exact h

end Events

/-! ## Runs -/

/-- One event given to `dlmsotcp_callback`. -/
def dlmsotcpStep (e : Round × SocketEvInfo) (s : State) : Option State :=
  some (dlmsotcpCallback e.1 e.2 s)

/-- An event of DLMSoTCP that `socket_select` can find; `accept` fails or returns a
descriptor that is not open. -/
def DlmsotcpEvent (e : Round × SocketEvInfo) (s : State) : Prop :=
  e.2.iAppId = dlmsotcpAppId ∧ IsEvent s e.2 ∧ (e.2.iEventType = .link → AcceptsUnused e.1 s)

/-- The policy holds at the event. -/
def SingleClientAfter (e : Round × SocketEvInfo) (s : State) : Prop :=
  SingleClient e.1 e.2 s (dlmsotcpCallback e.1 e.2 s)

instance (s : State) (evInfo : SocketEvInfo) : Decidable (IsEvent s evInfo) :=
  decidable_of_iff (evInfo.iAppId < socketMaxNum ∧ 0 ≤ evInfo.iSocketFd
      ∧ (evInfo.iEventType = .data → evInfo.iSocketFd ∈ s.conns evInfo.iAppId))
    ⟨fun h => ⟨h.1, h.2.1, h.2.2⟩, fun h => ⟨h.lt, h.nonneg, h.mem⟩⟩

instance (e : Round × SocketEvInfo) (s : State) : Decidable (DlmsotcpEvent e s) :=
  inferInstanceAs (Decidable (_ ∧ _))

section Runs

variable {s : State} {r : Round} {evInfo : SocketEvInfo}

/-- **One event.** -/
theorem dlmsotcpCallback_singleClient (h : s.Ok) (hevent : DlmsotcpEvent (r, evInfo) s) :
    SingleClient r evInfo s (dlmsotcpCallback r evInfo s) ∧ (dlmsotcpCallback r evInfo s).Ok := by
  obtain ⟨happ, hevent, haccept⟩ := hevent
  dsimp only at happ hevent haccept
  have husi : evInfo.iAppId ≠ usiAppId := by
    rw [happ]
    decide
  unfold dlmsotcpCallback
  rw [if_pos hevent.nonneg]
  cases htype : evInfo.iEventType with
  | link =>
      have hone := h.acceptOne (haccept htype) (.inr happ)
      rw [happ] at hone
      exact ⟨link_singleClient h (haccept htype) happ, hone.1⟩
  | data =>
      have hpos := hevent.pos h husi htype
      have hmem := hevent.mem htype
      rw [happ] at hmem
      have hlook : State.Ok { s with siDlmsoctpDataFd := evInfo.iSocketFd } := h.congr rfl
      dsimp only
      split_ifs with hread
      · refine ⟨singleClient_of_same h rfl ?_ fun heq => ?_, h.congr rfl⟩
        · unfold State.closed432 State.emit
          rw [List.count_append]
          rfl
        · rw [htype] at heq
          cases heq
      · rw [happ]
        have hclient := closeData_singleClient (r := r) hlook hpos hmem htype
        refine ⟨⟨hclient.one, hclient.kept, hclient.newcomer, hclient.close432⟩, ?_⟩
        apply State.Ok.closeData
        unfold socketCheckConnection
        split_ifs
        · exact hlook.dettach (ne_unused_of_pos hpos)
        · exact hlook

/-- **A single client.**  In every run of events of DLMSoTCP, whatever `accept` returns that
is not open, the policy holds at every event. -/
theorem dlmsotcp_single_client (listenSds : ℕ → ℤ) (usiFd : ℤ) (es : List (Round × SocketEvInfo))
    (hevents : AlongSteps dlmsotcpStep DlmsotcpEvent es (started listenSds usiFd)) :
    AlongSteps dlmsotcpStep SingleClientAfter es (started listenSds usiFd) := by
  apply alongSteps_of_invariant hevents ?_ (ok_started listenSds usiFd)
  rintro ⟨r, evInfo⟩ s h hevent
  obtain ⟨hclient, hok⟩ := dlmsotcpCallback_singleClient h hevent
  refine ⟨hclient, fun s' hs' => ?_⟩
  rwa [← Option.some.inj hs']

end Runs

/-! ## Two clients -/

/-- A client comes, another one is refused, `accept` fails, and the first one goes. -/
def secondRefused : List (Round × SocketEvInfo) :=
  [(⟨none, 9, [], 0⟩, ⟨dlmsotcpAppId, 6, .link⟩), (⟨none, 10, [], 0⟩, ⟨dlmsotcpAppId, 6, .link⟩),
    (⟨none, -1, [], 0⟩, ⟨dlmsotcpAppId, 6, .link⟩), (⟨none, -1, [], 0⟩, ⟨dlmsotcpAppId, 9, .data⟩)]

/-- The policy in this run. -/
theorem second_refused_single_client :
    AlongSteps dlmsotcpStep SingleClientAfter secondRefused (started listenSds 8) :=
  dlmsotcp_single_client listenSds 8 secondRefused (by decide +kernel)

/-- What is closed in this run. -/
example : (runSteps dlmsotcpStep secondRefused (started listenSds 8)).map
    (fun s => (s.trace, s.conns dlmsotcpAppId))
      = some ([.close 10, .close 9, .dlmsotcpClose432], [-1, -1, -1, -1, -1]) := by
  decide +kernel

end SocketHandler
