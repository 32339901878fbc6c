/-
# Which message a confirm removes

The base node confirms the requests it was sent in order, each at most once and perhaps
late.  `_dlmsotcp_cl_432_dl_data_cfm_cb` does not look at what is confirmed: it removes
the first pending message.  This is the message whose request is confirmed as long as
no confirm comes for a message that the timeout of 40 seconds has given up; the confirm
of a message given up removes the one after it, whose request is then still open.

A `Ledger` is kept beside a run.  It numbers messages and requests from 0 in the order
of arrival; by the order of transmission, request `k` belongs to message `k`.
-/
import PlcManager.DlmsotcpOrder

namespace Dlmsotcp

/-! ## The ledger -/

/-- The pending messages, read off the list. -/
def State.pendingRequests (s : State) : List DataRequest :=
  s.requestsOf (LinkedQueue.walk (links s.heap) s.xPendingCfmMessagesList.usCount.toNat
    s.xPendingCfmMessagesList.pxHead)

/-- What is known of the messages and requests of a run. -/
structure Ledger where
  /-- The messages that have been accepted. -/
  accepted : List DataRequest
  /-- The numbers of those that the timeout has dropped. -/
  givenUp : List ℕ
  /-- The numbers of the requests that have been confirmed. -/
  confirmed : List ℕ

/-- How many messages have left the pending list, which holds the last ones accepted. -/
def Ledger.left (L : Ledger) (s : State) : ℕ := L.accepted.length - s.pendingRequests.length

/-- An event, and for a confirm the number of the request that it confirms. -/
abbrev Numbered := Event × ℕ

/-- The ledger after an event has led from `s` to `s'`.  What leaves the pending list
while a packet is processed has been dropped by the timeout. -/
def Ledger.update (L : Ledger) (e : Numbered) (s s' : State) : Ledger :=
  match e.1 with
  | .packet fd buf =>
      let accepted := L.accepted ++ Event.requests (.packet fd buf)
      let left' := accepted.length - s'.pendingRequests.length
      ⟨accepted, L.givenUp ++ List.range' (L.left s) (left' - L.left s), L.confirmed⟩
  | .confirm .. => { L with confirmed := L.confirmed ++ [e.2] }

/-- A step of the module with its ledger. -/
def stepLedger (clock : ℕ → ℕ) (e : Numbered) (x : State × Ledger) : Option (State × Ledger) :=
  (step clock e.1 x.1).map fun s' => (s', x.2.update e x.1 s')

/-- The state and the ledger in which reception starts. -/
def startedLedger (appId : ℤ) (memory : ℕ → XDlmsMsg) (behind : ℕ → ConnectedNode) :
    State × Ledger :=
  (started appId memory behind, ⟨[], [], []⟩)

/-! ## Confirms -/

/-- The base node confirms a request that was made, and none that does not come after
those it has confirmed. -/
def Honest (e : Numbered) (x : State × Ledger) : Prop :=
  match e.1 with
  | .packet .. => True
  | .confirm .. => e.2 < x.1.requests.length ∧ ∀ j ∈ x.2.confirmed, j < e.2

/-- No confirm comes for a message that has been given up. -/
def OnTime (e : Numbered) (x : State × Ledger) : Prop :=
  match e.1 with
  | .packet .. => True
  | .confirm .. => e.2 ∉ x.2.givenUp

/-- A confirm removes the message whose request it confirms, or nothing if that message
has been given up. -/
def RemovesOwn (clock : ℕ → ℕ) (e : Numbered) (x : State × Ledger) : Prop :=
  match e.1 with
  | .packet .. => True
  | .confirm .. => ∀ s', step clock e.1 x.1 = some s' →
      if e.2 ∈ x.2.givenUp then s'.pendingRequests = x.1.pendingRequests
      else e.2 < x.2.accepted.length ∧ x.1.pendingRequests = x.2.accepted.drop e.2
        ∧ s'.pendingRequests = x.2.accepted.drop (e.2 + 1)

/-- Request `k` has been made, is not answered, and its message is not given up. -/
def Open (x : State × Ledger) (k : ℕ) : Prop :=
  k < x.1.requests.length ∧ k ∉ x.2.confirmed ∧ k ∉ x.2.givenUp

/-- At most one request is open. -/
def AtMostOneOpen (x : State × Ledger) : Prop := ∀ i j, Open x i → Open x j → i = j

/-- What the confirm callback is for: confirms remove what they confirm, and at most one
request is open at a time. -/
def Matched (clock : ℕ → ℕ) (e : Numbered) (x : State × Ledger) : Prop :=
  RemovesOwn clock e x ∧ ∀ x', stepLedger clock e x = some x' → AtMostOneOpen x'

/-! ## The invariant -/

/-- As long as confirms have come on time: the messages that have left the pending list
are those that were confirmed or given up, and when the list is empty none was given up
after the last confirm. -/
structure Settled (x : State × Ledger) : Prop where
  ordered : x.1.Ordered x.2.accepted
  settled : ∀ j, j < x.2.left x.1 ↔ j ∈ x.2.confirmed ∨ j ∈ x.2.givenUp
  behind : x.1.pendingRequests = [] → ∀ g ∈ x.2.givenUp, ∃ j ∈ x.2.confirmed, g < j

section Invariant

variable {clock : ℕ → ℕ} {s s' : State} {L : Ledger} {fs ps : List ℕ}
  {accepted : List DataRequest}

theorem State.Holds.pendingRequests_eq (h : s.Holds fs ps) :
    s.pendingRequests = s.requestsOf ps := by
  rw [State.pendingRequests, h.pending.count]
  exact congrArg s.requestsOf h.pending.queue.chain.walk_eq

theorem State.Holds.length_pendingRequests (h : s.Holds fs ps) :
    s.pendingRequests.length = ps.length := by
  rw [h.pendingRequests_eq, State.requestsOf, List.length_map]

/-- The pending messages are the last ones accepted. -/
theorem State.Ordered.pendingRequests_eq (h : s.Ordered accepted) :
    s.pendingRequests.length ≤ accepted.length
      ∧ s.pendingRequests = accepted.drop (accepted.length - s.pendingRequests.length)
      ∧ s.requests.length + s.pendingRequests.length
          = accepted.length + min s.pendingRequests.length 1 := by
  obtain ⟨fs, ps, h, horder⟩ := h
  have hpending := h.pendingRequests_eq
  have hlength := horder.length_requested
  obtain ⟨gone, hacc, -⟩ := horder
  simp only [State.outbox] at hacc hlength
  rw [← hpending] at hacc hlength
  refine ⟨by rw [hacc, List.length_append]; omega, ?_, hlength⟩
  rw [hacc, List.length_append, Nat.add_sub_cancel, List.drop_left]

/-- At most one request is open when the books are settled. -/
theorem Settled.atMostOneOpen {x : State × Ledger} (h : Settled x) : AtMostOneOpen x := by
  have hopen : ∀ k, Open x k → k = x.2.left x.1 := by
    rintro k ⟨hk, hconf, hgiven⟩
    have hnot : ¬ k < x.2.left x.1 := fun hlt =>
      ((h.settled k).mp hlt).elim hconf hgiven
    obtain ⟨hle, -, hlength⟩ := h.ordered.pendingRequests_eq
    unfold Ledger.left at hnot ⊢
    omega
  intro i j hi hj
  rw [hopen i hi, hopen j hj]

/-- What a message does to the pending list: it grows by one at most, and is not empty
behind a data message. -/
theorem handleMessage_pending (clock : ℕ → ℕ) {m : Message} (h : s.Holds fs ps)
    (hbuffer : FindsBuffer m s) :
    ∃ s' fs' ps', handleMessage clock m s = some s' ∧ s'.Holds fs' ps'
      ∧ ps'.length ≤ ps.length + m.requests.length
      ∧ (ps' = [] → ps = [] ∧ m.requests = []) := by
  obtain ⟨s', fs', ps', hs', hholds, ⟨hm, hps, -⟩ | ⟨hm, hne, hout⟩⟩ :=
    handleMessage_cases clock h hbuffer
  · rw [Message.requests, if_neg hm]
    exact ⟨s', fs', ps', hs', hholds, hps ▸ le_rfl, fun hnil => ⟨hps ▸ hnil, rfl⟩⟩
  · rw [Message.requests, if_pos hm]
    refine ⟨s', fs', ps', hs', hholds, ?_, fun hnil => absurd hnil hne⟩
    have hw : (s'.outbox ps').waiting.length = ps'.length := List.length_map _
    have hw' : (s.outbox ps).waiting.length = ps.length := List.length_map _
    rw [← hw, ← hw']
    rcases hout with hout | hout
    · simp [hout, Outbox.accept]
    · simp [hout, Outbox.accept, Outbox.remove]

/-- What a packet does to the pending list: it grows by its data messages at most, and
is not empty if there were any. -/
theorem step_packet_pending {fd : ℤ} {buf : List UInt8} (h : s.Holds fs ps)
    (hs : step clock (.packet fd buf) s = some s') :
    s'.pendingRequests.length
        ≤ s.pendingRequests.length + (Event.requests (.packet fd buf)).length
      ∧ (s'.pendingRequests = [] →
        s.pendingRequests = [] ∧ Event.requests (.packet fd buf) = []) := by
  have hbuffers := findsBuffers_of_step h.conserved hs
  obtain ⟨outs, -, hstep⟩ := step_packet clock fd buf
  have h1 : State.Holds { s with siDlmsoctpDataFd := fd } fs ps :=
    ⟨h.toLists.congr rfl rfl rfl, h.perm⟩
  obtain ⟨t, ht, fs', ps', ht', hle, hnil⟩ := runSteps_induction
    (I := fun past t => ∃ fs' ps', State.Holds t fs' ps'
      ∧ ps'.length ≤ ps.length + (past.flatMap Message.requests).length
      ∧ (ps' = [] → ps = [] ∧ past.flatMap Message.requests = []))
    (fun past m t ht hb => by
      obtain ⟨gs, qs, ht', hle, hnil⟩ := ht
      obtain ⟨u, gs', qs', hu, hu', hle', hnil'⟩ := handleMessage_pending clock ht' hb
      refine ⟨u, hu, gs', qs', hu', ?_, fun hqs' => ?_⟩
      · rw [List.flatMap_append, List.flatMap_singleton, List.length_append]
        omega
      · obtain ⟨hqs, hm⟩ := hnil' hqs'
        obtain ⟨hps, hpast⟩ := hnil hqs
        exact ⟨hps, by rw [List.flatMap_append, List.flatMap_singleton, hpast, hm]; rfl⟩)
    (messages buf) [] _ ⟨fs, ps, h1, by simp, fun hps => ⟨hps, rfl⟩⟩ hbuffers
  rw [hstep, ht, Option.map_some] at hs
  obtain rfl := Option.some.inj hs
  have hend : State.Holds (t.emit outs) fs' ps' := ⟨ht'.toLists.congr rfl rfl rfl, ht'.perm⟩
  rw [hend.length_pendingRequests, h.length_pendingRequests]
  refine ⟨hle, fun hempty => ?_⟩
  have hps' : ps' = [] := by
    rw [← List.length_eq_zero_iff, ← hend.length_pendingRequests, hempty]
    rfl
  obtain ⟨rfl, hnone⟩ := hnil hps'
  exact ⟨by rw [h.pendingRequests_eq]; rfl, hnone⟩

/-- A packet keeps the books settled. -/
theorem Settled.packet {fd : ℤ} {buf : List UInt8} {k : ℕ} (h : Settled (s, L))
    (hs : step clock (.packet fd buf) s = some s') :
    Settled (s', L.update (.packet fd buf, k) s s') := by
  obtain ⟨hordered, hsettled, hbehind⟩ := h
  dsimp only at hordered hsettled hbehind
  obtain ⟨fs, ps, hholds, -⟩ := id hordered
  obtain ⟨hgrow, hempty⟩ := step_packet_pending hholds hs
  obtain ⟨t, ht, hordered'⟩ := hordered.step clock (findsBuffers_of_step hholds.conserved hs)
  obtain rfl : t = s' := Option.some.inj (ht.symm.trans hs)
  have hle := hordered.pendingRequests_eq.1
  have hle' := hordered'.pendingRequests_eq.1
  rw [List.length_append] at hle'
  refine ⟨hordered', fun j => ?_, fun hnil g hg => ?_⟩
  · -- the numbers from the old to the new count of those that left are given up now
    have hj := hsettled j
    simp only [Ledger.left, Ledger.update, List.length_append, List.mem_append,
      List.mem_range'_1] at hj ⊢
    rw [← or_assoc, ← hj]
    omega
  · obtain ⟨hnil', hnone⟩ := hempty hnil
    -- a packet that leaves nothing pending brought nothing and dropped nothing
    have hleft : (L.accepted ++ Event.requests (.packet fd buf)).length - t.pendingRequests.length
        - L.left s = 0 := by
      rw [Ledger.left, hnone, List.append_nil, hnil, hnil']
      exact Nat.sub_self _
    simp only [Ledger.update, hleft, List.range'_zero, List.append_nil] at hg
    exact hbehind hnil' g hg

/-- A confirm that finds something pending removes the first message. -/
theorem step_confirm_pending {ucDstLsap ucSrcLsap ucTxStatus : UInt8} {usDstAddress : UInt16}
    (h : s.Holds fs ps) (hne : s.pendingRequests ≠ []) :
    ∃ s', step clock (.confirm ucDstLsap ucSrcLsap usDstAddress ucTxStatus) s = some s'
      ∧ s'.pendingRequests = s.pendingRequests.tail := by
  cases ps with
  | nil => exact absurd h.pendingRequests_eq hne
  | cons p ps =>
      obtain ⟨s', hs', hholds, hout⟩ := h.confirm_cons clock
      refine ⟨s', hs', ?_⟩
      rw [hholds.pendingRequests_eq, h.pendingRequests_eq]
      exact congrArg Outbox.waiting hout

/-- The confirm of a request that is not given up belongs to the first pending message. -/
theorem Settled.eq_left {k : ℕ} (h : Settled (s, L)) (hmade : k < s.requests.length)
    (hnew : ∀ j ∈ L.confirmed, j < k) (htime : k ∉ L.givenUp) :
    k = L.left s ∧ s.pendingRequests ≠ [] := by
  have hnot : ¬ k < L.left s := fun hlt =>
    ((h.settled k).mp hlt).elim (fun hmem => lt_irrefl k (hnew k hmem)) htime
  obtain ⟨hle, -, hlength⟩ := h.ordered.pendingRequests_eq
  dsimp only at hle hlength
  unfold Ledger.left at hnot ⊢
  refine ⟨by omega, fun hnil => ?_⟩
  rw [hnil, List.length_nil] at hlength hnot
  omega

/-- A confirm that comes on time removes its message and keeps the books settled. -/
theorem Settled.confirm {ucDstLsap ucSrcLsap ucTxStatus : UInt8} {usDstAddress : UInt16} {k : ℕ}
    (h : Settled (s, L))
    (hhonest : Honest (.confirm ucDstLsap ucSrcLsap usDstAddress ucTxStatus, k) (s, L))
    (htime : k ∉ L.givenUp)
    (hs : step clock (.confirm ucDstLsap ucSrcLsap usDstAddress ucTxStatus) s = some s') :
    k < L.accepted.length ∧ s.pendingRequests = L.accepted.drop k
      ∧ s'.pendingRequests = L.accepted.drop (k + 1)
      ∧ Settled (s', L.update (.confirm ucDstLsap ucSrcLsap usDstAddress ucTxStatus, k) s s') := by
  obtain ⟨hk, hne⟩ : k = L.left s ∧ _ := h.eq_left hhonest.1 hhonest.2 htime
  obtain ⟨hordered, hsettled, -⟩ := h
  dsimp only at hordered hsettled
  obtain ⟨fs, ps, hholds, -⟩ := id hordered
  obtain ⟨t, ht, htail⟩ := step_confirm_pending hholds hne
  obtain rfl : t = s' := Option.some.inj (ht.symm.trans hs)
  obtain ⟨u, hu, hordered'⟩ := hordered.step clock
    (e := .confirm ucDstLsap ucSrcLsap usDstAddress ucTxStatus) trivial
  obtain rfl : u = t := Option.some.inj (hu.symm.trans hs)
  rw [Event.requests, List.append_nil] at hordered'
  obtain ⟨hle, hdrop, -⟩ := hordered.pendingRequests_eq
  have hpos := List.length_pos_iff.mpr hne
  have hlength : u.pendingRequests.length = s.pendingRequests.length - 1 := by
    rw [htail, List.length_tail]
  have hleft : L.left s = k := hk.symm
  unfold Ledger.left at hleft
  rw [hleft] at hdrop
  refine ⟨by omega, hdrop, by rw [htail, hdrop, List.tail_drop], hordered', fun j => ?_,
    fun _ g hg => ⟨k, by simp [Ledger.update], ?_⟩⟩
  · have hj := hsettled j
    simp only [Ledger.left, Ledger.update, List.mem_append, List.mem_singleton] at hj ⊢
    rw [or_right_comm, ← hj]
    omega
  · have hlt : g < L.left s := (hsettled g).mpr (Or.inr hg)
    rwa [← hk] at hlt

/-- A confirm that comes late removes the message of another request. -/
theorem Settled.not_removesOwn {ucDstLsap ucSrcLsap ucTxStatus : UInt8} {usDstAddress : UInt16}
    {k : ℕ} (h : Settled (s, L))
    (hhonest : Honest (.confirm ucDstLsap ucSrcLsap usDstAddress ucTxStatus, k) (s, L))
    (hlate : k ∈ L.givenUp) :
    ¬ RemovesOwn clock (.confirm ucDstLsap ucSrcLsap usDstAddress ucTxStatus, k) (s, L) := by
  intro hown
  -- with nothing pending, a later request has been confirmed, and confirms come in order
  have hne : s.pendingRequests ≠ [] := by
    intro hnil
    obtain ⟨j, hj, hlt⟩ := h.behind hnil k hlate
    exact lt_asymm hlt (hhonest.2 j hj)
  obtain ⟨fs, ps, hholds, -⟩ := h.ordered
  obtain ⟨s', hs', htail⟩ := step_confirm_pending hholds hne
  have hsame := hown s' hs'
  rw [if_pos hlate, htail] at hsame
  have hlength := congrArg List.length hsame
  rw [List.length_tail] at hlength
  have hpos := List.length_pos_iff.mpr hne
  dsimp only at hlength
  omega

/-- **One step.**  Steps on time keep the invariant. -/
theorem Settled.stepLedger {e : Numbered} {x x' : State × Ledger} (h : Settled x)
    (hhonest : Honest e x) (htime : OnTime e x) (hx : Dlmsotcp.stepLedger clock e x = some x') :
    Settled x' := by
  obtain ⟨ev, k⟩ := e
  obtain ⟨s', hs', rfl⟩ := Option.map_eq_some_iff.mp hx
  cases ev with
  | packet fd buf => exact h.packet hs'
  | confirm ucDstLsap ucSrcLsap usDstAddress ucTxStatus =>
      obtain ⟨-, -, -, hsettled⟩ := h.confirm hhonest htime hs'
      exact hsettled

/-- **One step.**  Under the invariant a step of an honest base node does what it should
exactly when its confirm comes on time. -/
theorem matched_iff_onTime {e : Numbered} {x : State × Ledger} (h : Settled x)
    (hhonest : Honest e x) : Matched clock e x ↔ OnTime e x := by
  constructor
  · rintro ⟨hown, -⟩
    obtain ⟨ev, k⟩ := e
    cases ev with
    | packet fd buf => trivial
    | confirm ucDstLsap ucSrcLsap usDstAddress ucTxStatus =>
        exact fun hlate => h.not_removesOwn hhonest hlate hown
  · intro htime
    refine ⟨?_, fun x' hx' => (h.stepLedger hhonest htime hx').atMostOneOpen⟩
    obtain ⟨ev, k⟩ := e
    cases ev with
    | packet fd buf => trivial
    | confirm ucDstLsap ucSrcLsap usDstAddress ucTxStatus =>
        intro s' hs'
        obtain ⟨hlt, hbefore, hafter, -⟩ := h.confirm hhonest htime hs'
        rw [if_neg htime]
        exact ⟨hlt, hbefore, hafter⟩

theorem settled_started (appId : ℤ) (memory : ℕ → XDlmsMsg) (behind : ℕ → ConnectedNode) :
    Settled (startedLedger appId memory behind) :=
  ⟨ordered_started appId memory behind, fun j => by simp [startedLedger, Ledger.left],
    fun _ g hg => by simp [startedLedger] at hg⟩

/-- **Confirm matching.**  In every run with an honest base node, every confirm removes
the message whose request it confirms, and at most one request is open at a time,
exactly when no confirm comes for a message that the timeout has given up. -/
theorem dlms_confirms_matched_iff (appId : ℤ) (memory : ℕ → XDlmsMsg)
    (behind : ℕ → ConnectedNode) (clock : ℕ → ℕ) (es : List Numbered)
    (hhonest : AlongSteps (stepLedger clock) Honest es (startedLedger appId memory behind)) :
    AlongSteps (stepLedger clock) (Matched clock) es (startedLedger appId memory behind)
      ↔ AlongSteps (stepLedger clock) OnTime es (startedLedger appId memory behind) := by
  refine alongSteps_congr_of hhonest (fun e x hx hh => matched_iff_onTime hx hh) ?_
    (settled_started appId memory behind)
  intro e x x' hx hh hmatched hx'
  exact hx.stepLedger hh ((matched_iff_onTime hx hh).mp hmatched) hx'

end Invariant

/-- Two messages, and the confirm of the first: it is on time. -/
theorem dlms_confirms_matched_two :
    AlongSteps (stepLedger fun _ => 0) (Matched fun _ => 0)
      [(.packet 7 (emptyMessage ++ emptyMessage), 0), (.confirm 1 2 3 0, 0)]
      (startedLedger 3 zeroMemory zeroNodes) := by
  have hfirst : ((stepLedger (fun _ => 0) (.packet 7 (emptyMessage ++ emptyMessage), 0)
      (startedLedger 3 zeroMemory zeroNodes)).map fun x =>
        (x.1.requests.length, x.2.confirmed, x.2.givenUp)) = some (1, [], []) := by decide +kernel
  refine (dlms_confirms_matched_iff 3 zeroMemory zeroNodes (fun _ => 0) _ ?_).mpr ?_
  · refine ⟨trivial, fun x hx => ⟨?_, fun _ _ => trivial⟩⟩
    rw [hx, Option.map_some, Option.some.injEq, Prod.mk.injEq, Prod.mk.injEq] at hfirst
    obtain ⟨hrequests, hconfirmed, -⟩ := hfirst
    exact ⟨by rw [hrequests]; exact Nat.one_pos, by simp [hconfirmed]⟩
  · refine ⟨trivial, fun x hx => ⟨?_, fun _ _ => trivial⟩⟩
    rw [hx, Option.map_some, Option.some.injEq, Prod.mk.injEq, Prod.mk.injEq] at hfirst
    obtain ⟨-, -, hgiven⟩ := hfirst
    show 0 ∉ x.2.givenUp
    simp [hgiven]

/-- A clock that jumps from 0 to 41 at the fourth reading. -/
def jumpingClock (i : ℕ) : ℕ := if i < 3 then 0 else 41

theorem monotone_jumpingClock : Monotone jumpingClock := by
  intro i j hij
  unfold jumpingClock
  split_ifs <;> omega

/-- Two messages; a third one 41 seconds later, which makes the timeout drop the first;
and now the confirm of the first.  It removes the second message, whose request has just
been made. -/
theorem dlms_confirm_late :
    ¬ ∀ (appId : ℤ) (memory : ℕ → XDlmsMsg) (behind : ℕ → ConnectedNode) (clock : ℕ → ℕ)
        (es : List Numbered), Monotone clock →
      AlongSteps (stepLedger clock) Honest es (startedLedger appId memory behind) →
        AlongSteps (stepLedger clock) (Matched clock) es (startedLedger appId memory behind) := by
  intro hclaim
  have htwo : ((runSteps (stepLedger jumpingClock)
      [(.packet 7 (emptyMessage ++ emptyMessage), 0), (.packet 7 emptyMessage, 0)]
      (startedLedger 3 zeroMemory zeroNodes)).bind fun x =>
        (step jumpingClock (.confirm 1 2 3 0) x.1).map fun s' =>
          (x.1.requests.length, x.2.confirmed, x.2.givenUp, x.1.pendingRequests.length,
            s'.pendingRequests.length)) = some (2, [], [0], 2, 1) := by decide +kernel
  obtain ⟨x, hx, hrest⟩ := Option.bind_eq_some_iff.mp htwo
  obtain ⟨s', hs', hfields⟩ := Option.map_eq_some_iff.mp hrest
  simp only [Prod.mk.injEq] at hfields
  obtain ⟨hrequests, hconfirmed, hgiven, hbefore, hafter⟩ := hfields
  have hhonest : AlongSteps (stepLedger jumpingClock) Honest
      ([(.packet 7 (emptyMessage ++ emptyMessage), 0), (.packet 7 emptyMessage, 0)]
        ++ [(.confirm 1 2 3 0, 0)]) (startedLedger 3 zeroMemory zeroNodes) := by
    refine alongSteps_append.mpr ⟨⟨trivial, fun _ _ => ⟨trivial, fun _ _ => trivial⟩⟩, ?_⟩
    intro y hy
    obtain rfl : x = y := Option.some.inj (hx.symm.trans hy)
    exact ⟨⟨by rw [hrequests]; exact Nat.two_pos, by simp [hconfirmed]⟩, fun _ _ => trivial⟩
  have hmatched := (alongSteps_append.mp
    (hclaim 3 zeroMemory zeroNodes jumpingClock _ monotone_jumpingClock hhonest)).2 x hx
  have hsame := hmatched.1.1 s' hs'
  rw [if_pos (by simp [hgiven])] at hsame
  rw [hsame] at hafter
  omega

end Dlmsotcp
