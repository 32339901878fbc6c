/-
# Descriptors that are remembered

Three descriptors are remembered in order to write to them later: the USI loopback, the
data socket of DLMSoTCP and that of the CLI.  Closing a connection frees its number, which
may become a connection of another application.  DLMSoTCP forgets its descriptor when the
connection is closed; the CLI and the PRIME manager do not.
-/
import PlcManager.SocketHandler
import PlcManager.Runs

namespace SocketHandler

open SlotTable

/-! ## Connections of one application and no other -/

/-- The connections are descriptors, and no two are the same. -/
structure State.Consistent (s : State) : Prop where
  positive : ∀ i, i ≠ usiAppId → ∀ fd ∈ s.conns i, fd = socketUnused ∨ 0 < fd
  distinct : ∀ i, (used socketUnused (s.conns i)).Nodup
  apart : ∀ i < socketMaxNum, ∀ j < socketMaxNum, ∀ fd, 0 < fd → fd ∈ s.conns i →
    fd ∈ s.conns j → i = j

/-- At most the first slot is used. -/
def OneConnection (slots : List ℤ) : Prop :=
  ∃ x, slots = [x, socketUnused, socketUnused, socketUnused, socketUnused]

/-- The applications with one connection at most. -/
def KeepsOne (i : ℕ) : Prop := i = primemngAppId ∨ i = dlmsotcpAppId

/-- What holds between two rounds. -/
structure State.Ok (s : State) : Prop where
  consistent : s.Consistent
  one : ∀ i, KeepsOne i → OneConnection (s.conns i)

/-- A connection of the application and of no other. -/
def State.Belongs (s : State) (appId : ℕ) (fd : ℤ) : Prop :=
  fd ∈ s.conns appId ∧ ∀ i < socketMaxNum, fd ∈ s.conns i → i = appId

instance (s : State) (appId : ℕ) (fd : ℤ) : Decidable (s.Belongs appId fd) :=
  inferInstanceAs (Decidable (_ ∧ _))

/-- The descriptors that are remembered, and for which application. -/
def State.remembered (s : State) : List (ℕ × ℤ) :=
  [(primemngAppId, s.fdSocketLoopback), (dlmsotcpAppId, s.siDlmsoctpDataFd),
    (cliAppId, s.siCliDataFd)]

/-- Every descriptor that is remembered is not positive, or a connection of its
application. -/
def State.NoStale (s : State) : Prop := ∀ p ∈ s.remembered, 0 < p.2 → s.Belongs p.1 p.2

instance (s : State) : Decidable s.NoStale := inferInstanceAs (Decidable (∀ p ∈ s.remembered, _))

/-- `accept` fails or returns a descriptor that is not open. -/
def AcceptsUnused (r : Round) (s : State) : Prop :=
  r.accepted = -1 ∨ 0 < r.accepted ∧ ∀ i < socketMaxNum,
    (s.sxSockets i).iSocketFd ≠ r.accepted ∧ r.accepted ∉ s.conns i

instance (r : Round) (s : State) : Decidable (AcceptsUnused r s) :=
  inferInstanceAs (Decidable (_ ∨ _))

/-! ## What the functions do to the connections -/

section Functions

variable {s t : State} {r : Round} {evInfo : SocketEvInfo} {i appId : ℕ} {fd y : ℤ} {a : ℕ}
  {outs : List Output}

/-- The same connections and the same remembered descriptors. -/
structure State.SameFds (s t : State) : Prop where
  conns : t.conns = s.conns
  remembered : t.remembered = s.remembered

theorem State.SameFds.refl (s : State) : s.SameFds s := ⟨rfl, rfl⟩

theorem State.SameFds.emit (h : s.SameFds t) : s.SameFds (t.emit outs) := ⟨h.conns, h.remembered⟩

theorem ne_unused_of_pos (h : 0 < fd) : fd ≠ socketUnused := by
  rintro rfl
  exact absurd h (by decide)

/-- Connections and servers of other applications are not touched. -/
theorem conns_accept : (socketAcceptConn fd evInfo s).conns i
    = if i = evInfo.iAppId then put socketUnused fd (s.conns i) else s.conns i := by
  unfold socketAcceptConn socketAttachConnection
  by_cases hfree : socketUnused ∈ s.conns evInfo.iAppId
  · rw [if_pos hfree]
    unfold State.conns
    dsimp only
    by_cases hi : i = evInfo.iAppId
    · subst hi
      rw [Function.update_self, if_pos rfl]
      rfl
    · rw [Function.update_of_ne hi, if_neg hi]
  · rw [if_neg hfree]
    split_ifs with hi
    · subst hi
      rw [put_of_full hfree]
      rfl
    · rfl

theorem remembered_accept : (socketAcceptConn fd evInfo s).remembered = s.remembered := by
  unfold socketAcceptConn socketAttachConnection
  split_ifs <;> rfl

theorem conns_dettach : (socketDettachConnection appId fd s).conns i
    = if i = appId then take socketUnused fd (s.conns i) else s.conns i := by
  unfold socketDettachConnection
  by_cases hmem : fd ∈ s.conns appId
  · rw [if_pos hmem]
    unfold State.conns
    dsimp only
    by_cases hi : i = appId
    · subst hi
      rw [Function.update_self, if_pos rfl]
      rfl
    · rw [Function.update_of_ne hi, if_neg hi]
  · rw [if_neg hmem]
    split_ifs with hi
    · subst hi
      rw [take_of_not_mem hmem]
    · rfl

theorem remembered_dettach : (socketDettachConnection appId fd s).remembered = s.remembered := by
  unfold socketDettachConnection
  split_ifs <;> rfl

theorem fds_dettach :
    (socketDettachConnection appId fd s).fdSocketLoopback = s.fdSocketLoopback
      ∧ (socketDettachConnection appId fd s).siCliDataFd = s.siCliDataFd := by
  unfold socketDettachConnection
  by_cases hmem : fd ∈ s.conns appId
  · rw [if_pos hmem]
    exact ⟨rfl, rfl⟩
  · rw [if_neg hmem]
    exact ⟨rfl, rfl⟩

/-- The loop over the slots counts the connections. -/
theorem oneConnection_count {x : ℤ} (h : s.conns appId
    = [x, socketUnused, socketUnused, socketUnused, socketUnused]) :
    socketGetConnectionsFds appId s = if 0 < x then 1 else 0 := by
  unfold socketGetConnectionsFds
  rw [h]
  have hunused : ¬ 0 < socketUnused := by decide
  split_ifs with hx
  · simp [hx, hunused]
  · simp [hx, hunused]

/-- What `socket_select` finds is a connection of the application that it names. -/
theorem socketSelect_spec {ready : Option (List ℤ)}
    (h : socketSelect ready s = .success evInfo) : evInfo.iAppId < socketMaxNum
      ∧ 0 ≤ evInfo.iSocketFd
      ∧ (evInfo.iEventType = .data → evInfo.iSocketFd ∈ s.conns evInfo.iAppId) := by
  unfold socketSelect at h
  split at h
  · cases h
  · cases h
  · split at h
    · cases h
    · rename_i _ ready _ fd hfirst
      split at h
      · rename_i found hfound
        obtain rfl : found = evInfo := by
          injection h
        obtain ⟨i, hi, hevent⟩ := List.exists_of_findSome?_eq_some hfound
        have hlt : i < socketMaxNum := List.mem_range.mp hi
        have hnonneg : 0 ≤ fd := by
          unfold firstReady at hfirst
          obtain ⟨k, -, rfl⟩ := List.mem_map.mp (List.mem_of_find?_eq_some hfirst)
          exact Int.natCast_nonneg k
        unfold eventOf at hevent
        split_ifs at hevent with hlink hdata
        · obtain rfl := Option.some.inj hevent
          exact ⟨hlt, hnonneg, fun hno => by cases hno⟩
        · obtain rfl := Option.some.inj hevent
          exact ⟨hlt, hnonneg, fun _ => hdata⟩
      · cases h

theorem mem_conns_accept (hfd : 0 < fd) (hy : 0 < y) :
    y ∈ (socketAcceptConn fd evInfo s).conns i
      ↔ y ∈ s.conns i ∨ i = evInfo.iAppId ∧ y = fd ∧ socketUnused ∈ s.conns i := by
  rw [conns_accept]
  split_ifs with hi
  · rw [mem_put (ne_unused_of_pos hfd) (ne_unused_of_pos hy), and_iff_right hi]
  · exact (or_iff_left fun h => hi h.1).symm

theorem State.Consistent.mem_dettach (h : s.Consistent) (hfd : fd ≠ socketUnused) (hy : 0 < y) :
    y ∈ (socketDettachConnection appId fd s).conns i
      ↔ y ∈ s.conns i ∧ (i = appId → y ≠ fd) := by
  rw [conns_dettach]
  split_ifs with hi
  · rw [SlotTable.mem_take (h.distinct i) hfd (ne_unused_of_pos hy)]
    exact and_congr_right fun _ => ⟨fun hne _ => hne, fun hne => hne hi⟩
  · exact (and_iff_left fun h => absurd h hi).symm

/-- Connections that are the same. -/
theorem State.Consistent.congr (h : s.Consistent) (hconns : t.conns = s.conns) :
    t.Consistent := by
  constructor
  · rw [hconns]
    exact h.positive
  · rw [hconns]
    exact h.distinct
  · rw [hconns]
    exact h.apart

theorem State.Consistent.accept (h : s.Consistent) (haccept : AcceptsUnused r s)
    (hlt : evInfo.iAppId < socketMaxNum) :
    (socketAcceptConn r.accepted evInfo s).Consistent := by
  rcases haccept with hfailed | ⟨hpos, hfresh⟩
  · apply h.congr
    funext i
    rw [conns_accept, hfailed]
    split_ifs
    · exact put_free
    · rfl
  constructor
  · intro i hi fd hfd
    by_cases hunused : fd = socketUnused
    · exact .inl hunused
    rw [conns_accept] at hfd
    split_ifs at hfd with happ
    · rcases (mem_put (ne_unused_of_pos hpos) hunused).mp hfd with hold | ⟨rfl, -⟩
      · exact h.positive i hi fd hold
      · exact .inr hpos
    · exact h.positive i hi fd hfd
  · intro i
    rw [conns_accept]
    split_ifs with happ
    · exact nodup_put (h.distinct i) (hfresh i (happ ▸ hlt)).2
    · exact h.distinct i
  · intro i hi j hj fd hfd hfdi hfdj
    rw [mem_conns_accept hpos hfd] at hfdi hfdj
    rcases hfdi with holdi | ⟨rfl, rfl, -⟩
    · rcases hfdj with holdj | ⟨-, rfl, -⟩
      · exact h.apart i hi j hj fd hfd holdi holdj
      · exact absurd holdi (hfresh i hi).2
    · rcases hfdj with holdj | ⟨rfl, -, -⟩
      · exact absurd holdj (hfresh j hj).2
      · rfl

theorem State.Consistent.dettach (h : s.Consistent) (hfd : fd ≠ socketUnused) :
    (socketDettachConnection appId fd s).Consistent := by
  constructor
  · intro i hi y hy
    by_cases hunused : y = socketUnused
    · exact .inl hunused
    rw [conns_dettach] at hy
    split_ifs at hy
    · exact h.positive i hi y ((SlotTable.mem_take (h.distinct i) hfd hunused).mp hy).1
    · exact h.positive i hi y hy
  · intro i
    rw [conns_dettach]
    split_ifs
    · exact nodup_take (h.distinct i) hfd
    · exact h.distinct i
  · intro i hi j hj y hy hyi hyj
    rw [h.mem_dettach hfd hy] at hyi hyj
    exact h.apart i hi j hj y hy hyi.1 hyj.1

end Functions

/-! ## What is remembered -/

section Remembered

variable {s t : State} {r : Round} {evInfo : SocketEvInfo} {appId : ℕ} {fd : ℤ}

/-- Connections are added at most, and the same descriptors are remembered. -/
structure State.Grows (s t : State) : Prop where
  remembered : t.remembered = s.remembered
  conns : ∀ i fd, 0 < fd → fd ∈ s.conns i → fd ∈ t.conns i

theorem State.SameFds.grows (h : s.SameFds t) : s.Grows t where
  remembered := h.remembered
  conns := fun i fd _ hmem => by rwa [h.conns]

theorem State.Consistent.belongs_iff (h : s.Consistent) (happ : appId < socketMaxNum)
    (hfd : 0 < fd) : s.Belongs appId fd ↔ fd ∈ s.conns appId := by
  apply and_iff_left_of_imp
  intro hmem i hi hmem'
  exact h.apart i hi appId happ fd hfd hmem' hmem

theorem lt_of_remembered {p : ℕ × ℤ} (hp : p ∈ s.remembered) : p.1 < socketMaxNum := by
  unfold State.remembered at hp
  rcases List.mem_cons.mp hp with rfl | hp
  · exact (by decide : primemngAppId < socketMaxNum)
  rcases List.mem_cons.mp hp with rfl | hp
  · exact (by decide : dlmsotcpAppId < socketMaxNum)
  · obtain rfl := List.mem_singleton.mp hp
    exact (by decide : cliAppId < socketMaxNum)

theorem State.Consistent.noStale_iff (h : s.Consistent) :
    s.NoStale ↔ ∀ p ∈ s.remembered, 0 < p.2 → p.2 ∈ s.conns p.1 := by
  refine forall₂_congr fun p hp => forall_congr' fun hpos => ?_
  exact h.belongs_iff (lt_of_remembered hp) hpos

theorem State.NoStale.grows (h : s.NoStale) (hgrows : s.Grows t) (ht : t.Consistent) :
    t.NoStale := by
  rw [ht.noStale_iff, hgrows.remembered]
  intro p hp hpos
  exact hgrows.conns p.1 p.2 hpos (h p hp hpos).1

/-- After a connection is closed, what is remembered must not be it. -/
theorem State.Consistent.noStale_dettach (h : s.Consistent) (hfd : 0 < fd) :
    (socketDettachConnection appId fd s).NoStale
      ↔ ∀ p ∈ s.remembered, 0 < p.2 → p.2 ∈ s.conns p.1 ∧ (p.1 = appId → p.2 ≠ fd) := by
  rw [(h.dettach (ne_unused_of_pos hfd)).noStale_iff, remembered_dettach]
  refine forall₂_congr fun p _ => forall_congr' fun hpos => ?_
  exact h.mem_dettach (ne_unused_of_pos hfd) hpos

/-! ### Servers -/

theorem OneConnection.take {slots : List ℤ} (h : OneConnection slots) :
    OneConnection (take socketUnused fd slots) := by
  obtain ⟨x, rfl⟩ := h
  by_cases hx : x = fd
  · subst hx
    exact ⟨socketUnused, take_cons_self⟩
  · refine ⟨x, ?_⟩
    rw [take_cons_of_ne hx]
    by_cases hunused : fd = socketUnused
    · subst hunused
      rfl
    · rw [take_of_not_mem]
      simpa using hunused

theorem State.Ok.dettach (h : s.Ok) (hfd : fd ≠ socketUnused) :
    (socketDettachConnection appId fd s).Ok := by
  refine ⟨h.consistent.dettach hfd, fun i hi => ?_⟩
  rw [conns_dettach]
  split_ifs
  · exact (h.one i hi).take
  · exact h.one i hi

theorem State.Ok.congr (h : s.Ok) (hconns : t.conns = s.conns) : t.Ok := by
  refine ⟨h.consistent.congr hconns, fun i hi => ?_⟩
  rw [hconns]
  exact h.one i hi

/-- A connection is accepted by an application that may have several. -/
theorem State.Ok.accept (h : s.Ok) (haccept : AcceptsUnused r s)
    (hlt : evInfo.iAppId < socketMaxNum) (hmany : ¬ KeepsOne evInfo.iAppId) :
    (socketAcceptConn r.accepted evInfo s).Ok := by
  refine ⟨h.consistent.accept haccept hlt, fun i hi => ?_⟩
  have hne : i ≠ evInfo.iAppId := by
    rintro rfl
    exact hmany hi
  rw [conns_accept, if_neg hne]
  exact h.one i hi

theorem grows_accept (haccept : AcceptsUnused r s) :
    s.Grows (socketAcceptConn r.accepted evInfo s) := by
  refine ⟨remembered_accept, fun i fd hfd hmem => ?_⟩
  rcases haccept with hfailed | ⟨hpos, -⟩
  · rw [conns_accept, hfailed]
    split_ifs
    · rwa [show (-1 : ℤ) = socketUnused from rfl, put_free]
    · exact hmem
  · rw [mem_conns_accept hpos hfd]
    exact .inl hmem

/-- With one connection at most there is no second one. -/
theorem closeSecond_of_one (h : OneConnection (s.conns appId)) : closeSecond appId s = s := by
  obtain ⟨x, hx⟩ := h
  unfold closeSecond
  rw [oneConnection_count hx, if_neg]
  split_ifs <;> decide

theorem closeSecond_of_two {x : ℤ} (h : s.conns appId
    = [x, fd, socketUnused, socketUnused, socketUnused]) (hx : 0 < x) (hfd : 0 < fd) :
    closeSecond appId s = socketDettachConnection appId fd s := by
  have hunused : ¬ 0 < socketUnused := by decide
  have hcount : socketGetConnectionsFds appId s = 2 := by
    unfold socketGetConnectionsFds
    rw [h]
    simp [hx, hfd, hunused]
  unfold closeSecond
  rw [if_pos (by rw [hcount]; decide), h]
  rfl

/-- An application with one connection at most, right after `accept`: it still has one at
most, or a second one that no slot held. -/
theorem State.Ok.accept_second (h : s.Ok) (haccept : AcceptsUnused r s)
    (hone : KeepsOne evInfo.iAppId) (hlt : evInfo.iAppId < socketMaxNum)
    (hsecond : ¬ OneConnection ((socketAcceptConn r.accepted evInfo s).conns evInfo.iAppId)) :
    0 < r.accepted ∧ r.accepted ∉ s.conns evInfo.iAppId ∧ ∃ x, 0 < x ∧ x ≠ r.accepted
      ∧ (socketAcceptConn r.accepted evInfo s).conns evInfo.iAppId
        = [x, r.accepted, socketUnused, socketUnused, socketUnused] := by
  obtain ⟨x, hx⟩ := h.one _ hone
  have hmem : x ∈ s.conns evInfo.iAppId := by
    rw [hx]
    exact List.mem_cons_self
  have hthis : (socketAcceptConn r.accepted evInfo s).conns evInfo.iAppId = put socketUnused
      r.accepted [x, socketUnused, socketUnused, socketUnused, socketUnused] := by
    rw [conns_accept, if_pos rfl, hx]
  have hxused : x ≠ socketUnused := by
    rintro rfl
    exact hsecond ⟨r.accepted, hthis.trans put_cons_free⟩
  rw [put_cons_of_ne hxused, put_cons_free] at hthis
  obtain ⟨hpos, hfresh⟩ : 0 < r.accepted ∧ ∀ i < socketMaxNum,
      (s.sxSockets i).iSocketFd ≠ r.accepted ∧ r.accepted ∉ s.conns i := by
    apply haccept.resolve_left
    intro hfailed
    refine hsecond ⟨x, hthis.trans ?_⟩
    rw [hfailed]
    rfl
  have hxpos : 0 < x := by
    refine (h.consistent.positive _ ?_ x hmem).resolve_left hxused
    rcases hone with happ | happ <;> rw [happ] <;> decide
  refine ⟨hpos, (hfresh _ hlt).2, x, hxpos, ?_, hthis⟩
  rintro rfl
  exact (hfresh _ hlt).2 hmem

/-- A connection is accepted by an application with one at most: a second one is closed
at once. -/
theorem State.Ok.acceptOne (h : s.Ok) (haccept : AcceptsUnused r s)
    (hone : KeepsOne evInfo.iAppId) :
    (closeSecond evInfo.iAppId (socketAcceptConn r.accepted evInfo s)).Ok
      ∧ s.Grows (closeSecond evInfo.iAppId (socketAcceptConn r.accepted evInfo s)) := by
  have hlt : evInfo.iAppId < socketMaxNum := by
    rcases hone with happ | happ <;> rw [happ] <;> decide
  have hconsistent := h.consistent.accept haccept hlt
  have hgrows : s.Grows (socketAcceptConn r.accepted evInfo s) := grows_accept haccept
  have hothers (i : ℕ) (hi : i ≠ evInfo.iAppId) :
      (socketAcceptConn r.accepted evInfo s).conns i = s.conns i := by
    rw [conns_accept, if_neg hi]
  by_cases hsingle : OneConnection ((socketAcceptConn r.accepted evInfo s).conns evInfo.iAppId)
  · rw [closeSecond_of_one hsingle]
    refine ⟨⟨hconsistent, fun i hi => ?_⟩, hgrows⟩
    by_cases happ : i = evInfo.iAppId
    · rwa [happ]
    · rw [hothers i happ]
      exact h.one i hi
  · obtain ⟨hpos, hfresh, x, hxpos, hxne, hthis⟩ := h.accept_second haccept hone hlt hsingle
    rw [closeSecond_of_two hthis hxpos hpos]
    refine ⟨⟨hconsistent.dettach (ne_unused_of_pos hpos), fun i hi => ?_⟩, ?_,
      fun i y hy hmem => ?_⟩
    · rw [conns_dettach]
      split_ifs with happ
      · rw [happ, hthis, take_cons_of_ne hxne, take_cons_self]
        exact ⟨x, rfl⟩
      · rw [hothers i happ]
        exact h.one i hi
    · rw [remembered_dettach, remembered_accept]
    · rw [hconsistent.mem_dettach (ne_unused_of_pos hpos) hy]
      refine ⟨hgrows.conns i y hy hmem, ?_⟩
      rintro happ rfl
      exact hfresh (happ ▸ hmem)

end Remembered

/-! ## Callbacks -/

/-- A connection of the application is found closed. -/
def FindsClosed (r : Round) (evInfo : SocketEvInfo) : Prop :=
  evInfo.iEventType = .data ∧ r.received = [] ∧ r.available = 0

/-- The connection that is found closed is not remembered by the CLI, which remembers the
one it looks at, and not by the USI loopback. -/
def EventKeeps (r : Round) (evInfo : SocketEvInfo) (s : State) : Prop :=
  FindsClosed r evInfo → evInfo.iAppId ≠ cliAppId
    ∧ (evInfo.iAppId = primemngAppId → evInfo.iSocketFd ≠ s.fdSocketLoopback)

/-- An event of an application: what `socket_select` has found. -/
structure IsEvent (s : State) (evInfo : SocketEvInfo) : Prop where
  lt : evInfo.iAppId < socketMaxNum
  nonneg : 0 ≤ evInfo.iSocketFd
  mem : evInfo.iEventType = .data → evInfo.iSocketFd ∈ s.conns evInfo.iAppId

/-- All is in order after the event exactly when the condition holds. -/
def Decides (t : State) (cond : Prop) : Prop := t.Ok ∧ (t.NoStale ↔ cond)

section Callbacks

variable {s t : State} {r : Round} {evInfo : SocketEvInfo} {cond : Prop}

theorem decides_of_grows (hstale : s.NoStale) (ht : t.Ok) (hgrows : s.Grows t)
    (hcond : cond) : Decides t cond :=
  ⟨ht, iff_of_true (hstale.grows hgrows ht.consistent) hcond⟩

theorem eventKeeps_of_link (hlink : evInfo.iEventType = .link) : EventKeeps r evInfo s := by
  rintro ⟨hdata, -⟩
  rw [hlink] at hdata
  cases hdata

theorem eventKeeps_of_other (hcli : evInfo.iAppId ≠ cliAppId)
    (hprime : evInfo.iAppId ≠ primemngAppId) : EventKeeps r evInfo s :=
  fun _ => ⟨hcli, fun h => absurd h hprime⟩

theorem eventKeeps_of_not_closed (h : ¬ (r.received = [] ∧ r.available = 0)) :
    EventKeeps r evInfo s := by
  rintro ⟨-, hclosed⟩
  exact absurd hclosed h

/-- A connection that is looked at is a descriptor. -/
theorem IsEvent.pos (hevent : IsEvent s evInfo) (h : s.Ok) (husi : evInfo.iAppId ≠ usiAppId)
    (hdata : evInfo.iEventType = .data) : 0 < evInfo.iSocketFd := by
  apply (h.consistent.positive _ husi _ (hevent.mem hdata)).resolve_left
  intro hunused
  have hnonneg := hevent.nonneg
  rw [hunused] at hnonneg
  exact absurd hnonneg (by decide)

/-- A server accepts a connection. -/
theorem accept_decides (hevent : IsEvent s evInfo) (h : s.Ok) (hstale : s.NoStale)
    (haccept : AcceptsUnused r s) (hmany : ¬ KeepsOne evInfo.iAppId)
    (hlink : evInfo.iEventType = .link) :
    Decides (socketAcceptConn r.accepted evInfo s) (EventKeeps r evInfo s) :=
  decides_of_grows hstale (h.accept haccept hevent.lt hmany) (grows_accept haccept)
    (eventKeeps_of_link hlink)

/-- A server that has one connection at most accepts a connection. -/
theorem acceptOne_decides (h : s.Ok) (hstale : s.NoStale) (haccept : AcceptsUnused r s)
    (hone : KeepsOne evInfo.iAppId) (hlink : evInfo.iEventType = .link) :
    Decides (closeSecond evInfo.iAppId (socketAcceptConn r.accepted evInfo s))
      (EventKeeps r evInfo s) :=
  decides_of_grows hstale (h.acceptOne haccept hone).1 (h.acceptOne haccept hone).2
    (eventKeeps_of_link hlink)

/-- An application that remembers nothing looks for a closed connection. -/
theorem check_decides (hevent : IsEvent s evInfo) (h : s.Ok) (hstale : s.NoStale)
    (husi : evInfo.iAppId ≠ usiAppId) (hdata : evInfo.iEventType = .data)
    (hother : ∀ p ∈ s.remembered, p.1 ≠ evInfo.iAppId) (hcond : cond) :
    Decides (socketCheckConnection r.available evInfo.iAppId evInfo.iSocketFd s) cond := by
  unfold socketCheckConnection
  split_ifs with hclosed
  · have hpos := hevent.pos h husi hdata
    refine ⟨h.dettach (ne_unused_of_pos hpos), iff_of_true ?_ hcond⟩
    rw [h.consistent.noStale_dettach hpos]
    intro p hp hp0
    exact ⟨(hstale p hp hp0).1, fun happ => absurd happ (hother p hp)⟩
  · exact ⟨h, iff_of_true hstale hcond⟩

theorem State.Consistent.noStale_iff_fds (h : s.Consistent) : s.NoStale
    ↔ (0 < s.fdSocketLoopback → s.fdSocketLoopback ∈ s.conns primemngAppId)
      ∧ (0 < s.siDlmsoctpDataFd → s.siDlmsoctpDataFd ∈ s.conns dlmsotcpAppId)
      ∧ (0 < s.siCliDataFd → s.siCliDataFd ∈ s.conns cliAppId) := by
  rw [h.noStale_iff]
  unfold State.remembered
  simp

theorem State.Consistent.noStale_dettach_fds {appId : ℕ} {fd : ℤ} (h : s.Consistent)
    (hfd : 0 < fd) : (socketDettachConnection appId fd s).NoStale
      ↔ (0 < s.fdSocketLoopback → s.fdSocketLoopback ∈ s.conns primemngAppId
          ∧ (primemngAppId = appId → s.fdSocketLoopback ≠ fd))
        ∧ (0 < s.siDlmsoctpDataFd → s.siDlmsoctpDataFd ∈ s.conns dlmsotcpAppId
          ∧ (dlmsotcpAppId = appId → s.siDlmsoctpDataFd ≠ fd))
        ∧ (0 < s.siCliDataFd → s.siCliDataFd ∈ s.conns cliAppId
          ∧ (cliAppId = appId → s.siCliDataFd ≠ fd)) := by
  rw [h.noStale_dettach hfd]
  unfold State.remembered
  simp

theorem app_of_remembered {p : ℕ × ℤ} (hp : p ∈ s.remembered) :
    p.1 = primemngAppId ∨ p.1 = dlmsotcpAppId ∨ p.1 = cliAppId := by
  unfold State.remembered at hp
  rcases List.mem_cons.mp hp with rfl | hp
  · exact .inl rfl
  rcases List.mem_cons.mp hp with rfl | hp
  · exact .inr (.inl rfl)
  · obtain rfl := List.mem_singleton.mp hp
    exact .inr (.inr rfl)

/-- An application that remembers nothing: it accepts connections, looks for closed ones,
and what it does with what it reads has no effect on descriptors. -/
theorem plain_decides (hevent : IsEvent s evInfo) (h : s.Ok) (hstale : s.NoStale)
    (haccept : AcceptsUnused r s)
    (happ : evInfo.iAppId = snifferAppId ∨ evInfo.iAppId = dlmsAppId) (hread : s.SameFds t) :
    Decides (match evInfo.iEventType with
      | .link => socketAcceptConn r.accepted evInfo s
      | .data => if r.received ≠ [] then t
          else socketCheckConnection r.available evInfo.iAppId evInfo.iSocketFd s)
      (EventKeeps r evInfo s) := by
  have hcli : evInfo.iAppId ≠ cliAppId := by rcases happ with happ | happ <;> rw [happ] <;> decide
  have hprime : evInfo.iAppId ≠ primemngAppId := by
    rcases happ with happ | happ <;> rw [happ] <;> decide
  have hdlms : evInfo.iAppId ≠ dlmsotcpAppId := by
    rcases happ with happ | happ <;> rw [happ] <;> decide
  have husi : evInfo.iAppId ≠ usiAppId := by rcases happ with happ | happ <;> rw [happ] <;> decide
  have hcond : EventKeeps r evInfo s := eventKeeps_of_other hcli hprime
  cases htype : evInfo.iEventType with
  | link => exact accept_decides hevent h hstale haccept (not_or.mpr ⟨hprime, hdlms⟩) htype
  | data =>
      dsimp only
      split_ifs
      · exact decides_of_grows hstale (h.congr hread.conns) hread.grows hcond
      · refine check_decides hevent h hstale husi htype (fun p hp heq => ?_) hcond
        rcases app_of_remembered hp with hp' | hp' | hp'
        · exact hprime (heq.symm.trans hp')
        · exact hdlms (heq.symm.trans hp')
        · exact hcli (heq.symm.trans hp')

theorem snifferCallback_decides (hevent : IsEvent s evInfo) (h : s.Ok) (hstale : s.NoStale)
    (haccept : AcceptsUnused r s) (happ : evInfo.iAppId = snifferAppId) :
    Decides (snifferCallback r evInfo s) (EventKeeps r evInfo s) := by
  unfold snifferCallback
  rw [if_pos hevent.nonneg]
  apply plain_decides hevent h hstale haccept (.inl happ)
  split_ifs
  · exact (State.SameFds.refl s).emit
  · exact .refl s

theorem dlmsEmuCallback_decides (hevent : IsEvent s evInfo) (h : s.Ok) (hstale : s.NoStale)
    (haccept : AcceptsUnused r s) (happ : evInfo.iAppId = dlmsAppId) :
    Decides (dlmsEmuCallback r evInfo s) (EventKeeps r evInfo s) := by
  unfold dlmsEmuCallback
  rw [if_pos hevent.nonneg]
  exact plain_decides hevent h hstale haccept (.inr happ) (State.SameFds.refl s).emit

/-- The PRIME manager remembers the connection it has read from, and does not forget it. -/
theorem primeManagerCallback_decides (hevent : IsEvent s evInfo) (h : s.Ok) (hstale : s.NoStale)
    (haccept : AcceptsUnused r s) (happ : evInfo.iAppId = primemngAppId) :
    Decides (primeManagerCallback r evInfo s) (EventKeeps r evInfo s) := by
  unfold primeManagerCallback
  rw [if_pos hevent.nonneg]
  cases htype : evInfo.iEventType with
  | link =>
      dsimp only
      rw [← happ]
      exact acceptOne_decides h hstale haccept (.inl happ) htype
  | data =>
      have hpos := hevent.pos h (by rw [happ]; decide) htype
      have hmem := hevent.mem htype
      obtain ⟨hloop, hdlms, hcli⟩ := h.consistent.noStale_iff_fds.mp hstale
      dsimp only
      split_ifs with hread
      · have hok : ((usiHostLoopback evInfo.iSocketFd s).emit
            [.write s.siSerialPortFd r.received]).Ok := h.congr rfl
        refine ⟨hok, iff_of_true ?_ (eventKeeps_of_not_closed fun hclosed => hread hclosed.1)⟩
        rw [hok.consistent.noStale_iff_fds]
        exact ⟨fun _ => happ ▸ hmem, hdlms, hcli⟩
      · unfold socketCheckConnection
        split_ifs with havailable
        · refine ⟨h.dettach (ne_unused_of_pos hpos), ?_⟩
          rw [h.consistent.noStale_dettach_fds hpos, happ]
          constructor
          · rintro ⟨hforgotten, -⟩ _
            refine ⟨by rw [happ]; decide, fun _ hremembered => ?_⟩
            rw [← hremembered] at hforgotten
            exact (hforgotten hpos).2 rfl rfl
          · intro hkeeps
            obtain ⟨-, hloopKept⟩ := hkeeps ⟨htype, not_not.mp hread, havailable⟩
            refine ⟨fun h0 => ⟨hloop h0, fun _ => (hloopKept happ).symm⟩, fun h0 => ⟨hdlms h0, ?_⟩,
              fun h0 => ⟨hcli h0, ?_⟩⟩
            · exact fun heq => absurd heq (by decide)
            · exact fun heq => absurd heq (by decide)
        · exact ⟨h, iff_of_true hstale (eventKeeps_of_not_closed fun hc => havailable hc.2)⟩

/-- The CLI remembers the connection it looks at, and does not forget it. -/
theorem cliCallback_decides (hevent : IsEvent s evInfo) (h : s.Ok) (hstale : s.NoStale)
    (haccept : AcceptsUnused r s) (happ : evInfo.iAppId = cliAppId) :
    Decides (cliCallback r evInfo s) (EventKeeps r evInfo s) := by
  unfold cliCallback
  rw [if_pos hevent.nonneg]
  cases htype : evInfo.iEventType with
  | link =>
      refine accept_decides hevent h hstale haccept ?_ htype
      rw [happ]
      rintro (hone | hone) <;> exact absurd hone (by decide)
  | data =>
      have hpos := hevent.pos h (by rw [happ]; decide) htype
      have hmem := hevent.mem htype
      obtain ⟨hloop, hdlms, -⟩ := h.consistent.noStale_iff_fds.mp hstale
      have hok : State.Ok { s with siCliDataFd := evInfo.iSocketFd } := h.congr rfl
      have hnoStale : State.NoStale { s with siCliDataFd := evInfo.iSocketFd } := by
        rw [hok.consistent.noStale_iff_fds]
        exact ⟨hloop, hdlms, fun _ => happ ▸ hmem⟩
      dsimp only
      split_ifs with hread
      · exact ⟨hok.congr rfl, iff_of_true (hnoStale.grows (State.SameFds.refl _).emit.grows
          (hok.consistent.congr rfl)) (eventKeeps_of_not_closed fun hc => hread hc.1)⟩
      · unfold socketCheckConnection
        split_ifs with havailable
        · refine ⟨hok.dettach (ne_unused_of_pos hpos), iff_of_false ?_ ?_⟩
          · rw [hok.consistent.noStale_dettach_fds hpos]
            rintro ⟨-, -, hforgotten⟩
            exact (hforgotten hpos).2 happ.symm rfl
          · intro hkeeps
            exact (hkeeps ⟨htype, not_not.mp hread, havailable⟩).1 happ
        · exact ⟨hok, iff_of_true hnoStale (eventKeeps_of_not_closed fun hc => havailable hc.2)⟩

/-- DLMSoTCP looks for a closed connection: if it has been closed, no other is left, and it
is forgotten. -/
theorem closeData_decides {fd : ℤ} (h : s.Ok) (hstale : s.NoStale) (hpos : 0 < fd)
    (hone : s.conns dlmsotcpAppId = [fd, socketUnused, socketUnused, socketUnused, socketUnused])
    (hcond : cond) :
    Decides (closeData (socketCheckConnection r.available dlmsotcpAppId fd s)) cond := by
  unfold socketCheckConnection closeData
  split_ifs with havailable hnone hnone
  · have hok : State.Ok (socketDettachConnection dlmsotcpAppId fd s) :=
      h.dettach (ne_unused_of_pos hpos)
    obtain ⟨hloop, -, hcli⟩ := h.consistent.noStale_iff_fds.mp hstale
    obtain ⟨hsameLoop, hsameCli⟩ := @fds_dettach s dlmsotcpAppId fd
    have hforgot : (State.emit { socketDettachConnection dlmsotcpAppId fd s with
        siDlmsoctpDataFd := -1 } [.dlmsotcpClose432]).Ok := hok.congr rfl
    have hothers (i : ℕ) (hi : i ≠ dlmsotcpAppId) :
        (socketDettachConnection dlmsotcpAppId fd s).conns i = s.conns i := by
      rw [conns_dettach, if_neg hi]
    refine ⟨hforgot, iff_of_true ?_ hcond⟩
    rw [hforgot.consistent.noStale_iff_fds]
    refine ⟨fun h0 => ?_, fun h0 => absurd h0 (by decide : ¬ (0 : ℤ) < -1),
      fun h0 => ?_⟩
    · change (socketDettachConnection dlmsotcpAppId fd s).fdSocketLoopback
        ∈ (socketDettachConnection dlmsotcpAppId fd s).conns primemngAppId
      rw [hothers _ (by decide), hsameLoop]
      exact hloop (hsameLoop ▸ h0)
    · change (socketDettachConnection dlmsotcpAppId fd s).siCliDataFd
        ∈ (socketDettachConnection dlmsotcpAppId fd s).conns cliAppId
      rw [hothers _ (by decide), hsameCli]
      exact hcli (hsameCli ▸ h0)
  · refine absurd ?_ hnone
    have hclosed : (socketDettachConnection dlmsotcpAppId fd s).conns dlmsotcpAppId
        = [socketUnused, socketUnused, socketUnused, socketUnused, socketUnused] := by
      rw [conns_dettach, if_pos rfl, hone, take_cons_self]
    rw [oneConnection_count hclosed]
    rfl
  · rw [oneConnection_count hone, if_pos hpos] at hnone
    cases hnone
  · exact ⟨h, iff_of_true hstale hcond⟩

/-- DLMSoTCP remembers the connection it looks at, and forgets it when it is closed. -/
theorem dlmsotcpCallback_decides (hevent : IsEvent s evInfo) (h : s.Ok) (hstale : s.NoStale)
    (haccept : AcceptsUnused r s) (happ : evInfo.iAppId = dlmsotcpAppId) :
    Decides (dlmsotcpCallback r evInfo s) (EventKeeps r evInfo s) := by
  unfold dlmsotcpCallback
  rw [if_pos hevent.nonneg]
  cases htype : evInfo.iEventType with
  | link =>
      dsimp only
      rw [← happ]
      exact acceptOne_decides h hstale haccept (.inr happ) htype
  | data =>
      have hpos := hevent.pos h (by rw [happ]; decide) htype
      have hmem := hevent.mem htype
      have hcond : EventKeeps r evInfo s :=
        eventKeeps_of_other (by rw [happ]; decide) (by rw [happ]; decide)
      obtain ⟨hloop, -, hcli⟩ := h.consistent.noStale_iff_fds.mp hstale
      obtain ⟨x, hx⟩ := h.one dlmsotcpAppId (.inr rfl)
      rw [happ] at hmem
      obtain rfl : evInfo.iSocketFd = x := by
        rw [hx] at hmem
        exact (List.mem_cons.mp hmem).resolve_right
          (by simpa using ne_unused_of_pos hpos)
      have hok : State.Ok { s with siDlmsoctpDataFd := evInfo.iSocketFd } := h.congr rfl
      have hnoStale : State.NoStale { s with siDlmsoctpDataFd := evInfo.iSocketFd } := by
        rw [hok.consistent.noStale_iff_fds]
        exact ⟨hloop, fun _ => hmem, hcli⟩
      dsimp only
      split_ifs with hread
      · exact ⟨hok.congr rfl, iff_of_true (hnoStale.grows (State.SameFds.refl _).emit.grows
          (hok.consistent.congr rfl)) hcond⟩
      · rw [happ]
        exact closeData_decides hok hnoStale hpos hx hcond

end Callbacks

/-! ## Runs -/

/-- The connection that is found closed in the round is not one that stays remembered. -/
def KeepsRemembered (r : Round) (s : State) : Prop :=
  ∀ evInfo, socketSelect r.ready s = .success evInfo → EventKeeps r evInfo s

/-- No descriptor is stale after the round. -/
def NoStaleAfter (r : Round) (s : State) : Prop := (mainLoop r s).NoStale

instance (r : Round) (s : State) : Decidable (NoStaleAfter r s) :=
  inferInstanceAs (Decidable (mainLoop r s).NoStale)

/-- One round after the other. -/
def mainStep (r : Round) (s : State) : Option State := some (mainLoop r s)

section Runs

variable {s s' : State} {r : Round} {evInfo : SocketEvInfo}

theorem appCbs_decides (hevent : IsEvent s evInfo) (h : s.Ok) (hstale : s.NoStale)
    (haccept : AcceptsUnused r s) :
    Decides (appCbs r evInfo s) (EventKeeps r evInfo s) := by
  unfold appCbs
  split_ifs with hsniffer hprime hcli hdlms hemu
  · exact snifferCallback_decides hevent h hstale haccept hsniffer
  · exact primeManagerCallback_decides hevent h hstale haccept hprime
  · exact cliCallback_decides hevent h hstale haccept hcli
  · exact dlmsotcpCallback_decides hevent h hstale haccept hdlms
  · exact dlmsEmuCallback_decides hevent h hstale haccept hemu
  · exact ⟨h, iff_of_true hstale (eventKeeps_of_other hcli hprime)⟩

/-- **One round.** -/
theorem mainLoop_decides (h : s.Ok) (hstale : s.NoStale) (haccept : AcceptsUnused r s) :
    Decides (mainLoop r s) (KeepsRemembered r s) := by
  have hnothing {t : State} (ht : s.SameFds t) (hcond : KeepsRemembered r s) :
      Decides t (KeepsRemembered r s) :=
    decides_of_grows hstale (h.congr ht.conns) ht.grows hcond
  have hprocess : s.SameFds (s.emit [.usiHostProcess, .cliProcess]) := (State.SameFds.refl s).emit
  unfold mainLoop
  rcases hselect : socketSelect r.ready s with evInfo | _ | _
  · have hfound : KeepsRemembered r s ↔ EventKeeps r evInfo s := by
      unfold KeepsRemembered
      rw [hselect]
      constructor
      · intro hkeeps
        exact hkeeps evInfo rfl
      · intro hkeeps evInfo' hsame
        rwa [← SelectRes.success.inj hsame]
    obtain ⟨hlt, hnonneg, hmem⟩ := socketSelect_spec hselect
    dsimp only
    split_ifs with husi
    · refine hnothing hprocess (hfound.mpr (eventKeeps_of_other ?_ ?_))
      · rw [husi]
        decide
      · rw [husi]
        decide
    · rw [hfound]
      exact appCbs_decides ⟨hlt, hnonneg, hmem⟩ h hstale haccept
  · apply hnothing hprocess
    intro evInfo hfound
    rw [hselect] at hfound
    cases hfound
  · apply hnothing (State.SameFds.refl s)
    intro evInfo hfound
    rw [hselect] at hfound
    cases hfound

/-! ### The start -/

variable (listenSds : ℕ → ℤ) (usiFd : ℤ)

/-- The servers have no connections yet. -/
theorem servers_spec (is : List ℕ) :
    (is.foldl (fun s i => socketCreateServer i (listenSds i) s) s).conns = s.conns
      ∧ (is.foldl (fun s i => socketCreateServer i (listenSds i) s) s).siCliDataFd
        = s.siCliDataFd := by
  induction is generalizing s with
  | nil => exact ⟨rfl, rfl⟩
  | cons i is ih =>
      rw [List.foldl_cons]
      obtain ⟨hconns, hcli⟩ := ih (s := socketCreateServer i (listenSds i) s)
      refine ⟨hconns.trans ?_, hcli⟩
      funext j
      unfold State.conns socketCreateServer
      dsimp only
      by_cases hj : j = i
      · rw [hj, Function.update_self]
      · rw [Function.update_of_ne hj]

theorem conns_started (i : ℕ) : (started listenSds usiFd).conns i
    = if i = usiAppId then [usiFd, socketUnused, socketUnused, socketUnused, socketUnused]
      else List.replicate socketMaxConn socketUnused := by
  let s := (List.range 5).foldl (fun s i => socketCreateServer i (listenSds i) s) socketInit
  have hconns (j : ℕ) : s.conns j = List.replicate socketMaxConn socketUnused :=
    congrFun (servers_spec listenSds (List.range 5)).1 j
  have hattach : (started listenSds usiFd).conns
      = (socketAttachConnection usiAppId usiFd s).2.conns := rfl
  rw [hattach]
  unfold socketAttachConnection
  rw [if_pos (by rw [hconns]; decide)]
  unfold State.conns
  dsimp only
  split_ifs with hi
  · rw [hi, Function.update_self]
    change put socketUnused usiFd (s.conns usiAppId) = _
    rw [hconns]
    exact put_cons_free
  · rw [Function.update_of_ne hi]
    exact hconns i

theorem ok_started : (started listenSds usiFd).Ok := by
  have hunused (i : ℕ) (hi : i ≠ usiAppId) (fd : ℤ) (hfd : fd ∈ (started listenSds usiFd).conns i) :
      fd = socketUnused := by
    rw [conns_started, if_neg hi] at hfd
    exact List.eq_of_mem_replicate hfd
  have husi (i : ℕ) (fd : ℤ) (hpos : 0 < fd) (hfd : fd ∈ (started listenSds usiFd).conns i) :
      i = usiAppId := by
    by_contra hi
    exact ne_unused_of_pos hpos (hunused i hi fd hfd)
  refine ⟨⟨fun i hi fd hfd => .inl (hunused i hi fd hfd), fun i => ?_, ?_⟩, fun i hi => ?_⟩
  · rw [conns_started]
    split_ifs
    · by_cases hfd : usiFd = socketUnused
      · rw [hfd]
        decide
      · rw [used_cons_of_ne hfd]
        exact List.nodup_singleton usiFd
    · decide
  · intro i _ j _ fd hpos hi hj
    rw [husi i fd hpos hi, husi j fd hpos hj]
  · rw [conns_started, if_neg]
    · exact ⟨socketUnused, rfl⟩
    · rcases hi with hi | hi <;> rw [hi] <;> decide

theorem noStale_started : (started listenSds usiFd).NoStale := by
  have hattach (s : State) : (socketAttachConnection usiAppId usiFd s).2.siCliDataFd
      = s.siCliDataFd := by
    unfold socketAttachConnection
    split_ifs <;> rfl
  have hcli : (started listenSds usiFd).siCliDataFd = 0 :=
    (hattach _).trans (servers_spec (s := socketInit) listenSds (List.range 5)).2
  rw [(ok_started listenSds usiFd).consistent.noStale_iff_fds, hcli]
  refine ⟨fun h0 => absurd h0 (by decide : ¬ (0 : ℤ) < -1),
    fun h0 => absurd h0 (by decide : ¬ (0 : ℤ) < -1), fun h0 => absurd h0 (by decide)⟩

/-- **Stale descriptors.**  In every run in which `accept` returns descriptors that are not
open, the three descriptors are connections of their applications or not positive after
every round, exactly when no connection is found closed that the CLI looks at or that is
the USI loopback. -/
theorem descriptors_stale_iff (listenSds : ℕ → ℤ) (usiFd : ℤ) (rs : List Round)
    (haccept : AlongSteps mainStep AcceptsUnused rs (started listenSds usiFd)) :
    AlongSteps mainStep NoStaleAfter rs (started listenSds usiFd)
      ↔ AlongSteps mainStep KeepsRemembered rs (started listenSds usiFd) := by
  refine alongSteps_congr_of (I := fun s => s.Ok ∧ s.NoStale) haccept ?_ ?_
    ⟨ok_started listenSds usiFd, noStale_started listenSds usiFd⟩
  · rintro r s ⟨hok, hstale⟩ haccept
    exact (mainLoop_decides hok hstale haccept).2
  · rintro r s s' ⟨hok, hstale⟩ haccept hafter hs'
    obtain rfl := Option.some.inj hs'
    exact ⟨(mainLoop_decides hok hstale haccept).1, hafter⟩

end Runs

/-! ## A number that is used again -/

/-- The servers listen on 3 to 7. -/
def listenSds (i : ℕ) : ℤ := 3 + i

/-- The CLI accepts connection 9, reads a command from it, and finds it closed; then the
PRIME manager accepts a connection, which gets the number 9. -/
def cliNumberReused : List Round :=
  [⟨some [5], 9, [], 0⟩, ⟨some [9], -1, [65], 0⟩, ⟨some [9], -1, [], 0⟩, ⟨some [4], 9, [], 0⟩]

/-- The run in which the CLI remembers a connection of the PRIME manager. -/
theorem cli_descriptor_stale :
    ¬ ∀ (listenSds : ℕ → ℤ) (usiFd : ℤ) (rs : List Round),
      AlongSteps mainStep AcceptsUnused rs (started listenSds usiFd) →
      AlongSteps mainStep NoStaleAfter rs (started listenSds usiFd) := by
  intro h
  have hstale := h listenSds 8 cliNumberReused (by decide +kernel)
  revert hstale
  decide +kernel

/-- What happens in this run. -/
example : (runSteps mainStep cliNumberReused (started listenSds 8)).map
    (fun s => (s.siCliDataFd, s.conns cliAppId, s.conns primemngAppId))
      = some (9, [-1, -1, -1, -1, -1], [9, -1, -1, -1, -1]) := by decide +kernel

/-- The PRIME manager and DLMSoTCP: a client of each, and that of DLMSoTCP goes away. -/
def dlmsotcpCloses : List Round :=
  [⟨some [4], 9, [], 0⟩, ⟨some [9], -1, [65], 0⟩, ⟨some [6], 10, [], 0⟩, ⟨some [10], -1, [65], 0⟩,
    ⟨some [10], -1, [], 0⟩]

/-- The rule applies to this run. -/
theorem dlmsotcp_closes_stale_iff :
    AlongSteps mainStep NoStaleAfter dlmsotcpCloses (started listenSds 8)
      ↔ AlongSteps mainStep KeepsRemembered dlmsotcpCloses (started listenSds 8) :=
  descriptors_stale_iff listenSds 8 dlmsotcpCloses (by decide +kernel)

end SocketHandler
