/-
# What select listens to

The descriptors of the servers and connections are in the table, in the set that `select`
is given, and counted in the bound of it; each operation updates the three on its own.
They agree as long as every descriptor has one place in the table: opening takes a new one,
closing gives it up.
-/
import PlcManager.SocketHandler
import PlcManager.Runs

namespace SocketHandler

open SlotTable

/-! ## Open descriptors -/

/-- A server or a connection of an application. -/
def State.IsOpen (s : State) (fd : ℤ) : Prop :=
  fd ≠ socketUnused ∧ ∃ i < socketMaxNum, (s.sxSockets i).iSocketFd = fd ∨ fd ∈ s.conns i

instance (s : State) (fd : ℤ) : Decidable (s.IsOpen fd) := inferInstanceAs (Decidable (_ ∧ _))

/-- `select` watches what is open and nothing else. -/
structure State.ListenersExact (s : State) : Prop where
  exact : ∀ fd, fd ∈ s.sxSocketListeners ↔ s.IsOpen fd
  nonneg : ∀ fd ∈ s.sxSocketListeners, 0 ≤ fd
  bound : ∀ fd ∈ s.sxSocketListeners, fd ≤ s.siMaxListener

/-- The places that a descriptor has in an entry of the table. -/
def XSocket.places (x : XSocket) (fd : ℤ) : ℕ :=
  (if x.iSocketFd = fd then 1 else 0) + x.iConnFd.count fd

/-- The places that a descriptor has in the table. -/
def State.places (s : State) (fd : ℤ) : ℕ :=
  ∑ i ∈ Finset.range socketMaxNum, (s.sxSockets i).places fd

/-- No descriptor has two places. -/
def State.Distinct (s : State) : Prop := ∀ fd, fd ≠ socketUnused → s.places fd ≤ 1

section Places

variable {s t : State} {fd y : ℤ} {i appId : ℕ} {x : XSocket}

theorem XSocket.places_pos : 0 < x.places fd ↔ x.iSocketFd = fd ∨ fd ∈ x.iConnFd := by
  unfold XSocket.places
  rw [← List.count_pos_iff]
  split_ifs with h
  · exact iff_of_true (by omega) (.inl h)
  · rw [Nat.zero_add, or_iff_right h]

theorem State.isOpen_iff (hfd : fd ≠ socketUnused) : s.IsOpen fd ↔ 0 < s.places fd := by
  unfold State.IsOpen State.places
  rw [and_iff_right hfd, Finset.sum_pos_iff]
  constructor
  · rintro ⟨i, hi, h⟩
    exact ⟨i, Finset.mem_range.mpr hi, XSocket.places_pos.mpr h⟩
  · rintro ⟨i, hi, h⟩
    exact ⟨i, Finset.mem_range.mp hi, XSocket.places_pos.mp h⟩

/-- One entry of the table is replaced. -/
theorem places_update (fd : ℤ) (happ : appId < socketMaxNum)
    (ht : t.sxSockets = Function.update s.sxSockets appId x) :
    t.places fd + (s.sxSockets appId).places fd = s.places fd + x.places fd := by
  have hmem : appId ∈ Finset.range socketMaxNum := Finset.mem_range.mpr happ
  have hrest : ∑ i ∈ (Finset.range socketMaxNum).erase appId, (t.sxSockets i).places fd
      = ∑ i ∈ (Finset.range socketMaxNum).erase appId, (s.sxSockets i).places fd := by
    apply Finset.sum_congr rfl
    intro i hi
    rw [ht, Function.update_of_ne (Finset.ne_of_mem_erase hi)]
  have hthis : t.sxSockets appId = x := by
    rw [ht, Function.update_self]
  unfold State.places
  rw [← Finset.add_sum_erase _ _ hmem, ← Finset.add_sum_erase _ _ hmem, hrest, hthis]
  omega

theorem XSocket.places_attach (hfree : socketUnused ∈ x.iConnFd) (hfd : fd ≠ socketUnused)
    (hy : y ≠ socketUnused) :
    (x.attach fd).places y = x.places y + if y = fd then 1 else 0 := by
  unfold XSocket.places XSocket.attach
  dsimp only
  rw [count_put hfd hy hfree, Nat.add_assoc]

theorem XSocket.places_dettach (hmem : fd ∈ x.iConnFd) (hy : y ≠ socketUnused) :
    (x.dettach fd).places y + (if y = fd then 1 else 0) = x.places y := by
  have hcount : 0 < x.iConnFd.count fd := List.count_pos_iff.mpr hmem
  unfold XSocket.places XSocket.dettach
  dsimp only
  rw [count_take hy]
  by_cases h : y = fd
  · subst h
    rw [if_pos rfl]
    omega
  · rw [if_neg h]
    omega

/-- An entry gets another server. -/
theorem XSocket.places_server :
    XSocket.places { x with iSocketFd := fd } y + (if y = x.iSocketFd then 1 else 0)
      = x.places y + if y = fd then 1 else 0 := by
  unfold XSocket.places
  dsimp only
  simp only [@eq_comm _ fd y, @eq_comm _ x.iSocketFd y]
  omega

end Places

/-! ## Opening and closing -/

/-- A descriptor is entered in the table, the set and the bound. -/
structure Opens (fd : ℤ) (s t : State) : Prop where
  listeners : t.sxSocketListeners = insert fd s.sxSocketListeners
  max : t.siMaxListener = if s.siMaxListener < fd then fd else s.siMaxListener
  places : ∀ y, y ≠ socketUnused → t.places y = s.places y + if y = fd then 1 else 0

/-- A descriptor is removed from the table, the set and the bound. -/
structure Closes (fd : ℤ) (s t : State) : Prop where
  listeners : t.sxSocketListeners = s.sxSocketListeners.erase fd
  max : t.siMaxListener = if fd = s.siMaxListener then s.siMaxListener - 1 else s.siMaxListener
  places : ∀ y, y ≠ socketUnused → t.places y + (if y = fd then 1 else 0) = s.places y

/-- Between two calls. -/
structure State.Watched (s : State) : Prop where
  listeners : s.ListenersExact
  distinct : s.Distinct

section Operations

variable {s t : State} {fd y : ℤ} {appId : ℕ} {x : XSocket} {outs : List Output}

theorem ne_unused_of_nonneg (h : 0 ≤ fd) : fd ≠ socketUnused := by
  rintro rfl
  exact absurd h (by decide)

/-- What is open after a descriptor has been opened. -/
theorem Opens.isOpen_iff (ht : Opens fd s t) (hfd : fd ≠ socketUnused) :
    t.IsOpen y ↔ y = fd ∨ s.IsOpen y := by
  by_cases hy : y = socketUnused
  · apply iff_of_false (fun hopen => hopen.1 hy)
    rintro (hsame | hopen)
    · exact hfd (hsame ▸ hy)
    · exact hopen.1 hy
  · rw [State.isOpen_iff hy, State.isOpen_iff hy, ht.places y hy]
    by_cases hsame : y = fd
    · rw [if_pos hsame]
      exact iff_of_true (by omega) (.inl hsame)
    · rw [if_neg hsame, or_iff_right hsame, Nat.add_zero]

theorem Opens.distinct (ht : Opens fd s t) (h : s.Distinct) (hfd : fd ≠ socketUnused)
    (hfresh : ¬ s.IsOpen fd) : t.Distinct := by
  have hzero : s.places fd = 0 := by
    rw [State.isOpen_iff hfd] at hfresh
    omega
  intro y hy
  rw [ht.places y hy]
  split_ifs with hsame
  · rw [hsame, hzero]
  · rw [Nat.add_zero]
    exact h y hy

/-- What is open after a descriptor has been closed, which had one place. -/
theorem Closes.isOpen_iff (ht : Closes fd s t) (h : s.Distinct) :
    t.IsOpen y ↔ y ≠ fd ∧ s.IsOpen y := by
  by_cases hy : y = socketUnused
  · exact iff_of_false (fun hopen => hopen.1 hy) fun hopen => hopen.2.1 hy
  · have hle := h y hy
    have hplaces := ht.places y hy
    rw [State.isOpen_iff hy, State.isOpen_iff hy]
    by_cases hsame : y = fd
    · rw [if_pos hsame] at hplaces
      refine iff_of_false ?_ fun hboth => hboth.1 hsame
      omega
    · rw [if_neg hsame, Nat.add_zero] at hplaces
      rw [and_iff_right hsame, hplaces]

theorem Closes.distinct (ht : Closes fd s t) (h : s.Distinct) : t.Distinct := by
  intro y hy
  have hle : t.places y ≤ s.places y := by
    rw [← ht.places y hy]
    exact Nat.le_add_right _ _
  exact hle.trans (h y hy)

/-- The descriptor that is opened is not open yet. -/
theorem State.Watched.opens (h : s.Watched) (hfd : 0 ≤ fd) (hfresh : ¬ s.IsOpen fd)
    (ht : Opens fd s t) : t.Watched := by
  have hne := ne_unused_of_nonneg hfd
  have hmem (y : ℤ) : y ∈ t.sxSocketListeners ↔ y = fd ∨ y ∈ s.sxSocketListeners := by
    rw [ht.listeners, Finset.mem_insert]
  refine ⟨⟨fun y => ?_, fun y hy => ?_, fun y hy => ?_⟩, ht.distinct h.distinct hne hfresh⟩
  · rw [hmem, ht.isOpen_iff hne, h.listeners.exact]
  · rcases (hmem y).mp hy with rfl | hy
    · exact hfd
    · exact h.listeners.nonneg y hy
  · have hold : y = fd ∨ y ≤ s.siMaxListener := ((hmem y).mp hy).imp_right (h.listeners.bound y)
    rw [ht.max]
    split_ifs <;> omega

theorem State.Watched.closes (h : s.Watched) (ht : Closes fd s t) : t.Watched := by
  have hmem (y : ℤ) : y ∈ t.sxSocketListeners ↔ y ≠ fd ∧ y ∈ s.sxSocketListeners := by
    rw [ht.listeners, Finset.mem_erase]
  refine ⟨⟨fun y => ?_, fun y hy => ?_, fun y hy => ?_⟩, ht.distinct h.distinct⟩
  · rw [hmem, ht.isOpen_iff h.distinct, h.listeners.exact]
  · exact h.listeners.nonneg y ((hmem y).mp hy).2
  · obtain ⟨hother, hold⟩ := (hmem y).mp hy
    have hle := h.listeners.bound y hold
    rw [ht.max]
    split_ifs <;> omega

/-- A descriptor is entered in one entry of the table. -/
theorem opens_of_update (happ : appId < socketMaxNum)
    (hsockets : t.sxSockets = Function.update s.sxSockets appId x)
    (hx : ∀ y, y ≠ socketUnused →
      x.places y = (s.sxSockets appId).places y + if y = fd then 1 else 0)
    (hlisteners : t.sxSocketListeners = insert fd s.sxSocketListeners)
    (hmax : t.siMaxListener = if s.siMaxListener < fd then fd else s.siMaxListener) :
    Opens fd s t := by
  refine ⟨hlisteners, hmax, fun y hy => ?_⟩
  have hupdate := places_update y happ hsockets
  rw [hx y hy] at hupdate
  omega

theorem opens_attach (happ : appId < socketMaxNum) (hfree : socketUnused ∈ s.conns appId)
    (hfd : fd ≠ socketUnused) : Opens fd s (socketAttachConnection appId fd s).2 := by
  unfold socketAttachConnection
  rw [if_pos hfree]
  exact opens_of_update happ rfl (fun y hy => XSocket.places_attach hfree hfd hy) rfl rfl

/-- An application that has no server gets one. -/
theorem opens_createServer (happ : appId < socketMaxNum)
    (hnone : (s.sxSockets appId).iSocketFd = socketError) :
    Opens fd s (socketCreateServer appId fd s) := by
  refine opens_of_update happ rfl (fun y hy => ?_) rfl rfl
  rw [← XSocket.places_server, hnone, if_neg (show ¬ y = socketError from hy), Nat.add_zero]

/-- A descriptor is removed from one entry of the table. -/
theorem closes_of_update (happ : appId < socketMaxNum)
    (hsockets : t.sxSockets = Function.update s.sxSockets appId x)
    (hx : ∀ y, y ≠ socketUnused →
      x.places y + (if y = fd then 1 else 0) = (s.sxSockets appId).places y)
    (hlisteners : t.sxSocketListeners = s.sxSocketListeners.erase fd)
    (hmax : t.siMaxListener
      = if fd = s.siMaxListener then s.siMaxListener - 1 else s.siMaxListener) :
    Closes fd s t := by
  refine ⟨hlisteners, hmax, fun y hy => ?_⟩
  have hupdate := places_update y happ hsockets
  rw [← hx y hy] at hupdate
  omega

/-- The marker of a slot that is not used may be taken out too: nothing is closed then. -/
theorem closes_dettach (happ : appId < socketMaxNum) (hmem : fd ∈ s.conns appId) :
    Closes fd s (socketDettachConnection appId fd s) := by
  unfold socketDettachConnection
  rw [if_pos hmem]
  exact closes_of_update happ rfl (fun y hy => XSocket.places_dettach hmem hy) rfl rfl

theorem State.Watched.dettach (h : s.Watched) (happ : appId < socketMaxNum) :
    (socketDettachConnection appId fd s).Watched := by
  by_cases hmem : fd ∈ s.conns appId
  · exact h.closes (closes_dettach happ hmem)
  · unfold socketDettachConnection
    rwa [if_neg hmem]

/-- The server that an application had is not in the table any more, but still in the set. -/
theorem not_listenersExact_createServer (h : s.Watched) (happ : appId < socketMaxNum)
    (hold : (s.sxSockets appId).iSocketFd ≠ socketError) (hfresh : ¬ s.IsOpen fd) :
    ¬ (socketCreateServer appId fd s).ListenersExact := by
  intro hexact
  have hopen : s.IsOpen (s.sxSockets appId).iSocketFd := ⟨hold, appId, happ, .inl rfl⟩
  have hne : (s.sxSockets appId).iSocketFd ≠ fd := by
    rintro rfl
    exact hfresh hopen
  have hlisten : (s.sxSockets appId).iSocketFd
      ∈ (socketCreateServer appId fd s).sxSocketListeners :=
    Finset.mem_insert_of_mem ((h.listeners.exact _).mpr hopen)
  have hstill := (State.isOpen_iff hold).mp ((hexact.exact _).mp hlisten)
  have hplaces : (socketCreateServer appId fd s).places _ + _ = _ :=
    places_update (s.sxSockets appId).iSocketFd happ rfl
  have hentry : XSocket.places { s.sxSockets appId with iSocketFd := fd }
      (s.sxSockets appId).iSocketFd + 1
      = (s.sxSockets appId).places (s.sxSockets appId).iSocketFd + 0 := by
    have hserver := @XSocket.places_server fd (s.sxSockets appId).iSocketFd (s.sxSockets appId)
    rw [if_pos rfl, if_neg hne] at hserver
    exact hserver
  have hone := h.distinct _ hold
  omega

/-- What else happens to the state does not matter. -/
theorem State.Watched.congr (h : s.Watched) (hsockets : t.sxSockets = s.sxSockets)
    (hlisteners : t.sxSocketListeners = s.sxSocketListeners)
    (hmax : t.siMaxListener = s.siMaxListener) : t.Watched := by
  have hplaces (y : ℤ) : t.places y = s.places y := by
    unfold State.places
    rw [hsockets]
  have hopen (y : ℤ) : t.IsOpen y ↔ s.IsOpen y := by
    unfold State.IsOpen State.conns
    rw [hsockets]
  refine ⟨⟨fun y => ?_, fun y hy => ?_, fun y hy => ?_⟩, fun y hy => ?_⟩
  · rw [hlisteners, hopen]
    exact h.listeners.exact y
  · exact h.listeners.nonneg y (hlisteners ▸ hy)
  · rw [hmax]
    exact h.listeners.bound y (hlisteners ▸ hy)
  · rw [hplaces]
    exact h.distinct y hy

/-- The tables are empty. -/
theorem watched_of_empty (hsockets : s.sxSockets = fun _ => .empty)
    (hlisteners : s.sxSocketListeners = ∅) : s.Watched := by
  have hnone (y : ℤ) (hy : y ∈ s.sxSocketListeners) : False := by
    rw [hlisteners] at hy
    exact Finset.notMem_empty y hy
  have hplaces (y : ℤ) (hy : y ≠ socketUnused) : s.places y = 0 := by
    unfold State.places
    apply Finset.sum_eq_zero
    intro i _
    rw [hsockets, ← Nat.le_zero, ← not_lt, XSocket.places_pos]
    rintro (hserver | hconn)
    · exact hy hserver.symm
    · exact hy (List.eq_of_mem_replicate hconn)
  refine ⟨⟨fun y => iff_of_false (hnone y) ?_, fun y hy => (hnone y hy).elim,
    fun y hy => (hnone y hy).elim⟩, fun y hy => ?_⟩
  · intro hopen
    have hpos := (State.isOpen_iff hopen.1).mp hopen
    rw [hplaces y hopen.1] at hpos
    exact absurd hpos (lt_irrefl 0)
  · rw [hplaces y hy]
    exact Nat.zero_le 1

end Operations

/-! ## Runs -/

/-- A call of the socket handler, with what the operating system answers: the descriptor
that `socket` returns, the descriptor that `accept` returns or -1, the number of bytes that
can still be read. -/
inductive SocketCall where
  | init
  | createServer (appId : ℕ) (iListenSd : ℤ)
  | accept (evInfo : SocketEvInfo) (accepted : ℤ)
  | attach (appId : ℕ) (fd : ℤ)
  | dettach (appId : ℕ) (fd : ℤ)
  | check (available : ℤ) (appId : ℕ) (fd : ℤ)
  deriving DecidableEq, Repr

/-- `socket_init`, at any time. -/
def socketReset (s : State) : State :=
  { s with
    sxSockets := socketInit.sxSockets
    sxSocketListeners := socketInit.sxSocketListeners
    siMaxListener := socketInit.siMaxListener }

/-- One call; `socket_create_server` does not return if the application has no entry or
`socket` fails. -/
def socketStep : SocketCall → State → Option State
  | .init, s => some (socketReset s)
  | .createServer appId iListenSd, s =>
      if appId > socketMaxNum ∨ iListenSd < 0 then none
      else some (socketCreateServer appId iListenSd s)
  | .accept evInfo accepted, s => some (socketAcceptConn accepted evInfo s)
  | .attach appId fd, s => some (socketAttachConnection appId fd s).2
  | .dettach appId fd, s => some (socketDettachConnection appId fd s)
  | .check available appId fd, s => some (socketCheckConnection available appId fd s)

/-- The application has an entry in the table, and what is opened is not open. -/
def SocketCall.Proper : SocketCall → State → Prop
  | .init, _ => True
  | .createServer appId iListenSd, s => appId < socketMaxNum ∧ ¬ s.IsOpen iListenSd
  | .accept evInfo accepted, s =>
      evInfo.iAppId < socketMaxNum ∧ (accepted = -1 ∨ 0 ≤ accepted ∧ ¬ s.IsOpen accepted)
  | .attach appId fd, s => appId < socketMaxNum ∧ 0 ≤ fd ∧ ¬ s.IsOpen fd
  | .dettach appId _, _ => appId < socketMaxNum
  | .check _ appId _, _ => appId < socketMaxNum

/-- No application gets a second server, and `accept` does not fail while the application
has an unused slot, whose marker is the value that it returns then. -/
def SocketCall.Keeps : SocketCall → State → Prop
  | .createServer appId iListenSd, s =>
      0 ≤ iListenSd → (s.sxSockets appId).iSocketFd = socketError
  | .accept evInfo accepted, s => accepted = -1 → socketUnused ∉ s.conns evInfo.iAppId
  | _, _ => True

/-- The listeners are right when the call returns. -/
def ListenersAfter (c : SocketCall) (s : State) : Prop :=
  ∀ s', socketStep c s = some s' → s'.ListenersExact

instance (c : SocketCall) (s : State) : Decidable (c.Proper s) :=
  match c with
  | .init => isTrue trivial
  | .createServer _ _ => inferInstanceAs (Decidable (_ ∧ _))
  | .accept _ _ => inferInstanceAs (Decidable (_ ∧ _))
  | .attach _ _ => inferInstanceAs (Decidable (_ ∧ _))
  | .dettach appId _ => inferInstanceAs (Decidable (appId < socketMaxNum))
  | .check _ appId _ => inferInstanceAs (Decidable (appId < socketMaxNum))

section Runs

variable {s s' : State} {c : SocketCall} {evInfo : SocketEvInfo} {accepted fd : ℤ} {appId : ℕ}

/-- A connection is attached, or no slot is left for it. -/
theorem State.Watched.attach (h : s.Watched) (happ : appId < socketMaxNum) (hfd : 0 ≤ fd)
    (hfresh : ¬ s.IsOpen fd) : (socketAttachConnection appId fd s).2.Watched := by
  by_cases hfree : socketUnused ∈ s.conns appId
  · exact h.opens hfd hfresh (opens_attach happ hfree (ne_unused_of_nonneg hfd))
  · unfold socketAttachConnection
    rwa [if_neg hfree]

theorem socketAcceptConn_of_free (hfree : socketUnused ∈ s.conns evInfo.iAppId) :
    socketAcceptConn accepted evInfo s = (socketAttachConnection evInfo.iAppId accepted s).2 := by
  unfold socketAcceptConn socketAttachConnection
  rw [if_pos hfree]

theorem socketAcceptConn_of_full (hfull : socketUnused ∉ s.conns evInfo.iAppId) :
    socketAcceptConn accepted evInfo s = s.emit [.close accepted] := by
  unfold socketAcceptConn socketAttachConnection
  rw [if_neg hfull]

/-- A call that keeps to the condition. -/
theorem State.Watched.step (h : s.Watched) (hproper : c.Proper s) (hkeeps : c.Keeps s)
    (hs' : socketStep c s = some s') : s'.Watched := by
  cases c with
  | init =>
      obtain rfl := Option.some.inj hs'
      exact watched_of_empty rfl rfl
  | createServer appId iListenSd =>
      rw [socketStep] at hs'
      split_ifs at hs' with hexit
      obtain rfl := Option.some.inj hs'
      have hfd : 0 ≤ iListenSd := not_lt.mp fun hneg => hexit (.inr hneg)
      exact h.opens hfd hproper.2 (opens_createServer hproper.1 (hkeeps hfd))
  | accept evInfo accepted =>
      obtain rfl := Option.some.inj hs'
      by_cases hfree : socketUnused ∈ s.conns evInfo.iAppId
      · obtain ⟨hfd, hfresh⟩ := hproper.2.resolve_left fun hfailed => hkeeps hfailed hfree
        rw [socketAcceptConn_of_free hfree]
        exact h.attach hproper.1 hfd hfresh
      · rw [socketAcceptConn_of_full hfree]
        exact h.congr rfl rfl rfl
  | attach appId fd =>
      obtain rfl := Option.some.inj hs'
      exact h.attach hproper.1 hproper.2.1 hproper.2.2
  | dettach appId fd =>
      obtain rfl := Option.some.inj hs'
      exact h.dettach hproper
  | check available appId fd =>
      obtain rfl := Option.some.inj hs'
      unfold socketCheckConnection
      split_ifs
      · exact h.dettach hproper
      · exact h

/-- A call that does not: the listeners are wrong when it returns. -/
theorem State.Watched.keeps_of_after (h : s.Watched) (hproper : c.Proper s)
    (hafter : ListenersAfter c s) : c.Keeps s := by
  cases c with
  | createServer appId iListenSd =>
      intro hfd
      by_contra hold
      refine not_listenersExact_createServer h hproper.1 hold hproper.2 (hafter _ ?_)
      rw [socketStep, if_neg]
      rintro (hlarge | hneg)
      · exact absurd hproper.1 (not_lt.mpr (le_of_lt hlarge))
      · exact absurd hfd (not_le.mpr hneg)
  | accept evInfo accepted =>
      rintro rfl hfree
      have hexact := hafter _ rfl
      rw [socketAcceptConn_of_free hfree] at hexact
      have hmem : -1 ∈ (socketAttachConnection evInfo.iAppId (-1) s).2.sxSocketListeners := by
        unfold socketAttachConnection
        rw [if_pos hfree]
        exact Finset.mem_insert_self _ _
      exact absurd (hexact.nonneg (-1) hmem) (by decide)
  | init => trivial
  | attach appId fd => trivial
  | dettach appId fd => trivial
  | check available appId fd => trivial

/-- **Listeners.**  In every run of calls in which what is opened is not open, `select`
watches exactly what is open after every call, exactly when no call of `accept` fails while
the application has an unused slot, and no application gets a second server. -/
theorem listeners_exact_iff (cs : List SocketCall)
    (hproper : AlongSteps socketStep SocketCall.Proper cs socketInit) :
    AlongSteps socketStep ListenersAfter cs socketInit
      ↔ AlongSteps socketStep SocketCall.Keeps cs socketInit := by
  refine alongSteps_congr_of (I := State.Watched) hproper ?_ ?_ (watched_of_empty rfl rfl)
  · intro c s h hp
    constructor
    · exact h.keeps_of_after hp
    · intro hkeeps s' hs'
      exact (h.step hp hkeeps hs').listeners
  · intro c s s' h hp hafter hs'
    exact h.step hp (h.keeps_of_after hp hafter) hs'

end Runs

/-! ## A failure that is listened to -/

/-- The sniffer gets a server, and its `accept` fails. -/
def acceptFails : List SocketCall :=
  [.createServer snifferAppId 3, .accept ⟨snifferAppId, 3, .link⟩ (-1)]

/-- The value of the failure is entered in the set. -/
theorem accept_failure_listened :
    ¬ ∀ cs : List SocketCall, AlongSteps socketStep SocketCall.Proper cs socketInit →
      AlongSteps socketStep ListenersAfter cs socketInit := by
  intro h
  have hafter := h acceptFails (by decide +kernel)
  have hexact := (hafter.2 _ rfl).1 _ rfl
  exact absurd (hexact.nonneg (-1) (by decide)) (by decide)

/-- The rule applies to a run in which two clients come and one goes. -/
theorem two_clients_listeners_iff :
    AlongSteps socketStep ListenersAfter [.createServer snifferAppId 3,
        .accept ⟨snifferAppId, 3, .link⟩ 4, .attach usiAppId 9, .accept ⟨snifferAppId, 3, .link⟩ 5,
        .check 0 snifferAppId 4] socketInit
      ↔ AlongSteps socketStep SocketCall.Keeps [.createServer snifferAppId 3,
        .accept ⟨snifferAppId, 3, .link⟩ 4, .attach usiAppId 9, .accept ⟨snifferAppId, 3, .link⟩ 5,
        .check 0 snifferAppId 4] socketInit :=
  listeners_exact_iff _ (by decide +kernel)

end SocketHandler
