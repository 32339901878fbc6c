/-
# Nodes that are closed automatically

A client asks for nodes to be released when it goes away.  The table keeps an 8-bit count of
these requests for each node, and its functions read it in different ways:
`dlmsotcp_close_432` releases an entry whose count is 1, whether or not a node is there; a
join tells the client of a node whose count is 0; a leave clears the count before it is
looked at.

Beside a run stands for each node how often its auto close has been enabled since it was last
disabled, by a command, by a leave or by its release.  What is in the table is this number
modulo 256.
-/
import PlcManager.DlmsotcpBounds

namespace Dlmsotcp

/-! ## The number of requests -/

/-- The server, and how often the auto close of each node has been enabled since it was last
disabled. -/
abbrev Counted := Server × (ℕ → ℕ)

/-- The numbers after a message: command 5 enables, the commands 4 and 6 disable. -/
def Message.count (m : Message) (n : ℕ → ℕ) : ℕ → ℕ :=
  match m.deviceCommand with
  | some (cmd, d) => Function.update n d.toNat (if cmd = 5 then n d.toNat + 1 else 0)
  | none => n

/-- The numbers after a part of an event; a leave disables. -/
def Part.count : Part → (ℕ → ℕ) → ℕ → ℕ
  | message m, n => m.count n
  | leave usDstAddress, n => Function.update n usDstAddress.toNat 0
  | join .., n | record .., n => n

/-- The numbers after an event; the nodes that are released when the client goes away are
disabled by it. -/
def ServerEvent.count : ServerEvent → Server → (ℕ → ℕ) → ℕ → ℕ
  | closed, w, n => fun i =>
      if (w.core.xListNodesConnected.cell i).autocloseEnabled = 1 then 0 else n i
  | e, _, n => e.parts.foldl (fun n p => p.count n) n

/-- A step of the server with the numbers. -/
def stepCounted (clock : ℕ → ℕ) (e : ServerEvent) (x : Counted) : Option Counted :=
  (serverStep clock e x.1).map fun w' => (w', e.count x.1 x.2)

/-- At the start nothing has been enabled. -/
def startedCounted (appId : ℤ) (memory : ℕ → XDlmsMsg) (behind : ℕ → ConnectedNode) : Counted :=
  (serverStarted appId memory behind, fun _ => 0)

/-- The table counts modulo 256. -/
def Counts (s : State) (n : ℕ → ℕ) : Prop :=
  ∀ i < maxNumNodesConnected,
    (s.xListNodesConnected.cell i).autocloseEnabled = UInt8.ofNat (n i)

namespace Counts

variable {clock : ℕ → ℕ} {s t : State} {w w' : Server} {n : ℕ → ℕ} {p : Part} {ps : List Part}
  {e : ServerEvent} {i : ℕ} {node : ConnectedNode}

theorem of_nodes (h : Counts s n) (hnodes : t.xListNodesConnected = s.xListNodesConnected) :
    Counts t n := by
  intro i hi
  rw [hnodes]
  exact h i hi

/-- An entry is replaced, and its number with it. -/
theorem setNode (h : Counts s n) {k : ℕ}
    (hnode : i < maxNumNodesConnected → node.autocloseEnabled = UInt8.ofNat k) :
    Counts (s.setNode i node) (Function.update n i k) := by
  intro j hj
  rw [State.node_setNode]
  by_cases hji : j = i
  · subst hji
    rw [if_pos rfl, Function.update_self]
    exact hnode hj
  · rw [if_neg hji, Function.update_of_ne hji]
    exact h j hj

/-- An entry is replaced by one with the same count. -/
theorem setNode_same (h : Counts s n)
    (hnode : node.autocloseEnabled = (s.xListNodesConnected.cell i).autocloseEnabled) :
    Counts (s.setNode i node) n := by
  have hset : Counts (s.setNode i node) (Function.update n i (n i)) :=
    h.setNode fun hi => hnode.trans (h i hi)
  rwa [Function.update_eq_self] at hset

/-- Every part of an event keeps the numbers. -/
theorem part (h : Counts w.core n) (hw : p.step clock w = some w') :
    Counts w'.core (p.count n) := by
  cases p with
  | message m =>
      obtain ⟨t, ht, rfl⟩ := Option.map_eq_some_iff.mp hw
      have hnodes := handleMessage_nodes ht
      change Counts t (m.count n)
      unfold Message.count
      cases hcommand : m.deviceCommand with
      | none =>
          rw [hcommand] at hnodes
          exact h.of_nodes hnodes
      | some command =>
          rw [hcommand] at hnodes
          set node := (w.core.xListNodesConnected.cell command.2.toNat).command command.1
            with hnode
          refine Counts.of_nodes (s := w.core.setNode command.2.toNat node)
            (h.setNode fun hd => ?_) hnodes
          rw [hnode]
          unfold ConnectedNode.command
          dsimp only
          split_ifs
          · rw [h _ hd, UInt8.ofNat_add]
            rfl
          · rfl
  | join pucDeviceId ucDeviceIdLen usDstAddress pucMac =>
      obtain rfl := Option.some.inj hw
      have hset : Counts (w.core.setNode usDstAddress.toNat
          ((w.core.xListNodesConnected.cell usDstAddress.toNat).join pucDeviceId
            (joinLength ucDeviceIdLen) usDstAddress pucMac)) n := h.setNode_same rfl
      unfold Part.count
      rw [join_core]
      split_ifs
      · exact hset.of_nodes notifyClient_spec.1
      · exact hset
  | leave usDstAddress =>
      obtain rfl := Option.some.inj hw
      unfold Part.count
      rw [leave_core]
      exact (h.setNode fun _ => rfl).of_nodes notifyClient_spec.1
  | record ptrMsg k =>
      obtain rfl := Option.some.inj hw
      unfold Part.count
      rw [storeRecord_eq]
      split_ifs
      · exact h
      · exact h.setNode_same rfl

theorem parts (h : Counts w.core n) (hw : runSteps (Part.step clock) ps w = some w') :
    Counts w'.core (ps.foldl (fun n p => p.count n) n) := by
  induction ps generalizing w n with
  | nil => rwa [← Option.some.inj hw]
  | cons p ps ih =>
      obtain ⟨u, hu, hrest⟩ := Option.bind_eq_some_iff.mp hw
      exact ih (h.part hu) hrest

end Counts

/-! ## The release of the nodes -/

/-- The release requests that have been sent. -/
def State.releases (s : State) : List UInt16 :=
  s.trace.filterMap fun
    | .releaseRequest usDstAddress => some usDstAddress
    | _ => none

section Release

variable {s : State}

/-- `dlmsotcp_close_432` releases the entries whose count is 1, and no others. -/
theorem lastConnectionClosed_releases :
    (lastConnectionClosed s).releases = s.releases
        ++ ((List.range maxNumNodesConnected).filter fun i =>
          (s.xListNodesConnected.cell i).autocloseEnabled = 1).map
            (fun i => (s.xListNodesConnected.cell i).dstAddress)
      ∧ ∀ i, (lastConnectionClosed s).xListNodesConnected.cell i
        = if i < maxNumNodesConnected ∧ (s.xListNodesConnected.cell i).autocloseEnabled = 1
          then (s.xListNodesConnected.cell i).left else s.xListNodesConnected.cell i := by
  unfold lastConnectionClosed dlmsotcpClose432
  refine forRange_induction (fun n (t : State) =>
    t.releases = s.releases ++ ((List.range n).filter fun i =>
        (s.xListNodesConnected.cell i).autocloseEnabled = 1).map
          (fun i => (s.xListNodesConnected.cell i).dstAddress)
      ∧ ∀ i, t.xListNodesConnected.cell i
        = if i < n ∧ (s.xListNodesConnected.cell i).autocloseEnabled = 1
          then (s.xListNodesConnected.cell i).left else s.xListNodesConnected.cell i)
    (Nat.zero_le _) ⟨by simp [State.releases], by simp⟩ ?_
  rintro n t - - ⟨hreleases, hcells⟩
  have hcell : t.xListNodesConnected.cell n = s.xListNodesConnected.cell n := by
    rw [hcells, if_neg fun h => absurd h.1 (lt_irrefl n)]
  dsimp only
  rw [hcell, List.range_succ, List.filter_append, List.map_append]
  split_ifs with hone
  · constructor
    · have hemit : (t.emit [.selectApi t.siDlmsoctpAppId,
          .releaseRequest (s.xListNodesConnected.cell n).dstAddress]).releases
          = t.releases ++ [(s.xListNodesConnected.cell n).dstAddress] := List.filterMap_append
      apply hemit.trans
      rw [hreleases]
      simp [hone]
    · intro i
      rw [Mem.cell_store]
      by_cases hi : i = n
      · subst hi
        rw [if_pos rfl, if_pos ⟨Nat.lt_succ_self i, hone⟩]
        rfl
      · rw [if_neg hi, hcells]
        have hlt : i < n + 1 ↔ i < n := by omega
        simp only [hlt]
  · constructor
    · rw [hreleases]
      simp [hone]
    · intro i
      rw [hcells]
      by_cases hi : i = n
      · subst hi
        rw [if_neg fun h => hone h.2, if_neg fun h => hone h.2]
      · have hlt : i < n + 1 ↔ i < n := by omega
        simp only [hlt]

end Release

theorem ServerEvent.count_closed {w : Server} {n : ℕ → ℕ} {i : ℕ} : ServerEvent.closed.count w n i
    = if (w.core.xListNodesConnected.cell i).autocloseEnabled = 1 then 0 else n i := rfl

theorem Counts.closed {w : Server} {n : ℕ → ℕ} (h : Counts w.core n) :
    Counts (lastConnectionClosed w.core) (ServerEvent.closed.count w n) := by
  intro i hi
  rw [lastConnectionClosed_releases.2, ServerEvent.count_closed]
  by_cases hone : (w.core.xListNodesConnected.cell i).autocloseEnabled = 1
  · rw [if_pos ⟨hi, hone⟩, if_pos hone]
    rfl
  · rw [if_neg fun h => hone h.2, if_neg hone]
    exact h i hi

/-- **Every event keeps the numbers.** -/
theorem Counts.step {clock : ℕ → ℕ} {e : ServerEvent} {w w' : Server} {n : ℕ → ℕ}
    (h : Counts w.core n) (hw : serverStep clock e w = some w') :
    Counts w'.core (e.count w n) := by
  by_cases hclosed : e = .closed
  · subst hclosed
    obtain rfl := Option.some.inj hw
    dsimp only
    exact h.closed
  · obtain ⟨u, hu, hnodes⟩ := nodes_of_parts hclosed hw
    have hcount : e.count w n = e.parts.foldl (fun n p => p.count n) n := by
      cases e with
      | closed => exact absurd rfl hclosed
      | core | joinInd | leaveInd | response | dataInd => rfl
    have hbefore : (e.before w).core.xListNodesConnected = w.core.xListNodesConnected := by
      cases e with
      | core e =>
          cases e with
          | packet | confirm => rfl
      | closed | joinInd | leaveInd | response | dataInd => rfl
    rw [hcount]
    exact ((h.of_nodes hbefore).parts hu).of_nodes hnodes

/-- What is known in every state of a run. -/
structure Counted.Valid (x : Counted) : Prop where
  own : OwnAddress x.1.core
  counts : Counts x.1.core x.2

section Valid

variable {clock : ℕ → ℕ} {e : ServerEvent} {evs : List ServerEvent} {x x' : Counted}

theorem Counted.Valid.step (h : x.Valid) (hx : stepCounted clock e x = some x') : x'.Valid := by
  obtain ⟨w', hw', rfl⟩ := Option.map_eq_some_iff.mp hx
  exact ⟨h.own.step hw', h.counts.step hw'⟩

theorem valid_of_run (h : x.Valid) (hrun : runSteps (stepCounted clock) evs x = some x') :
    x'.Valid := by
  induction evs generalizing x with
  | nil => rwa [← Option.some.inj hrun]
  | cons e evs ih =>
      obtain ⟨u, hu, hrest⟩ := Option.bind_eq_some_iff.mp hrun
      exact ih (h.step hu) hrest

theorem valid_started (appId : ℤ) (memory : ℕ → XDlmsMsg) (behind : ℕ → ConnectedNode) :
    (startedCounted appId memory behind).Valid where
  own := ownAddress_started appId memory behind
  counts := by
    change Counts (started appId memory behind) fun _ => 0
    intro i hi
    exact ((started_spec appId memory behind).2.2.2 i hi).2

/-- The count in the table is 1 after 1, 257, 513, … requests. -/
theorem Counted.Valid.flag_eq_one_iff (h : x.Valid) {i : ℕ} (hi : i < maxNumNodesConnected) :
    (x.1.core.xListNodesConnected.cell i).autocloseEnabled = 1 ↔ x.2 i % 256 = 1 := by
  rw [h.counts i hi, ← UInt8.toNat_inj, UInt8.toNat_ofNat']
  rfl

theorem Counted.Valid.flag_eq_zero_iff (h : x.Valid) {i : ℕ} (hi : i < maxNumNodesConnected) :
    (x.1.core.xListNodesConnected.cell i).autocloseEnabled = 0 ↔ x.2 i % 256 = 0 := by
  rw [h.counts i hi, ← UInt8.toNat_inj, UInt8.toNat_ofNat']
  rfl

theorem Counted.Valid.dstAddress_eq (h : x.Valid) {i : ℕ} (hi : x.1.core.Connected i) :
    (x.1.core.xListNodesConnected.cell i).dstAddress = UInt16.ofNat i := by
  have hown := congrArg UInt16.ofNat (h.own i hi)
  rwa [UInt16.ofNat_toNat] at hown

end Valid

/-! ## When the client goes away -/

/-- When the last connection is closed, a release is requested of the nodes that are connected
and have auto close enabled, of each once and of no other one, and afterwards no node has auto
close enabled. -/
def ClosesExactly (clock : ℕ → ℕ) (e : ServerEvent) (x : Counted) : Prop :=
  match e with
  | .closed => ∀ x', stepCounted clock .closed x = some x' →
      x'.1.core.releases = x.1.core.releases
          ++ ((List.range maxNumNodesConnected).filter fun i =>
            x.1.core.Connected i ∧ 0 < x.2 i).map UInt16.ofNat
        ∧ ∀ i < maxNumNodesConnected, x'.2 i = 0
          ∧ (x'.1.core.xListNodesConnected.cell i).autocloseEnabled = 0
  | _ => True

/-- When the last connection is closed, auto close is enabled of connected nodes only, and of
each of them it has been enabled once, or 257, 513, … times. -/
def EnabledOnce (e : ServerEvent) (x : Counted) : Prop :=
  match e with
  | .closed => ∀ i < maxNumNodesConnected,
      x.2 i = 0 ∨ x.1.core.Connected i ∧ x.2 i % 256 = 1
  | _ => True

section Closes

variable {clock : ℕ → ℕ} {e : ServerEvent} {evs : List ServerEvent} {x : Counted}

theorem stepCounted_closed : stepCounted clock .closed x
    = some ({ x.1 with core := lastConnectionClosed x.1.core },
      ServerEvent.closed.count x.1 x.2) := rfl

theorem Counted.Valid.closesExactly_iff (h : x.Valid) :
    ClosesExactly clock e x ↔ EnabledOnce e x := by
  cases e with
  | core | joinInd | leaveInd | response | dataInd => exact Iff.rfl
  | closed =>
      have hspec := lastConnectionClosed_releases (s := x.1.core)
      constructor
      · intro hcloses i hi
        obtain ⟨hreleases, hafter⟩ := hcloses _ stepCounted_closed
        have hzero : ServerEvent.closed.count x.1 x.2 i = 0 := (hafter i hi).1
        rw [ServerEvent.count_closed] at hzero
        by_cases hone : (x.1.core.xListNodesConnected.cell i).autocloseEnabled = 1
        · refine .inr ⟨?_, (h.flag_eq_one_iff hi).mp hone⟩
          by_contra hno
          -- the release of an entry that is not in use goes to no node
          have hinvalid : (x.1.core.xListNodesConnected.cell i).dstAddress
              = cl432InvalidAddress := by
            by_contra hvalid
            exact hno ⟨hi, hvalid⟩
          have hmem : cl432InvalidAddress ∈ ((List.range maxNumNodesConnected).filter fun i =>
              (x.1.core.xListNodesConnected.cell i).autocloseEnabled = 1).map
                (fun i => (x.1.core.xListNodesConnected.cell i).dstAddress) :=
            List.mem_map.mpr ⟨i, List.mem_filter.mpr ⟨List.mem_range.mpr hi, by simpa using hone⟩,
              hinvalid⟩
          dsimp only at hreleases
          rw [hspec.1] at hreleases
          rw [List.append_cancel_left hreleases] at hmem
          obtain ⟨j, hj, hjinvalid⟩ := List.mem_map.mp hmem
          have hlt := List.mem_range.mp (List.mem_filter.mp hj).1
          unfold maxNumNodesConnected at hlt
          have hnat := congrArg UInt16.toNat hjinvalid
          rw [UInt16.toNat_ofNat_of_lt' (lt_trans hlt (by decide))] at hnat
          exact absurd hnat (by unfold cl432InvalidAddress; change ¬ j = 65535; omega)
        · exact .inl (by rwa [if_neg hone] at hzero)
      · rintro honce x' hx'
        obtain rfl := Option.some.inj hx'
        dsimp only
        have hflag : ∀ i < maxNumNodesConnected,
            (x.1.core.xListNodesConnected.cell i).autocloseEnabled = 1
              ↔ x.1.core.Connected i ∧ 0 < x.2 i := by
          intro i hi
          rw [h.flag_eq_one_iff hi]
          rcases honce i hi with hzero | ⟨hconnected, hone⟩
          · rw [hzero]
            simp
          · exact iff_of_true hone ⟨hconnected, by omega⟩
        have hzero : ∀ i < maxNumNodesConnected,
            ServerEvent.closed.count x.1 x.2 i = 0 := by
          intro i hi
          rw [ServerEvent.count_closed]
          split_ifs with hone
          · rfl
          · rcases honce i hi with hzero | ⟨-, hmod⟩
            · exact hzero
            · exact absurd ((h.flag_eq_one_iff hi).mpr hmod) hone
        refine ⟨?_, fun i hi => ⟨hzero i hi, ?_⟩⟩
        · refine hspec.1.trans (congrArg (x.1.core.releases ++ ·) ?_)
          have hfilter : ((List.range maxNumNodesConnected).filter fun i =>
              (x.1.core.xListNodesConnected.cell i).autocloseEnabled = 1)
              = (List.range maxNumNodesConnected).filter fun i =>
                x.1.core.Connected i ∧ 0 < x.2 i :=
            List.filter_congr fun i hi =>
              decide_eq_decide.mpr (hflag i (List.mem_range.mp hi))
          rw [hfilter]
          apply List.map_congr_left
          intro i hi
          have hi := (List.mem_filter.mp hi).2
          exact h.dstAddress_eq (of_decide_eq_true hi).1
        · rw [h.counts.closed i hi, hzero i hi]
          rfl

theorem Counted.Valid.alongSteps_closesExactly_iff (h : x.Valid) :
    AlongSteps (stepCounted clock) (ClosesExactly clock) evs x
      ↔ AlongSteps (stepCounted clock) EnabledOnce evs x :=
  alongSteps_congr (I := Counted.Valid) (fun _ _ h => h.closesExactly_iff)
    (fun _ _ _ h _ hs => h.step hs) h

end Closes

/-- **Auto close.**  In every run, whenever the last connection is closed, the nodes are
released that are connected and have auto close enabled, and afterwards no node has, exactly
if auto close is then enabled of connected nodes only and has been enabled of each of them
once, or once more than a multiple of 256 times. -/
theorem dlmsotcp_auto_close_iff (clock : ℕ → ℕ) (appId : ℤ) (memory : ℕ → XDlmsMsg)
    (behind : ℕ → ConnectedNode) (evs : List ServerEvent) :
    AlongSteps (stepCounted clock) (ClosesExactly clock) evs
        (startedCounted appId memory behind)
      ↔ AlongSteps (stepCounted clock) EnabledOnce evs (startedCounted appId memory behind) :=
  (valid_started appId memory behind).alongSteps_closesExactly_iff

/-- Node 7 joins, without an identifier. -/
def joinSeven : ServerEvent := .joinInd (.init fun _ => 0) 0 7 (.init fun _ => 0)

/-- The client enables the auto close of node 7. -/
def enableSeven : Message := ⟨1, 0, [5, 0, 7], by decide⟩

/-- A packet of commands is always processed to its end, and its commands are counted. -/
theorem exists_stepCounted_commands (clock : ℕ → ℕ) (fd : ℤ) {ms : List Message} (x : Counted)
    (hms : ∀ m ∈ ms, ¬ m.IsData) : ∃ w', stepCounted clock (.core (.packet fd (encodeAll ms))) x
      = some (w', ms.foldl (fun n m => m.count n) x.2) := by
  have hrun (s : State) : ∃ t, runSteps (handleMessage clock) ms s = some t := by
    induction ms generalizing s with
    | nil => exact ⟨s, rfl⟩
    | cons m ms ih =>
        obtain ⟨u, hu⟩ := exists_handleMessage clock s (hms m List.mem_cons_self)
        obtain ⟨t, ht⟩ := ih (fun m' hm' => hms m' (List.mem_cons_of_mem _ hm')) u
        exact ⟨t, by rw [runSteps_cons, hu]; exact ht⟩
  have hcount : ServerEvent.count (.core (.packet fd (encodeAll ms))) x.1 x.2
      = ms.foldl (fun n m => m.count n) x.2 := by
    change ((messages (encodeAll ms)).map Part.message).foldl (fun n p => p.count n) x.2 = _
    rw [messages_encodeAll, List.foldl_map]
    rfl
  obtain ⟨t, ht⟩ := hrun { x.1.core with siDlmsoctpDataFd := fd }
  have hstep : ∃ w', serverStep clock (.core (.packet fd (encodeAll ms))) x.1 = some w' := by
    rw [serverStep, step, dlmsotcpRxProcess_eq, messages_encodeAll, ht]
    exact ⟨_, rfl⟩
  obtain ⟨w', hw'⟩ := hstep
  exact ⟨w', by rw [stepCounted, hcount, hw']; rfl⟩

/-- Auto close of a connected node is enabled twice before the client goes away: the node is
not released. -/
theorem enabled_twice_not_released : ¬ ∀ (clock : ℕ → ℕ) (appId : ℤ) (memory : ℕ → XDlmsMsg)
    (behind : ℕ → ConnectedNode) (evs : List ServerEvent),
    AlongSteps (stepCounted clock) (ClosesExactly clock) evs
      (startedCounted appId memory behind) := by
  intro hclaim
  have honce := (valid_started 3 zeroMemory zeroNodes).alongSteps_closesExactly_iff.mp
    (hclaim (fun _ => 0) 3 zeroMemory zeroNodes
      [joinSeven, .core (.packet 7 (encodeAll [enableSeven, enableSeven])), .closed])
  have hcommands : ∀ m ∈ [enableSeven, enableSeven], ¬ m.IsData := by decide
  obtain ⟨-, hjoin⟩ := honce
  obtain ⟨-, hpacket⟩ := hjoin _ rfl
  obtain ⟨w', hw'⟩ := exists_stepCounted_commands (fun _ => 0) 7 _ hcommands
  obtain ⟨hclosed, -⟩ := hpacket _ hw'
  have htwo : [enableSeven, enableSeven].foldl (fun n m => m.count n) (fun _ => 0) 7 = 2 := by
    decide
  rcases hclosed 7 (by decide) with hzero | ⟨-, hone⟩
  · exact absurd (htwo.symm.trans hzero) (by decide)
  · exact absurd ((congrArg (· % 256) htwo).symm.trans hone) (by decide)

/-! ## What the client is told -/

/-- A join of the device `d` is told to the client, and a leave of it if it was connected,
exactly when its auto close is not enabled. -/
structure NotifiesAlike (d : UInt16) (x : Counted) : Prop where
  join : ∀ (pucDeviceId : Mem UInt8) (ucDeviceIdLen : UInt8) (pucMac : Mem UInt8),
    (dlmsotcpCl432JoinIndCb pucDeviceId ucDeviceIdLen d pucMac x.1).core.writes
      = x.1.core.writes ++ if x.2 d.toNat = 0 then
          [(x.1.core.siDlmsoctpDataFd, joinNotification d (joinLength ucDeviceIdLen)
            (pucDeviceId.slice 0 (joinLength ucDeviceIdLen).toNat) (pucMac.slice 0 6))]
        else []
  leave : x.1.core.Connected d.toNat →
    (dlmsotcpCl432LeaveIndCb d x.1).core.writes
      = x.1.core.writes ++ if x.2 d.toNat = 0 then
          [(x.1.core.siDlmsoctpDataFd, leaveNotification d)]
        else []

section Notifies

variable {d : UInt16} {x : Counted}

/-- A join is told if the count in the table is 0. -/
theorem writes_join (hfd : 0 < x.1.core.siDlmsoctpDataFd)
    (henable : x.1.core.iEnableNotifications = true) {pucDeviceId pucMac : Mem UInt8}
    {ucDeviceIdLen : UInt8} :
    (dlmsotcpCl432JoinIndCb pucDeviceId ucDeviceIdLen d pucMac x.1).core.writes
      = x.1.core.writes ++
        if (x.1.core.xListNodesConnected.cell d.toNat).autocloseEnabled = 0 then
          [(x.1.core.siDlmsoctpDataFd, joinNotification d (joinLength ucDeviceIdLen)
            (pucDeviceId.slice 0 (joinLength ucDeviceIdLen).toNat) (pucMac.slice 0 6))]
        else [] := by
  rw [join_core]
  split_ifs
  · rw [notifyClient_spec.2.2.2, if_pos ⟨hfd, henable⟩]
    rfl
  · exact (List.append_nil _).symm

/-- A leave is always told. -/
theorem writes_leave (hfd : 0 < x.1.core.siDlmsoctpDataFd)
    (henable : x.1.core.iEnableNotifications = true) :
    (dlmsotcpCl432LeaveIndCb d x.1).core.writes
      = x.1.core.writes ++ [(x.1.core.siDlmsoctpDataFd, leaveNotification d)] := by
  rw [leave_core, notifyClient_spec.2.2.2, if_pos ⟨hfd, henable⟩]
  rfl

theorem Counted.Valid.notifiesAlike_iff (h : x.Valid) (hfd : 0 < x.1.core.siDlmsoctpDataFd)
    (henable : x.1.core.iEnableNotifications = true) (hd : d.toNat < maxNumNodesConnected) :
    NotifiesAlike d x ↔ x.2 d.toNat = 0
      ∨ ¬ x.1.core.Connected d.toNat ∧ x.2 d.toNat % 256 ≠ 0 := by
  have hflag := h.flag_eq_zero_iff hd
  constructor
  · intro halike
    by_cases hzero : x.2 d.toNat = 0
    · exact .inl hzero
    refine .inr ⟨fun hconnected => ?_, fun hmod => ?_⟩
    · have hleave := halike.leave hconnected
      rw [writes_leave hfd henable, if_neg hzero] at hleave
      exact absurd (List.append_cancel_left hleave) (List.cons_ne_nil _ _)
    · have hjoin := halike.join (.init fun _ => 0) 0 (.init fun _ => 0)
      rw [writes_join hfd henable, if_pos (hflag.mpr hmod), if_neg hzero] at hjoin
      exact absurd (List.append_cancel_left hjoin) (List.cons_ne_nil _ _)
  · intro hcond
    constructor
    · intro pucDeviceId ucDeviceIdLen pucMac
      rw [writes_join hfd henable]
      rcases hcond with hzero | ⟨-, hmod⟩
      · rw [if_pos (hflag.mpr (by rw [hzero])), if_pos hzero]
      · rw [if_neg fun h => hmod (hflag.mp h), if_neg fun h => hmod (by rw [h])]
    · intro hconnected
      rcases hcond with hzero | ⟨hno, -⟩
      · rw [writes_leave hfd henable, if_pos hzero]
      · exact absurd hconnected hno

end Notifies

/-- **Notifications of joins and leaves.**  In every state of a run with notifications enabled
and a data socket, a join of a device and a leave of a connected one are told exactly when
the auto close of the device is not enabled, if and only if it is not enabled, or the device
is not connected and the count in the table has not come round to 0. -/
theorem dlmsotcp_notifications_alike_iff {clock : ℕ → ℕ} {appId : ℤ} {memory : ℕ → XDlmsMsg}
    {behind : ℕ → ConnectedNode} {evs : List ServerEvent} {x : Counted}
    (hrun : runSteps (stepCounted clock) evs (startedCounted appId memory behind) = some x)
    (hfd : 0 < x.1.core.siDlmsoctpDataFd) (henable : x.1.core.iEnableNotifications = true)
    {d : UInt16} (hd : d.toNat < maxNumNodesConnected) :
    NotifiesAlike d x ↔ x.2 d.toNat = 0
      ∨ ¬ x.1.core.Connected d.toNat ∧ x.2 d.toNat % 256 ≠ 0 :=
  (valid_of_run (valid_started appId memory behind) hrun).notifiesAlike_iff hfd henable hd

/-- The client asks for the list and enables the auto close of node 7, which has joined. -/
def enabledRun : List ServerEvent :=
  [joinSeven, .core (.packet 7 (encodeAll [listRequest, enableSeven]))]

/-- The state after it. -/
theorem exists_enabledRun : ∃ x, runSteps (stepCounted fun _ => 0) enabledRun
      (startedCounted 3 zeroMemory zeroNodes) = some x
    ∧ 0 < x.1.core.siDlmsoctpDataFd ∧ x.1.core.iEnableNotifications = true
    ∧ x.1.core.Connected 7 ∧ x.2 7 = 1 := by
  have hcommands : ∀ m ∈ [listRequest, enableSeven], ¬ m.IsData := by decide
  set u := dlmsotcpCl432JoinIndCb (.init fun _ => 0) 0 7 (.init fun _ => 0)
    (serverStarted 3 zeroMemory zeroNodes) with hu
  obtain ⟨w', hw'⟩ := exists_stepCounted_commands (fun _ => 0) 7 (u, fun _ => 0) hcommands
  have hjoin : stepCounted (fun _ => 0) joinSeven (startedCounted 3 zeroMemory zeroNodes)
      = some (u, fun _ => 0) := rfl
  have hrun : runSteps (stepCounted fun _ => 0) enabledRun (startedCounted 3 zeroMemory zeroNodes)
      = some (w', [listRequest, enableSeven].foldl (fun n m => m.count n) fun _ => 0) := by
    rw [enabledRun, runSteps_cons, hjoin, Option.bind_some, runSteps_cons, hw']
    rfl
  refine ⟨_, hrun, ?_⟩
  obtain ⟨w'', hserver, heq⟩ := Option.map_eq_some_iff.mp hw'
  obtain rfl : w'' = w' := congrArg Prod.fst heq
  rw [serverStep] at hserver
  obtain ⟨s, hs, rfl⟩ := Option.map_eq_some_iff.mp hserver
  obtain ⟨ws, hshows⟩ := step_packet_shows hs
  have hone : [listRequest, enableSeven].foldl (fun n m => m.count n) (fun _ => 0) 7 = 1 := by
    decide
  refine ⟨?_, ?_, ?_, hone⟩
  · rw [hshows.dataFd]
    decide
  · refine hshows.enable.mpr (.inr ?_)
    rw [messages_encodeAll]
    decide
  · apply (State.Connected.of_entries hshows.entries).mpr
    decide +kernel

/-- A leave of node 7, whose auto close is enabled, is told. -/
theorem leave_of_enabled_told : ¬ ∀ (clock : ℕ → ℕ) (appId : ℤ) (memory : ℕ → XDlmsMsg)
    (behind : ℕ → ConnectedNode) (evs : List ServerEvent) (x : Counted),
    runSteps (stepCounted clock) evs (startedCounted appId memory behind) = some x →
    0 < x.1.core.siDlmsoctpDataFd → x.1.core.iEnableNotifications = true →
    ∀ d : UInt16, d.toNat < maxNumNodesConnected → NotifiesAlike d x := by
  intro hclaim
  obtain ⟨x, hrun, hfd, henable, hconnected, hone⟩ := exists_enabledRun
  have hseven : (7 : UInt16).toNat < maxNumNodesConnected := by decide
  have halike := hclaim _ _ _ _ _ x hrun hfd henable 7 hseven
  have hvalid := valid_of_run (valid_started 3 zeroMemory zeroNodes) hrun
  rcases (hvalid.notifiesAlike_iff hfd henable hseven).mp halike with hzero | ⟨hno, -⟩
  · exact absurd (hone.symm.trans hzero) (by decide)
  · exact hno hconnected

/-- The rule applies to node 8, of which nothing is known in this state. -/
theorem dlmsotcp_notifications_alike_eight : ∃ x,
    runSteps (stepCounted fun _ => 0) enabledRun (startedCounted 3 zeroMemory zeroNodes) = some x
      ∧ (NotifiesAlike 8 x ↔ x.2 8 = 0 ∨ ¬ x.1.core.Connected 8 ∧ x.2 8 % 256 ≠ 0) := by
  obtain ⟨x, hrun, hfd, henable, -⟩ := exists_enabledRun
  exact ⟨x, hrun, dlmsotcp_notifications_alike_iff hrun hfd henable (d := 8) (by decide)⟩

end Dlmsotcp
