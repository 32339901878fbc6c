/-
# The view of the concentrator

The concentrator asks for the list of the connected nodes once (command 3) and is told of
every node that joins or leaves from then on.  What it has been told since then, replayed,
is the table of the connected nodes, as long as no page of the list of the base node comes
later with a node that has not been told: pages change the table, and nobody is told.
-/
import PlcManager.DlmsotcpBounds
import PlcManager.DlmsotcpFormat

namespace Dlmsotcp

/-! ## Replay -/

/-- What a message to the concentrator notifies: the type (1 a new node, 2 a node that has
left) and the device. -/
def notified (bytes : List UInt8) : Option (UInt8 × ℕ) :=
  if bytes.take 7 = [0, 1, 0, 0, 0, 1, 0] then
    match bytes.drop 8 with
    | kind :: hi :: lo :: _ => some (kind, (word hi lo).toNat)
    | _ => none
  else none

/-- The nodes the concentrator knows of after one more notification. -/
def replayOne (view : Finset ℕ) (notification : Option (UInt8 × ℕ)) : Finset ℕ :=
  match notification with
  | none => view
  | some (kind, i) => if kind = 1 then insert i view else if kind = 2 then view.erase i else view

/-- The nodes the concentrator knows of after what has been written. -/
def replay (view : Finset ℕ) (ws : List (ℤ × List UInt8)) : Finset ℕ :=
  ws.foldl (fun view x => replayOne view (notified x.2)) view

/-- The used entries of the table. -/
def State.connectedNodes (s : State) : Finset ℕ :=
  (Finset.range maxNumNodesConnected).filter fun i => s.Connected i

section Replay

variable {view : Finset ℕ} {ws vs : List (ℤ × List UInt8)} {s t : State} {i j : ℕ}
  {usDstAddress : UInt16} {n : UInt8} {deviceId mac : List UInt8}

@[simp] theorem replay_nil : replay view [] = view := rfl

theorem replay_cons {x : ℤ × List UInt8} :
    replay view (x :: ws) = replay (replayOne view (notified x.2)) ws := rfl

theorem replay_append : replay view (ws ++ vs) = replay (replay view ws) vs := List.foldl_append

theorem State.mem_connectedNodes : i ∈ s.connectedNodes ↔ s.Connected i := by
  unfold connectedNodes
  rw [Finset.mem_filter, Finset.mem_range, and_iff_right_iff_imp]
  exact fun h => h.1

/-- New nodes are added to the view, and nothing else happens. -/
theorem mem_replay_of_new (hnew : ∀ x ∈ ws, ∀ k j, notified x.2 = some (k, j) → k = 1) :
    j ∈ replay view ws ↔ j ∈ view ∨ ∃ x ∈ ws, notified x.2 = some (1, j) := by
  induction ws generalizing view with
  | nil => simp
  | cons x ws ih =>
      rw [replay_cons, ih fun y hy => hnew y (List.mem_cons_of_mem _ hy),
        List.exists_mem_cons_iff, ← or_assoc]
      apply or_congr_left
      rcases hx : notified x.2 with _ | ⟨k, i⟩
      · simp [replayOne]
      · have hk : k = 1 := hnew x List.mem_cons_self k i hx
        subst hk
        simp only [replayOne, if_true, Finset.mem_insert, Option.some.injEq, Prod.mk.injEq,
          true_and]
        rw [or_comm, eq_comm]

/-- A NEW_DEVICE notification that has not been cut before the device. -/
theorem notified_join : notified (joinNotification usDstAddress n deviceId mac)
    = if 11 ≤ (20 + n).toNat then some (1, usDstAddress.toNat) else none := by
  have hbytes : joinNotification usDstAddress n deviceId mac
      = ([0, 1, 0, 0, 0, 1, 0, 12 + n, 1, (usDstAddress >>> 8).toUInt8, usDstAddress.toUInt8]
          ++ ([0, 1, n] ++ deviceId ++ mac)).take (20 + n).toNat := rfl
  rw [hbytes]
  split_ifs with h
  · obtain ⟨k, hk⟩ := Nat.exists_eq_add_of_le' h
    rw [hk]
    change some ((1 : UInt8), (word (usDstAddress >>> 8).toUInt8 usDstAddress.toUInt8).toNat) = _
    rw [word_bytes]
  · generalize (20 + n).toNat = k at h
    interval_cases k <;> simp [notified]

theorem notified_leave :
    notified (leaveNotification usDstAddress) = some (2, usDstAddress.toNat) := by
  change some ((2 : UInt8), (word (usDstAddress >>> 8).toUInt8 usDstAddress.toUInt8).toNat) = _
  rw [word_bytes]

/-- A node is told with its own address, if its identifier leaves room for it. -/
theorem notified_line {x : ℤ × List UInt8} (hown : OwnAddress s) (hi : s.Connected i)
    (hx : s.IsListLine i x) : notified x.2
      = if 11 ≤ (20 + (s.xListNodesConnected.cell i).lenSerialNumber).toNat then some (1, i)
        else none := by
  obtain ⟨nodes, hentries, rfl⟩ := hx
  obtain ⟨count, hcount⟩ := hentries i
  dsimp only
  rw [newDeviceNotification_eq, notified_join, hcount]
  dsimp only
  rw [hown i hi]

end Replay

/-! ## Entries that are not to be closed -/

/-- No entry is to be closed automatically. -/
def State.NoAutoClose (s : State) : Prop :=
  ∀ i < maxNumNodesConnected, (s.xListNodesConnected.cell i).autocloseEnabled = 0

/-- Command 5. -/
def Message.IsAutoClose (m : Message) : Prop := ¬ m.IsData ∧ m.payload.head? = some 5

instance (m : Message) : Decidable m.IsAutoClose := inferInstanceAs (Decidable (_ ∧ _))

namespace State.NoAutoClose

variable {clock : ℕ → ℕ} {s t : State} {m : Message} {ms : List Message} {i : ℕ}
  {node : ConnectedNode}

theorem of_nodes (h : s.NoAutoClose) (hnodes : t.xListNodesConnected = s.xListNodesConnected) :
    t.NoAutoClose := by
  intro i hi
  rw [hnodes]
  exact h i hi

theorem setNode (h : s.NoAutoClose)
    (hnode : node.autocloseEnabled = 0
      ∨ node.autocloseEnabled = (s.xListNodesConnected.cell i).autocloseEnabled) :
    (s.setNode i node).NoAutoClose := by
  intro j hj
  rw [node_setNode]
  split_ifs with hji
  · subst hji
    rcases hnode with hzero | hsame
    · exact hzero
    · exact hsame.trans (h j hj)
  · exact h j hj

/-- Only command 5 asks for it. -/
theorem handleMessage (h : s.NoAutoClose) (hm : ¬ m.IsAutoClose)
    (ht : handleMessage clock m s = some t) : t.NoAutoClose := by
  have hnodes := handleMessage_nodes ht
  rcases hcommand : m.deviceCommand with _ | ⟨cmd, d⟩
  · rw [hcommand] at hnodes
    exact h.of_nodes hnodes
  · rw [hcommand] at hnodes
    have h5 : cmd ≠ 5 := by
      rintro rfl
      exact hm (Message.deviceCommand_head hcommand)
    have hset : (s.setNode d.toNat
        ((s.xListNodesConnected.cell d.toNat).command cmd)).NoAutoClose :=
      h.setNode (.inl (if_neg h5))
    exact hset.of_nodes hnodes

theorem runSteps (h : s.NoAutoClose) (hms : ∀ m ∈ ms, ¬ m.IsAutoClose)
    (ht : runSteps (Dlmsotcp.handleMessage clock) ms s = some t) : t.NoAutoClose := by
  induction ms generalizing s with
  | nil => exact Option.some.inj ht ▸ h
  | cons m ms ih =>
      obtain ⟨u, hu, hrest⟩ := Option.bind_eq_some_iff.mp ht
      exact ih (h.handleMessage (hms m List.mem_cons_self) hu)
        (fun q hq => hms q (List.mem_cons_of_mem _ hq)) hrest

theorem packet {fd : ℤ} {buf : List UInt8} (h : s.NoAutoClose)
    (hms : ∀ m ∈ messages buf, ¬ m.IsAutoClose) (ht : step clock (.packet fd buf) s = some t) :
    t.NoAutoClose := by
  obtain ⟨outs, -, hstep⟩ := step_packet clock fd buf
  rw [hstep] at ht
  obtain ⟨u, hu, rfl⟩ := Option.map_eq_some_iff.mp ht
  have hstart : State.NoAutoClose { s with siDlmsoctpDataFd := fd } := h
  exact (hstart.runSteps hms hu).of_nodes rfl

theorem listRecords {ptrMsg : Mem UInt8} (h : s.NoAutoClose) :
    (listRecords ptrMsg s).NoAutoClose := by
  unfold Dlmsotcp.listRecords
  apply forRange_invariant (fun t : State => t.NoAutoClose) h
  intro i t _ _ ht
  rw [storeRecord_eq]
  split_ifs
  · exact ht
  · exact ht.setNode (.inr rfl)

theorem closed (h : s.NoAutoClose) : (lastConnectionClosed s).NoAutoClose := by
  intro i hi
  rcases lastConnectionClosed_spec.2.2 i with hcell | hcell
  · rw [hcell]
    exact h i hi
  · rw [hcell]
    rfl

end State.NoAutoClose

/-! ## What the events do to the table -/

/-- The nodes that a page of the list is about. -/
def Listed (ptrMsg : Mem UInt8) (n i : ℕ) : Prop :=
  ∃ k < n, ¬ IsBroadcast (recordAddress ptrMsg k) ∧ (recordAddress ptrMsg k).toNat = i

section Tables

variable {clock : ℕ → ℕ} {s t : State} {w w' : Server} {i j : ℕ} {ptrMsg : Mem UInt8}
  {bytes : List UInt8} {usDstAddress : UInt16}

theorem ne_invalid_of_lt (h : usDstAddress.toNat < maxNumNodesConnected) :
    usDstAddress ≠ cl432InvalidAddress := by
  rintro rfl
  exact absurd h (by decide)

/-- A page adds its nodes to the used entries. -/
theorem connected_listRecords
    (hsmall : ∀ i, Listed ptrMsg (ptrMsg.cell 5).toNat i → i < maxNumNodesConnected) :
    (listRecords ptrMsg s).Connected j
      ↔ s.Connected j ∨ Listed ptrMsg (ptrMsg.cell 5).toNat j := by
  unfold listRecords
  refine forRange_induction (fun k (t : State) => k ≤ (ptrMsg.cell 5).toNat →
    (t.Connected j ↔ s.Connected j ∨ Listed ptrMsg k j)) (Nat.zero_le _) ?_ ?_ le_rfl
  · intro _
    unfold Listed
    simp
  · intro k t _ hk ht _
    have hlisted : Listed ptrMsg (k + 1) j ↔ Listed ptrMsg k j
        ∨ ¬ IsBroadcast (recordAddress ptrMsg k) ∧ (recordAddress ptrMsg k).toNat = j :=
      Nat.exists_lt_succ_right
    rw [storeRecord_eq, hlisted, ← or_assoc, ← ht hk.le]
    split_ifs with hbroadcast
    · simp [hbroadcast]
    · rw [State.connected_setNode]
      by_cases hj : j = (recordAddress ptrMsg k).toNat
      · have hlt := hsmall _ ⟨k, hk, hbroadcast, rfl⟩
        rw [if_pos hj]
        exact iff_of_true ⟨hlt, ne_invalid_of_lt hlt⟩ (.inr ⟨hbroadcast, hj.symm⟩)
      · rw [if_neg hj]
        simp [Ne.symm hj]

/-- A page leaves the used entries as they are exactly when its nodes are in the table. -/
theorem connectedNodes_listRecords_iff
    (hsmall : ∀ i, Listed ptrMsg (ptrMsg.cell 5).toNat i → i < maxNumNodesConnected) :
    s.connectedNodes = (listRecords ptrMsg s).connectedNodes
      ↔ ∀ i, Listed ptrMsg (ptrMsg.cell 5).toNat i → s.Connected i := by
  constructor
  · intro hsame i hi
    rw [← State.mem_connectedNodes, hsame, State.mem_connectedNodes, connected_listRecords hsmall]
    exact .inr hi
  · intro hknown
    ext j
    rw [State.mem_connectedNodes, State.mem_connectedNodes, connected_listRecords hsmall]
    exact (or_iff_left_of_imp (hknown j)).symm

/-- The identifier of a join leaves room for the device. -/
theorem joinLength_room {n : UInt8} : 11 ≤ (20 + joinLength n).toNat := by
  rw [toNat_add_of_le (by decide) joinLength_le]
  exact (by decide : 11 ≤ (20 : UInt8).toNat).trans (Nat.le_add_right ..)

/-- With a client that wants to know, what it is told is written. -/
theorem writes_notifyClient (hfd : 0 < s.siDlmsoctpDataFd)
    (henable : s.iEnableNotifications = true) :
    (notifyClient bytes s).writes = s.writes ++ [(s.siDlmsoctpDataFd, bytes)] := by
  rw [notifyClient_spec.2.2.2, if_pos ⟨hfd, henable⟩]

theorem connectedNodes_of_nodes (h : t.xListNodesConnected = s.xListNodesConnected) :
    t.connectedNodes = s.connectedNodes := by
  ext i
  rw [State.mem_connectedNodes, State.mem_connectedNodes]
  unfold State.Connected
  rw [h]

theorem connectedNodes_of_entries
    (h : SameEntries s.xListNodesConnected t.xListNodesConnected) :
    t.connectedNodes = s.connectedNodes := by
  ext i
  rw [State.mem_connectedNodes, State.mem_connectedNodes, State.Connected.of_entries h]

end Tables

/-! ## The watched module -/

/-- The module, and how much had been written when the client sent command 3. -/
structure Watched where
  server : Server
  asked : Option ℕ

/-- The event brings command 3. -/
def ServerEvent.AsksList : ServerEvent → Prop
  | .core (.packet _ buf) => ∃ m ∈ messages buf, m.AsksList
  | _ => False

instance : DecidablePred ServerEvent.AsksList
  | .core (.packet _ buf) => inferInstanceAs (Decidable (∃ m ∈ messages buf, m.AsksList))
  | .core (.confirm ..) => isFalse id
  | .closed => isFalse id
  | .joinInd .. => isFalse id
  | .leaveInd _ => isFalse id
  | .response .. => isFalse id
  | .dataInd .. => isFalse id

/-- The first command 3 is remembered. -/
def Watched.after (x : Watched) (e : ServerEvent) : Option ℕ :=
  match x.asked with
  | some n => some n
  | none => if e.AsksList then some x.server.core.writes.length else none

/-- A step of the module. -/
def watchedStep (clock : ℕ → ℕ) (e : ServerEvent) (x : Watched) : Option Watched :=
  (serverStep clock e x.server).map fun w => ⟨w, x.after e⟩

/-- The module after `dlmsotcp_init`, before any client. -/
def watchedStarted (appId : ℤ) (memory : ℕ → XDlmsMsg) (behind : ℕ → ConnectedNode) : Watched :=
  ⟨serverStarted appId memory behind, none⟩

/-- What has been written since command 3, replayed, is the table of the nodes. -/
def Watched.Agrees (x : Watched) : Prop :=
  ∀ n, x.asked = some n →
    replay ∅ (x.server.core.writes.drop n) = x.server.core.connectedNodes

/-- The view agrees with the table after the event. -/
def AgreesAfter (clock : ℕ → ℕ) (e : ServerEvent) (x : Watched) : Prop :=
  ∀ x', watchedStep clock e x = some x' → x'.Agrees

/-- The runs looked at: joins, leaves, responses and messages of the concentrator, with
addresses inside the table and without auto close, and a client that stays connected once
it has sent command 3. -/
def StaysConnected (e : ServerEvent) (x : Watched) : Prop :=
  match e with
  | .core (.packet fd buf) => 0 < fd ∧ (∀ m ∈ messages buf, ¬ m.IsAutoClose)
      ∧ (x.asked.isSome → fd = x.server.core.siDlmsoctpDataFd)
  | .core (.confirm ..) => True
  | .closed => x.asked = none
  | .joinInd _ _ usDstAddress _ => usDstAddress.toNat < maxNumNodesConnected
  | .leaveInd usDstAddress => usDstAddress.toNat < maxNumNodesConnected
  | .response ptrMsg len => IsNodeList ptrMsg len →
      ∀ i, Listed ptrMsg (ptrMsg.cell 5).toNat i → i < maxNumNodesConnected
  | .dataInd .. => False

/-- The client has been told: a page that comes after command 3 is about nodes that are in
the table, and the list that answers command 3 leaves out no node because of the length of
its identifier. -/
def ToldBefore (e : ServerEvent) (x : Watched) : Prop :=
  match e with
  | .core (.packet _ buf) => x.asked = none → (∃ m ∈ messages buf, m.AsksList) →
      ∀ i, x.server.core.Connected i →
        11 ≤ (20 + (x.server.core.xListNodesConnected.cell i).lenSerialNumber).toNat
  | .response ptrMsg len => x.asked.isSome → IsNodeList ptrMsg len →
      ∀ i, Listed ptrMsg (ptrMsg.cell 5).toNat i → x.server.core.Connected i
  | _ => True

/-- What holds as long as the view has agreed. -/
structure Watched.Ok (x : Watched) : Prop where
  own : OwnAddress x.server.core
  noAutoClose : x.server.core.NoAutoClose
  agrees : x.Agrees
  asked : ∀ n, x.asked = some n → n ≤ x.server.core.writes.length
    ∧ 0 < x.server.core.siDlmsoctpDataFd ∧ x.server.core.iEnableNotifications = true

/-! ## Steps -/

section Steps

variable {clock : ℕ → ℕ} {e : ServerEvent} {x x' : Watched} {w : Server} {s : State} {n i j : ℕ}
  {ws : List (ℤ × List UInt8)} {usDstAddress len : UInt16} {ptrMsg : Mem UInt8}

theorem Watched.after_of_asked (hn : x.asked = some n) : x.after e = some n := by
  unfold after
  rw [hn]

theorem Watched.after_of_not_asks (h : ¬ e.AsksList) : x.after e = x.asked := by
  unfold after
  rcases x.asked with _ | n
  · exact if_neg h
  · rfl

/-- What is written later is replayed later. -/
theorem Watched.Ok.agrees_iff (h : x.Ok) (hn : x.asked = some n) (hn' : x'.asked = some n)
    (hwrites : x'.server.core.writes = x.server.core.writes ++ ws) :
    x'.Agrees ↔ replay x.server.core.connectedNodes ws = x'.server.core.connectedNodes := by
  have hview : replay ∅ (x'.server.core.writes.drop n)
      = replay x.server.core.connectedNodes ws := by
    rw [hwrites, List.drop_append_of_le_length (h.asked n hn).1, replay_append, h.agrees n hn]
  constructor
  · intro hagrees
    rw [← hview, hagrees n hn']
  · intro hreplay k hk
    obtain rfl : n = k := Option.some.inj (hn'.symm.trans hk)
    rw [hview, hreplay]

/-- Before command 3 there is nothing to agree with. -/
theorem Watched.agrees_of_not_asked (h : x.asked = none) : x.Agrees := by
  intro n hn
  rw [h] at hn
  cases hn

/-- Before command 3, and after it when the client is still there, an event that leaves
the view in agreement leaves all in order. -/
theorem Watched.Ok.of_agrees (h : x.Ok) (hown : OwnAddress x'.server.core)
    (hauto : x'.server.core.NoAutoClose) (hasked : x'.asked = x.asked)
    (hwrites : ∃ ws, x'.server.core.writes = x.server.core.writes ++ ws)
    (hfd : x.asked.isSome → x'.server.core.siDlmsoctpDataFd = x.server.core.siDlmsoctpDataFd)
    (henable : x.server.core.iEnableNotifications = true →
      x'.server.core.iEnableNotifications = true) (hagrees : x'.Agrees) : x'.Ok := by
  refine ⟨hown, hauto, hagrees, ?_⟩
  intro n hn
  rw [hasked] at hn
  obtain ⟨hle, hpos, henabled⟩ := h.asked n hn
  obtain ⟨ws, hws⟩ := hwrites
  refine ⟨?_, ?_, henable henabled⟩
  · rw [hws, List.length_append]
    exact hle.trans (Nat.le_add_right ..)
  · rwa [hfd (by rw [hn]; rfl)]

/-- Nothing that matters happens. -/
theorem Watched.Ok.congr (h : x.Ok) (hcore : x'.server.core = x.server.core)
    (hasked : x'.asked = x.asked) : x'.Ok := by
  constructor
  · rw [hcore]
    exact h.own
  · rw [hcore]
    exact h.noAutoClose
  · intro n hn
    rw [hcore]
    exact h.agrees n (hasked.symm.trans hn)
  · intro n hn
    rw [hcore]
    exact h.asked n (hasked.symm.trans hn)

/-- The lines of a list are about used entries. -/
theorem notified_lines {asked : Prop} {t : State} {y : ℤ × List UInt8} {k : UInt8}
    (hown : OwnAddress s) (hs : s.Shows t asked ws) (hy : y ∈ ws)
    (hk : notified y.2 = some (k, j)) : k = 1 ∧ s.Connected j
      ∧ 11 ≤ (20 + (s.xListNodesConnected.cell j).lenSerialNumber).toNat := by
  obtain ⟨-, -, i, hi, hline⟩ := hs.lines y hy
  rw [notified_line hown hi hline] at hk
  split_ifs at hk with hlong
  obtain ⟨rfl, rfl⟩ := Prod.mk.inj (Option.some.inj hk)
  exact ⟨rfl, hi, hlong⟩

/-- The nodes that a list tells. -/
theorem mem_replay_list {asked : Prop} {t : State} (hown : OwnAddress s)
    (hs : s.Shows t asked ws) (hfd : 0 < s.siDlmsoctpDataFd) (hasked : asked) :
    j ∈ replay ∅ ws ↔ s.Connected j
      ∧ 11 ≤ (20 + (s.xListNodesConnected.cell j).lenSerialNumber).toNat := by
  rw [mem_replay_of_new fun y hy k i hk => (notified_lines hown hs hy hk).1]
  constructor
  · rintro (hempty | ⟨y, hy, hnotified⟩)
    · exact absurd hempty (Finset.notMem_empty j)
    · exact (notified_lines hown hs hy hnotified).2
  · rintro ⟨hj, hlong⟩
    obtain ⟨y, hy, hline⟩ := hs.complete hfd hasked j hj
    exact .inr ⟨y, hy, by rw [notified_line hown hj hline, if_pos hlong]⟩

/-- What is told again is known. -/
theorem replay_list_again {asked : Prop} {t : State} (hown : OwnAddress s)
    (hs : s.Shows t asked ws) : replay s.connectedNodes ws = s.connectedNodes := by
  ext j
  rw [mem_replay_of_new fun y hy k i hk => (notified_lines hown hs hy hk).1]
  apply or_iff_left_of_imp
  rintro ⟨y, hy, hnotified⟩
  exact State.mem_connectedNodes.mpr (notified_lines hown hs hy hnotified).2.1

/-- The first command 3: the answer is the table, if no node is left out. -/
theorem first_packet_told {fd : ℤ} {buf : List UInt8} (h : x.Ok)
    (hstays : StaysConnected (.core (.packet fd buf)) x) (hasked : x.asked = none)
    (hasks : ∃ m ∈ messages buf, m.AsksList)
    (hx : watchedStep clock (.core (.packet fd buf)) x = some x') :
    (x'.Agrees ↔ ToldBefore (.core (.packet fd buf)) x) ∧ (x'.Agrees → x'.Ok) := by
  obtain ⟨w, hw, rfl⟩ := Option.map_eq_some_iff.mp hx
  have hown' := h.own.step hw
  obtain ⟨t, ht, rfl⟩ := Option.map_eq_some_iff.mp hw
  obtain ⟨ws, hshows⟩ := step_packet_shows ht
  obtain ⟨hfd, hno, -⟩ := hstays
  have hnodes : t.connectedNodes = x.server.core.connectedNodes :=
    connectedNodes_of_entries hshows.entries
  have hdata : t.siDlmsoctpDataFd = fd := hshows.dataFd
  have hwrites : t.writes = x.server.core.writes ++ ws := hshows.writes
  have hafter : x.after (.core (.packet fd buf)) = some x.server.core.writes.length := by
    unfold Watched.after
    rw [hasked]
    exact if_pos hasks
  have hmem (j : ℕ) : j ∈ replay ∅ ws ↔ x.server.core.Connected j
      ∧ 11 ≤ (20 + (x.server.core.xListNodesConnected.cell j).lenSerialNumber).toNat :=
    mem_replay_list (s := { x.server.core with siDlmsoctpDataFd := fd }) h.own hshows hfd hasks
  refine ⟨⟨?_, ?_⟩, ?_⟩
  · intro hagrees _ _ i hi
    have hreplay := hagrees _ hafter
    dsimp only at hreplay
    rw [hwrites, List.drop_left, hnodes] at hreplay
    have hi' := State.mem_connectedNodes.mpr hi
    rw [← hreplay] at hi'
    exact ((hmem i).mp hi').2
  · intro htold k hk
    obtain rfl : x.server.core.writes.length = k := Option.some.inj (hafter.symm.trans hk)
    dsimp only
    rw [hwrites, List.drop_left, hnodes]
    ext j
    rw [hmem, State.mem_connectedNodes]
    exact and_iff_left_of_imp (htold hasked hasks j)
  · intro hagrees
    refine ⟨hown', h.noAutoClose.packet hno ht, hagrees, fun k hk => ?_⟩
    obtain rfl : x.server.core.writes.length = k := Option.some.inj (hafter.symm.trans hk)
    refine ⟨?_, ?_, hshows.enable.mpr (.inr hasks)⟩
    · dsimp only
      rw [hwrites, List.length_append]
      exact Nat.le_add_right ..
    · dsimp only
      rwa [hdata]

/-- Every other packet keeps what holds. -/
theorem packet_ok {fd : ℤ} {buf : List UInt8} (h : x.Ok)
    (hstays : StaysConnected (.core (.packet fd buf)) x)
    (hfirst : x.asked = none → ¬ ∃ m ∈ messages buf, m.AsksList)
    (hx : watchedStep clock (.core (.packet fd buf)) x = some x') : x'.Ok := by
  obtain ⟨w, hw, rfl⟩ := Option.map_eq_some_iff.mp hx
  have hown' := h.own.step hw
  obtain ⟨t, ht, rfl⟩ := Option.map_eq_some_iff.mp hw
  obtain ⟨ws, hshows⟩ := step_packet_shows ht
  obtain ⟨-, hno, hsame⟩ := hstays
  have hwrites : t.writes = x.server.core.writes ++ ws := hshows.writes
  have hafter : x.after (.core (.packet fd buf)) = x.asked := by
    rcases hasked : x.asked with _ | n
    · rw [Watched.after_of_not_asks (e := .core (.packet fd buf)) (hfirst hasked), hasked]
    · exact Watched.after_of_asked hasked
  refine h.of_agrees hown' (h.noAutoClose.packet hno ht) hafter ⟨ws, hwrites⟩ ?_ ?_ ?_
  · intro hasked
    exact hshows.dataFd.trans (hsame hasked)
  · exact fun henable => hshows.enable.mpr (.inl henable)
  · rcases hasked : x.asked with _ | n
    · exact Watched.agrees_of_not_asked (hafter.trans hasked)
    · rw [h.agrees_iff hasked (hafter.trans hasked) hwrites]
      have hnodes : t.connectedNodes = x.server.core.connectedNodes :=
        connectedNodes_of_entries hshows.entries
      dsimp only
      rw [hnodes]
      exact replay_list_again (s := { x.server.core with siDlmsoctpDataFd := fd }) h.own hshows

/-- A confirm is not seen. -/
theorem confirm_ok {ucDstLsap ucSrcLsap ucTxStatus : UInt8} (h : x.Ok)
    (hx : watchedStep clock (.core (.confirm ucDstLsap ucSrcLsap usDstAddress ucTxStatus)) x
      = some x') : x'.Ok := by
  obtain ⟨w, hw, rfl⟩ := Option.map_eq_some_iff.mp hx
  have hown' := h.own.step hw
  obtain ⟨t, ht, rfl⟩ := Option.map_eq_some_iff.mp hw
  have ht : dlmsotcpCl432DlDataCfmCb clock ucDstLsap ucSrcLsap usDstAddress ucTxStatus
      x.server.core = some t := ht
  have hsame := State.SameNodes.confirm ht
  have hwrites : t.writes = x.server.core.writes ++ [] := by rw [hsame.writes, List.append_nil]
  refine h.of_agrees hown' (h.noAutoClose.of_nodes hsame.nodes) (Watched.after_of_not_asks id)
    ⟨[], hwrites⟩ (fun _ => hsame.dataFd) (fun henable => hsame.enable.trans henable) ?_
  rcases hasked : x.asked with _ | n
  · exact Watched.agrees_of_not_asked ((Watched.after_of_not_asks id).trans hasked)
  · rw [h.agrees_iff hasked ((Watched.after_of_not_asks id).trans hasked) hwrites]
    exact (connectedNodes_of_nodes hsame.nodes).symm

/-- The client goes only before command 3. -/
theorem closed_ok (h : x.Ok) (hstays : StaysConnected .closed x)
    (hx : watchedStep clock .closed x = some x') : x'.Ok := by
  obtain ⟨w, hw, rfl⟩ := Option.map_eq_some_iff.mp hx
  have hown' := h.own.step hw
  obtain rfl := Option.some.inj hw
  have hafter : x.after .closed = none := (Watched.after_of_not_asks id).trans hstays
  refine ⟨hown', ?_, Watched.agrees_of_not_asked hafter, fun n hn => ?_⟩
  · dsimp only
    exact h.noAutoClose.closed
  · rw [hafter] at hn
    cases hn

/-- A change of an entry that is told. -/
theorem told_ok {bytes : List UInt8} {node : ConnectedNode} (h : x.Ok)
    (hcore : x'.server.core = notifyClient bytes (x.server.core.setNode i node))
    (hasked : x'.asked = x.asked) (hown : OwnAddress x'.server.core)
    (hauto : node.autocloseEnabled = 0
      ∨ node.autocloseEnabled = (x.server.core.xListNodesConnected.cell i).autocloseEnabled)
    (hview : replayOne x.server.core.connectedNodes (notified bytes)
      = (x.server.core.setNode i node).connectedNodes) : x'.Ok := by
  obtain ⟨hnodes, henable, hfd, hwrites⟩ :=
    @notifyClient_spec (x.server.core.setNode i node) bytes
  rw [← hcore] at hnodes henable hfd hwrites
  have hset : (x.server.core.setNode i node).NoAutoClose := h.noAutoClose.setNode hauto
  refine h.of_agrees hown (hset.of_nodes hnodes) hasked ⟨_, hwrites⟩ (fun _ => hfd)
    (fun henabled => henable.trans henabled) ?_
  rcases hn : x.asked with _ | n
  · exact Watched.agrees_of_not_asked (hasked.trans hn)
  · obtain ⟨-, hpos, henabled⟩ := h.asked n hn
    have htold : x'.server.core.writes
        = x.server.core.writes ++ [(x.server.core.siDlmsoctpDataFd, bytes)] := by
      rw [hcore]
      exact writes_notifyClient (s := x.server.core.setNode i node) hpos henabled
    rw [h.agrees_iff hn (hasked.trans hn) htold, replay_cons, replay_nil, hview,
      connectedNodes_of_nodes hnodes]

theorem join_ok {pucDeviceId pucMac : Mem UInt8} {ucDeviceIdLen : UInt8} (h : x.Ok)
    (hlt : usDstAddress.toNat < maxNumNodesConnected)
    (hx : watchedStep clock (.joinInd pucDeviceId ucDeviceIdLen usDstAddress pucMac) x
      = some x') : x'.Ok := by
  obtain ⟨w, hw, rfl⟩ := Option.map_eq_some_iff.mp hx
  have hown' := h.own.step hw
  obtain rfl := Option.some.inj hw
  have hcore : (dlmsotcpCl432JoinIndCb pucDeviceId ucDeviceIdLen usDstAddress pucMac
      x.server).core = _ := join_core
  rw [if_pos (h.noAutoClose _ hlt)] at hcore
  refine told_ok h hcore (Watched.after_of_not_asks id) hown' (.inr rfl) ?_
  rw [notified_join, if_pos joinLength_room]
  ext j
  rw [State.mem_connectedNodes, State.connected_setNode]
  simp only [replayOne, if_true, Finset.mem_insert, State.mem_connectedNodes]
  by_cases hj : j = usDstAddress.toNat
  · rw [if_pos hj]
    exact iff_of_true (.inl hj) ⟨hlt, ne_invalid_of_lt hlt⟩
  · rw [if_neg hj]
    exact or_iff_right hj

theorem leave_ok (h : x.Ok) (hx : watchedStep clock (.leaveInd usDstAddress) x = some x') :
    x'.Ok := by
  obtain ⟨w, hw, rfl⟩ := Option.map_eq_some_iff.mp hx
  have hown' := h.own.step hw
  obtain rfl := Option.some.inj hw
  apply told_ok h leave_core (Watched.after_of_not_asks id) hown' (.inl rfl)
  rw [notified_leave]
  ext j
  rw [State.mem_connectedNodes, State.connected_setNode]
  have h21 : ¬ (2 : UInt8) = 1 := by decide
  simp only [replayOne, if_neg h21, if_true, Finset.mem_erase, State.mem_connectedNodes]
  by_cases hj : j = usDstAddress.toNat
  · rw [if_pos hj]
    exact iff_of_false (fun hmem => hmem.1 hj) fun hmem => hmem.2 rfl
  · rw [if_neg hj]
    exact and_iff_right hj

/-- A response is not told. -/
theorem response_told (h : x.Ok) (hstays : StaysConnected (.response ptrMsg len) x)
    (hx : watchedStep clock (.response ptrMsg len) x = some x') :
    (x'.Agrees ↔ ToldBefore (.response ptrMsg len) x) ∧ (x'.Agrees → x'.Ok) := by
  obtain ⟨w, hw, rfl⟩ := Option.map_eq_some_iff.mp hx
  have hown' := h.own.step hw
  obtain rfl := Option.some.inj hw
  have hafter : x.after (.response ptrMsg len) = x.asked := Watched.after_of_not_asks id
  have hcore : (dlmsotcpMngpRspCb ptrMsg len x.server).core = _ := response_core
  by_cases hlist : IsNodeList ptrMsg len
  · obtain ⟨henable, hfd, hwrites⟩ := @listRecords_spec x.server.core ptrMsg
    rw [if_pos hlist] at hcore
    have hsilent : (dlmsotcpMngpRspCb ptrMsg len x.server).core.writes
        = x.server.core.writes ++ [] := by
      rw [hcore, hwrites, List.append_nil]
    constructor
    · rcases hasked : x.asked with _ | n
      · apply iff_of_true (Watched.agrees_of_not_asked (hafter.trans hasked))
        intro hsome
        rw [hasked] at hsome
        cases hsome
      · rw [h.agrees_iff hasked (hafter.trans hasked) hsilent]
        dsimp only
        rw [hcore, replay_nil, connectedNodes_listRecords_iff (hstays hlist)]
        exact ⟨fun hknown _ _ => hknown, fun htold => htold (by rw [hasked]; rfl) hlist⟩
    · intro hagrees
      refine h.of_agrees hown' ?_ hafter ⟨[], hsilent⟩ ?_ ?_ hagrees
      · dsimp only
        rw [hcore]
        exact h.noAutoClose.listRecords
      · intro _
        dsimp only
        rw [hcore]
        exact hfd
      · intro henabled
        dsimp only
        rw [hcore]
        exact henable.trans henabled
  · rw [if_neg hlist] at hcore
    have hok : Watched.Ok ⟨_, x.after (.response ptrMsg len)⟩ := h.congr hcore hafter
    exact ⟨iff_of_true hok.agrees fun _ hlist' => absurd hlist' hlist, fun _ => hok⟩

/-- **One event.**  The view agrees with the table after it exactly when the client has
been told before, and then all is in order again. -/
theorem agrees_after_iff (h : x.Ok) (hstays : StaysConnected e x)
    (hx : watchedStep clock e x = some x') :
    (x'.Agrees ↔ ToldBefore e x) ∧ (x'.Agrees → x'.Ok) := by
  have hkeeps (hok : x'.Ok) (htold : ToldBefore e x) :
      (x'.Agrees ↔ ToldBefore e x) ∧ (x'.Agrees → x'.Ok) :=
    ⟨iff_of_true hok.agrees htold, fun _ => hok⟩
  cases e with
  | core e =>
      cases e with
      | packet fd buf =>
          by_cases hfirst : x.asked = none ∧ ∃ m ∈ messages buf, m.AsksList
          · exact first_packet_told h hstays hfirst.1 hfirst.2 hx
          · exact hkeeps (packet_ok h hstays (fun h1 h2 => hfirst ⟨h1, h2⟩) hx)
              fun h1 h2 => absurd ⟨h1, h2⟩ hfirst
      | confirm ucDstLsap ucSrcLsap usDst ucTxStatus => exact hkeeps (confirm_ok h hx) trivial
  | closed => exact hkeeps (closed_ok h hstays hx) trivial
  | joinInd pucDeviceId ucDeviceIdLen usDst pucMac => exact hkeeps (join_ok h hstays hx) trivial
  | leaveInd usDst => exact hkeeps (leave_ok h hx) trivial
  | response ptrMsg len => exact response_told h hstays hx
  | dataInd ucDstLsap ucSrcLsap usDst srcAddress pucData ucLsduLen ucLinkClass =>
      exact absurd hstays id

end Steps

/-! ## Runs -/

section Runs

variable (clock : ℕ → ℕ) (appId : ℤ) (memory : ℕ → XDlmsMsg) (behind : ℕ → ConnectedNode)

theorem noAutoClose_started : (started appId memory behind).NoAutoClose := by
  intro i hi
  exact ((started_spec appId memory behind).2.2.2 i hi).2

theorem ok_started : (watchedStarted appId memory behind).Ok := by
  constructor
  · exact ownAddress_started appId memory behind
  · exact noAutoClose_started appId memory behind
  · exact Watched.agrees_of_not_asked rfl
  · intro n hn
    cases hn

/-- **The view of the concentrator.**  In every run in which the client stays connected
once it has sent command 3, what it is told from then on, replayed, is the table of the
connected nodes after every event, exactly when it is told before every page of the list
of what the page is about. -/
theorem dlmsotcp_view_agrees_iff (es : List ServerEvent) (x : Watched)
    (hrun : runSteps (watchedStep clock) es (watchedStarted appId memory behind) = some x)
    (hstays : AlongSteps (watchedStep clock) StaysConnected es
      (watchedStarted appId memory behind)) :
    AlongSteps (watchedStep clock) (AgreesAfter clock) es (watchedStarted appId memory behind)
      ↔ AlongSteps (watchedStep clock) ToldBefore es (watchedStarted appId memory behind) := by
  have htaken : AlongSteps (watchedStep clock)
      (fun e x => ∃ x', watchedStep clock e x = some x') es
      (watchedStarted appId memory behind) :=
    alongSteps_of_run (I := fun _ => True) (fun e x x' _ hx => ⟨⟨x', hx⟩, trivial⟩) trivial hrun
  refine alongSteps_congr_of (I := Watched.Ok) (hstays.and htaken) ?_ ?_
    (ok_started appId memory behind)
  · rintro e x hok ⟨hstays, x', hx⟩
    rw [← (agrees_after_iff hok hstays hx).1]
    constructor
    · intro hafter
      exact hafter x' hx
    · intro hagrees x'' hx''
      rwa [← Option.some.inj (hx.symm.trans hx'')]
  · rintro e x x' hok ⟨hstays, -⟩ hafter hx
    exact (agrees_after_iff hok hstays hx).2 (hafter x' hx)

end Runs

/-! ## A page that comes late -/

section Examples

variable {clock : ℕ → ℕ} {n : UInt8}

/-- Before command 3. -/
def notAsked : Watched := watchedStarted 3 zeroMemory zeroNodes

/-- The list has been asked for; it was empty. -/
def listEmpty : Watched := ⟨notAsked.server.answer 5, some notAsked.server.core.writes.length⟩

theorem connected_answer {w : Server} {fd : ℤ} {i : ℕ} :
    (w.answer fd).core.Connected i ↔ w.core.Connected i := by
  unfold State.Connected Server.answer
  dsimp only
  rw [answerList_spec.1]

theorem messages_listRequest : messages (encodeAll [listRequest]) = [listRequest] :=
  messages_encodeAll

theorem step_notAsked : watchedStep clock listAsked notAsked = some listEmpty := by
  have hasks : listAsked.AsksList := by
    refine ⟨listRequest, ?_, by decide⟩
    rw [messages_listRequest]
    exact List.mem_singleton_self _
  have hafter : notAsked.after listAsked = some notAsked.server.core.writes.length := if_pos hasks
  unfold watchedStep
  rw [step_listAsked, hafter]
  rfl

theorem step_listEmpty : watchedStep clock (pageArrives n) listEmpty
    = some ⟨dlmsotcpMngpRspCb (listPage n) 34 listEmpty.server, listEmpty.asked⟩ := rfl

theorem listed_page (hn : Listed (listPage n) ((listPage n).cell 5).toNat i) : i = 1 := by
  obtain ⟨k, hk, -, rfl⟩ := hn
  have hk : k < 1 := hk
  obtain rfl : k = 0 := by omega
  rfl

/-- The list is asked for, and a page of it comes from the base node. -/
theorem runSteps_asked_page : runSteps (watchedStep clock) [listAsked, pageArrives n] notAsked
    = some ⟨dlmsotcpMngpRspCb (listPage n) 34 listEmpty.server, listEmpty.asked⟩ := by
  rw [runSteps_cons, step_notAsked, Option.bind_some, runSteps_cons, step_listEmpty]
  rfl

theorem asked_stays : StaysConnected listAsked notAsked := by
  refine ⟨by decide, fun m hm => ?_, fun hsome => ?_⟩
  · rw [messages_listRequest] at hm
    rw [List.mem_singleton.mp hm]
    decide
  · cases hsome

theorem asked_page_stays :
    AlongSteps (watchedStep clock) StaysConnected [listAsked, pageArrives n] notAsked := by
  rw [alongSteps_cons step_notAsked, alongSteps_cons step_listEmpty]
  refine ⟨asked_stays, fun _ i hi => ?_, trivial⟩
  rw [listed_page hi]
  decide

/-- The client is not told of the node on the page. -/
theorem dlmsotcp_view_misses_page :
    ¬ ∀ (clock : ℕ → ℕ) (appId : ℤ) (memory : ℕ → XDlmsMsg) (behind : ℕ → ConnectedNode)
        (es : List ServerEvent) (x : Watched),
      runSteps (watchedStep clock) es (watchedStarted appId memory behind) = some x →
      AlongSteps (watchedStep clock) StaysConnected es (watchedStarted appId memory behind) →
      AlongSteps (watchedStep clock) (AgreesAfter clock) es
        (watchedStarted appId memory behind) := by
  intro h
  have hasked : watchedStep (fun _ => 0) listAsked notAsked = some listEmpty := step_notAsked
  have hagrees : AlongSteps (watchedStep fun _ => 0) (AgreesAfter fun _ => 0)
      [listAsked, pageArrives 13] notAsked :=
    h (fun _ => 0) 3 zeroMemory zeroNodes _ _ runSteps_asked_page asked_page_stays
  rw [alongSteps_cons hasked] at hagrees
  obtain ⟨hfirst, hlater, -⟩ := hagrees
  have hok : listEmpty.Ok := (agrees_after_iff (ok_started 3 zeroMemory zeroNodes) asked_stays
    hasked).2 (hfirst _ hasked)
  have hpage : StaysConnected (pageArrives 13) listEmpty :=
    ((alongSteps_cons hasked).mp asked_page_stays).2.1
  have harrived : watchedStep (fun _ => 0) (pageArrives 13) listEmpty = some _ := step_listEmpty
  have htold := (agrees_after_iff hok hpage harrived).1.mp (hlater _ harrived)
  have hconnected : (notAsked.server.answer 5).core.Connected 1 :=
    htold rfl ⟨by decide, rfl, rfl⟩ 1 ⟨0, by decide, by decide, rfl⟩
  have hnot : ¬ notAsked.server.core.Connected 1 :=
    not_connected_started 3 zeroMemory zeroNodes 1
  exact hnot (connected_answer.mp hconnected)

/-- The rule applies to this run. -/
theorem dlmsotcp_asked_page_agrees_iff :
    AlongSteps (watchedStep fun _ => 0) (AgreesAfter fun _ => 0) [listAsked, pageArrives 13]
        (watchedStarted 3 zeroMemory zeroNodes)
      ↔ AlongSteps (watchedStep fun _ => 0) ToldBefore [listAsked, pageArrives 13]
        (watchedStarted 3 zeroMemory zeroNodes) :=
  dlmsotcp_view_agrees_iff (fun _ => 0) 3 zeroMemory zeroNodes _ _ runSteps_asked_page
    asked_page_stays

end Examples

end Dlmsotcp
