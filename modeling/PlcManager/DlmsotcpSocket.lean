/-
# What goes to the socket

The queue of messages and the node table live in one module, but the functions that work
on the queue change nothing that the client can see: not the table, not the descriptor,
and they write nothing to it.  `State.SameNodes` says so, and every function on the queue
satisfies it.
-/
import PlcManager.DlmsotcpPackets

namespace Dlmsotcp

/-- The byte strings written so far, with their descriptors. -/
def State.writes (s : State) : List (ℤ × List UInt8) :=
  s.trace.filterMap fun
    | .write fd bytes => some (fd, bytes)
    | _ => none

theorem State.writes_emit {s : State} {outs : List Output} :
    (s.emit outs).writes = s.writes ++ ({ s with trace := outs } : State).writes := by
  unfold writes emit
  exact List.filterMap_append

/-- The table, the client and what it has been sent are the same. -/
structure State.SameNodes (s t : State) : Prop where
  nodes : t.xListNodesConnected = s.xListNodesConnected
  enable : t.iEnableNotifications = s.iEnableNotifications
  dataFd : t.siDlmsoctpDataFd = s.siDlmsoctpDataFd
  writes : t.writes = s.writes

namespace State.SameNodes

variable {clock : ℕ → ℕ} {s t u : State} {m : Message} {usSource usDest usDlmsLen : UInt16}
  {pcDlmsBuf : List UInt8}

theorem refl (s : State) : s.SameNodes s := ⟨rfl, rfl, rfl, rfl⟩

theorem trans (h : s.SameNodes t) (h' : t.SameNodes u) : s.SameNodes u where
  nodes := h'.nodes.trans h.nodes
  enable := h'.enable.trans h.enable
  dataFd := h'.dataFd.trans h.dataFd
  writes := h'.writes.trans h.writes

/-- Calls that are no writes. -/
theorem emit {outs : List Output} (h : s.SameNodes t)
    (hno : ({ t with trace := outs } : State).writes = []) : s.SameNodes (t.emit outs) :=
  ⟨h.nodes, h.enable, h.dataFd, by rw [writes_emit, hno, List.append_nil, h.writes]⟩

theorem putFree {p : Option ℕ} (h : s.putFree p = some t) : s.SameNodes t := by
  unfold State.putFree at h
  obtain ⟨r, -, rfl⟩ := Option.map_eq_some_iff.mp h
  exact ⟨rfl, rfl, rfl, rfl⟩

theorem putPending {p : Option ℕ} (h : s.putPending p = some t) : s.SameNodes t := by
  unfold State.putPending at h
  obtain ⟨r, -, rfl⟩ := Option.map_eq_some_iff.mp h
  exact ⟨rfl, rfl, rfl, rfl⟩

theorem sendAtOnce : s.SameNodes (sendAtOnce usDest usDlmsLen s) := by
  unfold Dlmsotcp.sendAtOnce
  split
  · exact emit (refl s) rfl
  · exact refl s

theorem sendQueued432Data (h : sendQueued432Data clock s = some t) : s.SameNodes t := by
  unfold Dlmsotcp.sendQueued432Data at h
  dsimp only at h
  split at h
  · exact absurd h (by simp)
  · obtain rfl := Option.some.inj h
    exact emit ⟨rfl, rfl, rfl, rfl⟩ rfl

theorem queueMessage (h : queueMessage clock usSource usDest usDlmsLen pcDlmsBuf s = some t) :
    s.SameNodes t := by
  unfold Dlmsotcp.queueMessage at h
  obtain ⟨bytes, -, h⟩ := Option.bind_eq_some_iff.mp h
  dsimp only at h
  split at h
  · next p u hget =>
      have hu : s.SameNodes (fillMessage clock usDest usDlmsLen p u) := by
        have hsnd := congrArg Prod.snd hget
        dsimp only at hsnd
        subst hsnd
        exact ⟨rfl, rfl, rfl, rfl⟩
      exact (hu.trans sendAtOnce).trans (putPending h)
  · -- the NULL pointer cannot be put back
    obtain ⟨v, hput, -⟩ := Option.map_eq_some_iff.mp h
    exact absurd hput (by simp [State.putFree, dlmsMsgPut])

theorem checkPendingQueue (h : checkPendingQueue clock s = some t) : s.SameNodes t := by
  unfold Dlmsotcp.checkPendingQueue at h
  split_ifs at h with hmany
  · split at h
    · exact absurd h (by simp)
    · dsimp only at h
      split_ifs at h with hold
      · obtain ⟨u, hput, hsend⟩ := Option.bind_eq_some_iff.mp h
        have hu : s.SameNodes u := by
          refine trans ?_ (putFree hput)
          exact ⟨rfl, rfl, rfl, rfl⟩
        exact (emit hu rfl).trans (sendQueued432Data hsend)
      · obtain rfl := Option.some.inj h
        exact ⟨rfl, rfl, rfl, rfl⟩
  · obtain rfl := Option.some.inj h
    exact refl s

/-- A message for a node. -/
theorem handleMessage_data (hm : m.IsData) (h : handleMessage clock m s = some t) :
    s.SameNodes t := by
  unfold handleMessage rxMessage at h
  rw [if_neg hm] at h
  obtain ⟨u, hqueue, hcheck⟩ := Option.bind_eq_some_iff.mp h
  exact (queueMessage hqueue).trans (checkPendingQueue hcheck)

/-- A data confirm. -/
theorem confirm {ucDstLsap ucSrcLsap ucTxStatus : UInt8} {usDstAddress : UInt16}
    (h : dlmsotcpCl432DlDataCfmCb clock ucDstLsap ucSrcLsap usDstAddress ucTxStatus s = some t) :
    s.SameNodes t := by
  unfold dlmsotcpCl432DlDataCfmCb at h
  split_ifs at h with hnone
  · obtain rfl := Option.some.inj h
    exact refl s
  · split at h
    · exact absurd h (by simp)
    · next p u hget =>
        obtain ⟨v, hput, hsend⟩ := Option.bind_eq_some_iff.mp h
        have hv : s.SameNodes v := by
          have hsnd := congrArg Prod.snd hget
          dsimp only at hsnd
          subst hsnd
          refine trans ?_ (putFree hput)
          exact ⟨rfl, rfl, rfl, rfl⟩
        split_ifs at hsend with hmore
        · exact hv.trans (sendQueued432Data hsend)
        · rwa [← Option.some.inj hsend]

end State.SameNodes

/-! ## Messages of the concentrator -/

/-- The same entries but for the counts of auto close, which the client is not told. -/
def SameEntries (a b : Mem ConnectedNode) : Prop :=
  ∀ i, ∃ count, b.cell i = { a.cell i with autocloseEnabled := count }

/-- The client sees the same. -/
structure State.SameView (s t : State) : Prop where
  entries : SameEntries s.xListNodesConnected t.xListNodesConnected
  enable : t.iEnableNotifications = s.iEnableNotifications
  dataFd : t.siDlmsoctpDataFd = s.siDlmsoctpDataFd
  writes : t.writes = s.writes

/-- Command 3: the client asks for the list of the connected nodes. -/
def Message.AsksList (m : Message) : Prop := ¬ m.IsData ∧ m.payload.head? = some 3

instance (m : Message) : Decidable m.AsksList := inferInstanceAs (Decidable (_ ∧ _))

/-- The answer to command 3. -/
def answerList (s : State) : State :=
  sendList432Connections { s with iEnableNotifications := true }

section Commands

variable {clock : ℕ → ℕ} {s t u : State} {m : Message}

theorem SameEntries.refl (a : Mem ConnectedNode) : SameEntries a a :=
  fun i => ⟨(a.cell i).autocloseEnabled, rfl⟩

theorem SameEntries.trans {a b c : Mem ConnectedNode} (h : SameEntries a b)
    (h' : SameEntries b c) : SameEntries a c := by
  intro i
  obtain ⟨n, hn⟩ := h i
  obtain ⟨k, hk⟩ := h' i
  exact ⟨k, by rw [hk, hn]⟩

theorem SameEntries.dstAddress {a b : Mem ConnectedNode} (h : SameEntries a b) (i : ℕ) :
    (b.cell i).dstAddress = (a.cell i).dstAddress := by
  obtain ⟨n, hn⟩ := h i
  rw [hn]

theorem State.SameNodes.sameView (h : s.SameNodes t) : s.SameView t where
  entries := by
    rw [h.nodes]
    exact .refl _
  enable := h.enable
  dataFd := h.dataFd
  writes := h.writes

theorem State.SameView.refl (s : State) : s.SameView s := (SameNodes.refl s).sameView

theorem State.SameView.emit {outs : List Output} (h : s.SameView t)
    (hno : ({ t with trace := outs } : State).writes = []) : s.SameView (t.emit outs) :=
  ⟨h.entries, h.enable, h.dataFd, by rw [writes_emit, hno, List.append_nil, h.writes]⟩

/-- The count of one entry is changed. -/
theorem sameView_store (i : ℕ) (count : UInt8) : s.SameView
    { s with
      xListNodesConnected := s.xListNodesConnected.store i
        { s.xListNodesConnected.cell i with autocloseEnabled := count } } := by
  refine ⟨fun j => ?_, rfl, rfl, rfl⟩
  by_cases hj : j = i
  · subst hj
    exact ⟨count, Mem.cell_store_self⟩
  · refine ⟨(s.xListNodesConnected.cell j).autocloseEnabled, ?_⟩
    exact Mem.cell_store_of_ne hj

theorem sameView_addDeviceAutoClose (usDevice : UInt16) :
    s.SameView (addDeviceAutoClose usDevice s) := sameView_store _ _

theorem sameView_removeDeviceAutoClose (usDevice : UInt16) :
    s.SameView (removeDeviceAutoClose usDevice s) := sameView_store _ _

/-- A command shows the client the list or nothing. -/
theorem customMessage_view (h : customMessage m.len m.payload s = some t) :
    (m.payload.head? ≠ some 3 ∧ s.SameView t) ∨ m.payload.head? = some 3 ∧ t = answerList s := by
  unfold customMessage at h
  obtain ⟨cmd, hcmd, h⟩ := Option.bind_eq_some_iff.mp h
  have hhead : m.payload.head? = some cmd := by
    rw [List.head?_eq_getElem?]
    exact hcmd
  rw [hhead, ne_eq, Option.some_inj]
  by_cases h3 : cmd = 3
  · rw [if_pos h3] at h
    exact .inr ⟨h3, (Option.some.inj h).symm⟩
  rw [if_neg h3] at h
  refine .inl ⟨h3, ?_⟩
  split_ifs at h with h4 hl4 h5 hl5 h6 hl6
  · obtain ⟨deviceId, -, rfl⟩ := Option.map_eq_some_iff.mp h
    exact (sameView_removeDeviceAutoClose deviceId).emit rfl
  · exact Option.some.inj h ▸ .refl s
  · obtain ⟨deviceId, -, rfl⟩ := Option.map_eq_some_iff.mp h
    exact sameView_addDeviceAutoClose deviceId
  · exact Option.some.inj h ▸ .refl s
  · obtain ⟨deviceId, -, rfl⟩ := Option.map_eq_some_iff.mp h
    exact sameView_removeDeviceAutoClose deviceId
  · exact Option.some.inj h ▸ .refl s
  · exact Option.some.inj h ▸ .refl s

/-- **What a message shows the client**: the list if it asks for it, else nothing. -/
theorem handleMessage_view (h : handleMessage clock m s = some t) :
    (¬ m.AsksList ∧ s.SameView t) ∨ m.AsksList ∧ t = answerList s := by
  by_cases hm : m.IsData
  · exact .inl ⟨fun hasks => hasks.1 hm, (State.SameNodes.handleMessage_data hm h).sameView⟩
  · unfold handleMessage rxMessage at h
    rw [if_pos (not_not.mp hm)] at h
    rcases customMessage_view h with ⟨h3, hview⟩ | ⟨h3, rfl⟩
    · exact .inl ⟨fun hasks => h3 hasks.2, hview⟩
    · exact .inr ⟨⟨hm, h3⟩, rfl⟩

/-- What is written in answer to command 3. -/
def listBytes (nodes : Mem ConnectedNode) (fd : ℤ) : List (ℤ × List UInt8) :=
  ((List.range maxNumNodesConnected).filter fun i =>
    (nodes.cell i).dstAddress ≠ cl432InvalidAddress).map
      fun i => (fd, newDeviceNotification nodes i)

/-- The answer changes nothing but what is written. -/
theorem answerList_spec : (answerList s).xListNodesConnected = s.xListNodesConnected
    ∧ (answerList s).iEnableNotifications = true
    ∧ (answerList s).siDlmsoctpDataFd = s.siDlmsoctpDataFd
    ∧ (answerList s).writes = s.writes ++ (if 0 < s.siDlmsoctpDataFd then
        listBytes s.xListNodesConnected s.siDlmsoctpDataFd else []) := by
  unfold answerList sendList432Connections
  by_cases hfd : 0 < s.siDlmsoctpDataFd
  · rw [if_pos ⟨hfd, rfl⟩, if_pos hfd]
    unfold listBytes
    refine forRange_induction (fun n (t : State) =>
      t.xListNodesConnected = s.xListNodesConnected ∧ t.iEnableNotifications = true
        ∧ t.siDlmsoctpDataFd = s.siDlmsoctpDataFd
        ∧ t.writes = s.writes ++ ((List.range n).filter fun i =>
            (s.xListNodesConnected.cell i).dstAddress ≠ cl432InvalidAddress).map
              fun i => (s.siDlmsoctpDataFd, newDeviceNotification s.xListNodesConnected i))
      (Nat.zero_le _) ⟨rfl, rfl, rfl, by simp [State.writes]⟩ ?_
    rintro n t - - ⟨hnodes, henable, hdata, hwrites⟩
    rw [List.range_succ, List.filter_append, List.map_append, hnodes]
    split_ifs with hvalid
    · refine ⟨hnodes, henable, hdata, ?_⟩
      rw [State.writes_emit, hwrites, hdata]
      simp [State.writes, hvalid]
    · refine ⟨hnodes, henable, hdata, ?_⟩
      simp [hwrites, hvalid]
  · rw [if_neg (fun h => hfd h.1), if_neg hfd]
    exact ⟨rfl, rfl, rfl, (List.append_nil _).symm⟩

/-- The data socket stays the same. -/
theorem handleMessage_siDlmsoctpDataFd (h : handleMessage clock m s = some t) :
    t.siDlmsoctpDataFd = s.siDlmsoctpDataFd := by
  rcases handleMessage_view h with ⟨-, hview⟩ | ⟨-, rfl⟩
  · exact hview.dataFd
  · exact answerList_spec.2.2.1

/-! ### Packets -/

/-- A line of the list of nodes, taken from a table with the same entries. -/
def State.IsListLine (s : State) (i : ℕ) (w : ℤ × List UInt8) : Prop :=
  ∃ nodes, SameEntries s.xListNodesConnected nodes
    ∧ w = (s.siDlmsoctpDataFd, newDeviceNotification nodes i)

/-- An entry of the table is in use. -/
def State.Connected (s : State) (i : ℕ) : Prop :=
  i < maxNumNodesConnected ∧ (s.xListNodesConnected.cell i).dstAddress ≠ cl432InvalidAddress

instance (s : State) (i : ℕ) : Decidable (s.Connected i) := inferInstanceAs (Decidable (_ ∧ _))

/-- While no node is connected there is nothing to answer. -/
theorem answerList_of_none (h : ∀ i, ¬ s.Connected i) :
    answerList s = { s with iEnableNotifications := true } := by
  unfold answerList sendList432Connections
  split_ifs
  · refine forRange_invariant (fun t => t = { s with iEnableNotifications := true }) rfl ?_
    rintro i t - hi rfl
    exact if_neg fun hvalid => h i ⟨hi, hvalid⟩
  · rfl

/-- What messages show the client: lines of the list, each at least once if it is `asked`
for and there is a socket, and nothing else. -/
structure State.Shows (s t : State) (asked : Prop) (ws : List (ℤ × List UInt8)) : Prop where
  entries : SameEntries s.xListNodesConnected t.xListNodesConnected
  dataFd : t.siDlmsoctpDataFd = s.siDlmsoctpDataFd
  enable : t.iEnableNotifications = true ↔ s.iEnableNotifications = true ∨ asked
  writes : t.writes = s.writes ++ ws
  lines : ∀ w ∈ ws, 0 < s.siDlmsoctpDataFd ∧ asked ∧ ∃ i, s.Connected i ∧ s.IsListLine i w
  complete : 0 < s.siDlmsoctpDataFd → asked → ∀ i, s.Connected i → ∃ w ∈ ws, s.IsListLine i w

/-- The table has the same lines for the client. -/
theorem State.IsListLine.of_entries {i : ℕ} {w : ℤ × List UInt8}
    (hentries : SameEntries s.xListNodesConnected t.xListNodesConnected)
    (hfd : t.siDlmsoctpDataFd = s.siDlmsoctpDataFd) (h : t.IsListLine i w) : s.IsListLine i w := by
  obtain ⟨nodes, hnodes, hw⟩ := h
  exact ⟨nodes, hentries.trans hnodes, by rw [hw, hfd]⟩

theorem State.Connected.of_entries {i : ℕ}
    (hentries : SameEntries s.xListNodesConnected t.xListNodesConnected) :
    t.Connected i ↔ s.Connected i := by
  unfold Connected
  rw [hentries.dstAddress]

/-- One message. -/
theorem handleMessage_shows (h : handleMessage clock m s = some t) :
    ∃ ws, s.Shows t m.AsksList ws := by
  rcases handleMessage_view h with ⟨hasks, hview⟩ | ⟨hasks, rfl⟩
  · refine ⟨[], hview.entries, hview.dataFd, ?_, ?_, by simp, fun _ h => absurd h hasks⟩
    · rw [hview.enable]
      exact (or_iff_left hasks).symm
    · rw [hview.writes, List.append_nil]
  · obtain ⟨hnodes, henable, hfd, hwrites⟩ := answerList_spec (s := s)
    have hlines (i : ℕ) : s.IsListLine i
        (s.siDlmsoctpDataFd, newDeviceNotification s.xListNodesConnected i) :=
      ⟨s.xListNodesConnected, .refl _, rfl⟩
    refine ⟨_, by rw [hnodes]; exact .refl _, hfd, by simp [henable, hasks], hwrites, ?_, ?_⟩
    · intro w hw
      split_ifs at hw with hpos
      · obtain ⟨i, hi, rfl⟩ := List.mem_map.mp hw
        have hmem := List.mem_filter.mp hi
        exact ⟨hpos, hasks, i, ⟨List.mem_range.mp hmem.1, by simpa using hmem.2⟩, hlines i⟩
      · exact absurd hw List.not_mem_nil
    · intro hpos _ i hi
      rw [if_pos hpos]
      refine ⟨_, List.mem_map_of_mem (List.mem_filter.mpr ⟨List.mem_range.mpr hi.1, ?_⟩), hlines i⟩
      simpa using hi.2

/-- **What a packet shows the client**: the list of the nodes if one of its messages asks
for it, and nothing else. -/
theorem runSteps_handleMessage_shows {ms : List Message}
    (h : runSteps (handleMessage clock) ms s = some t) :
    ∃ ws, s.Shows t (∃ m ∈ ms, m.AsksList) ws := by
  induction ms generalizing s with
  | nil =>
      obtain rfl := Option.some.inj h
      exact ⟨[], .refl _, rfl, by simp, by simp, by simp, by simp⟩
  | cons m ms ih =>
      obtain ⟨u, hu, hrest⟩ := Option.bind_eq_some_iff.mp h
      obtain ⟨vs, hv⟩ := handleMessage_shows hu
      obtain ⟨ws, hw⟩ := ih hrest
      refine ⟨vs ++ ws, hv.entries.trans hw.entries, hw.dataFd.trans hv.dataFd, ?_, ?_, ?_, ?_⟩
      · rw [hw.enable, hv.enable, List.exists_mem_cons_iff, or_assoc]
      · rw [hw.writes, hv.writes, List.append_assoc]
      · intro w hmem
        rcases List.mem_append.mp hmem with hmem | hmem
        · obtain ⟨hpos, hasks, hline⟩ := hv.lines w hmem
          exact ⟨hpos, ⟨m, List.mem_cons_self, hasks⟩, hline⟩
        · obtain ⟨hpos, ⟨q, hq, hasks⟩, i, hi, hline⟩ := hw.lines w hmem
          refine ⟨hv.dataFd ▸ hpos, ⟨q, List.mem_cons_of_mem _ hq, hasks⟩, i, ?_, ?_⟩
          · exact (State.Connected.of_entries hv.entries).mp hi
          · exact hline.of_entries hv.entries hv.dataFd
      · rintro hpos ⟨q, hq, hasks⟩ i hi
        rcases List.mem_cons.mp hq with rfl | hq
        · obtain ⟨w, hmem, hline⟩ := hv.complete hpos hasks i hi
          exact ⟨w, List.mem_append_left _ hmem, hline⟩
        · obtain ⟨w, hmem, hline⟩ := hw.complete (hv.dataFd.symm ▸ hpos) ⟨q, hq, hasks⟩ i
            ((State.Connected.of_entries hv.entries).mpr hi)
          exact ⟨w, List.mem_append_right _ hmem, hline.of_entries hv.entries hv.dataFd⟩

theorem step_packet_shows {fd : ℤ} {buf : List UInt8} (h : step clock (.packet fd buf) s = some t) :
    ∃ ws, State.Shows { s with siDlmsoctpDataFd := fd } t (∃ m ∈ messages buf, m.AsksList) ws := by
  obtain ⟨outs, houts, hstep⟩ := step_packet clock fd buf
  rw [hstep] at h
  obtain ⟨u, hu, rfl⟩ := Option.map_eq_some_iff.mp h
  obtain ⟨ws, hws⟩ := runSteps_handleMessage_shows hu
  refine ⟨ws, hws.entries, hws.dataFd, hws.enable, ?_, hws.lines, hws.complete⟩
  rw [State.writes_emit, hws.writes]
  -- a text at most is printed
  rcases houts with rfl | rfl
  · exact List.append_nil _
  · exact List.append_nil _

/-- Packets and confirms change no entry but for the counts of auto close. -/
theorem step_entries {e : Event} (h : step clock e s = some t) :
    SameEntries s.xListNodesConnected t.xListNodesConnected := by
  cases e with
  | packet fd buf =>
      obtain ⟨ws, hshows⟩ := step_packet_shows h
      exact hshows.entries
  | confirm ucDstLsap ucSrcLsap usDstAddress ucTxStatus =>
      have h : dlmsotcpCl432DlDataCfmCb clock ucDstLsap ucSrcLsap usDstAddress ucTxStatus s
        = some t := h
      rw [(State.SameNodes.confirm h).nodes]
      exact .refl _

end Commands

end Dlmsotcp
