/-
# What leaves the DLMS module

The calls that leave the module are logged, and every event adds to the end of the log.  What
it adds are requests, writes to the client and texts; the management layer is called by
`dlmsotcp_init` only, and in answer to its responses, which has a log of its own.  What the client
is written are notifications of the module itself, whose source is zero, but for the data of a
node.
-/
import PlcManager.DlmsotcpSendable

namespace Dlmsotcp

/-- The call is one of the PRIME API, to the client or to the console. -/
def Output.Plain : Output → Prop
  | .selectApi _ | .dataRequest _ | .releaseRequest _ | .write .. | .printf .. => True
  | .setCl432Callbacks _ | .setRspCallback _ | .newMsg _ | .addGetPibListEnQuery .. | .sendMsg _ =>
      False

/-- The source of a message is zero, if it has one. -/
def IsNote (bytes : List UInt8) : Prop := bytes.getD 2 0 = 0 ∧ bytes.getD 3 0 = 0

instance (bytes : List UInt8) : Decidable (IsNote bytes) := inferInstanceAs (Decidable (_ ∧ _))

/-- The call is such a one, and what it writes is a notification. -/
def Output.Own : Output → Prop
  | .selectApi _ | .dataRequest _ | .releaseRequest _ | .printf .. => True
  | .write _ bytes => IsNote bytes
  | _ => False

/-- What the module does of itself is one of these calls. -/
theorem Output.Own.plain {out : Output} (h : out.Own) : out.Plain := by
  cases out with
  | selectApi | dataRequest | releaseRequest | printf | write => trivial
  | _ => exact h

/-- A notification that is cut keeps its source. -/
theorem isNote_take {bytes : List UInt8} (h : IsNote bytes) (n : ℕ) : IsNote (bytes.take n) := by
  have hcell : ∀ i, bytes.getD i 0 = 0 → (bytes.take n).getD i 0 = 0 := by
    intro i hi
    rw [List.getD_eq_getElem?_getD] at hi ⊢
    rw [List.getElem?_take]
    split_ifs
    · exact hi
    · rfl
  exact ⟨hcell 2 h.1, hcell 3 h.2⟩

/-- The notifications that the module makes have the source zero. -/
theorem isNote_newDevice (nodes : Mem ConnectedNode) (i : ℕ) :
    IsNote (newDeviceNotification nodes i) := isNote_take ⟨rfl, rfl⟩ _

/-- A node has joined. -/
theorem isNote_join (usDstAddress : UInt16) (ucLength : UInt8) (deviceId mac : List UInt8) :
    IsNote (joinNotification usDstAddress ucLength deviceId mac) := isNote_take ⟨rfl, rfl⟩ _

/-- A node has left. -/
theorem isNote_leave (usDstAddress : UInt16) : IsNote (leaveNotification usDstAddress) :=
  ⟨rfl, rfl⟩

/-- Between the two states such calls have left the module. -/
def State.Adds (s t : State) : Prop :=
  ∃ outs : List Output, t.trace = s.trace ++ outs ∧ ∀ out ∈ outs, out.Own

namespace State.Adds

variable {clock : ℕ → ℕ} {s t u : State} {m : Message} {usSource usDest usDlmsLen : UInt16}
  {pcDlmsBuf : List UInt8} {outs : List Output}

/-- Nothing has left the module. -/
theorem of_trace (h : t.trace = s.trace) : s.Adds t :=
  ⟨[], by rw [h, List.append_nil], List.forall_mem_nil _⟩

theorem refl (s : State) : s.Adds s := of_trace rfl

/-- One stretch of the log after the other. -/
theorem trans (h : s.Adds t) (h' : t.Adds u) : s.Adds u := by
  obtain ⟨xs, hxs, hx⟩ := h
  obtain ⟨ys, hys, hy⟩ := h'
  refine ⟨xs ++ ys, by rw [hys, hxs, List.append_assoc], ?_⟩
  rw [List.forall_mem_append]
  exact ⟨hx, hy⟩

/-- The calls that are made now are logged behind the others. -/
theorem emit (h : s.Adds t) (houts : ∀ out ∈ outs, out.Own) : s.Adds (t.emit outs) :=
  h.trans ⟨outs, rfl, houts⟩

/-! ## The queue -/

/-- A message goes back to the free queue. -/
theorem putFree {p : Option ℕ} (h : s.putFree p = some t) : s.Adds t := by
  unfold State.putFree at h
  obtain ⟨r, -, rfl⟩ := Option.map_eq_some_iff.mp h
  exact of_trace rfl

/-- A message goes to the pending queue. -/
theorem putPending {p : Option ℕ} (h : s.putPending p = some t) : s.Adds t := by
  unfold State.putPending at h
  obtain ⟨r, -, rfl⟩ := Option.map_eq_some_iff.mp h
  exact of_trace rfl

/-- A message that finds the line free is requested. -/
theorem sendAtOnce : s.Adds (sendAtOnce usDest usDlmsLen s) := by
  unfold Dlmsotcp.sendAtOnce
  split
  · exact (refl s).emit (by simp [Output.Own])
  · exact refl s

/-- The head of the pending queue is requested. -/
theorem sendQueued432Data (h : sendQueued432Data clock s = some t) : s.Adds t := by
  unfold Dlmsotcp.sendQueued432Data at h
  dsimp only at h
  split at h
  · exact absurd h (by simp)
  · obtain rfl := Option.some.inj h
    exact (of_trace rfl).emit (by simp [Output.Own])

/-- A data message is queued, and requested if it is the only one. -/
theorem queueMessage (h : queueMessage clock usSource usDest usDlmsLen pcDlmsBuf s = some t) :
    s.Adds t := by
  unfold Dlmsotcp.queueMessage at h
  obtain ⟨bytes, -, h⟩ := Option.bind_eq_some_iff.mp h
  dsimp only at h
  split at h
  · next p u hget =>
      have hu : s.Adds (fillMessage clock usDest usDlmsLen p u) := by
        have hsnd := congrArg Prod.snd hget
        dsimp only at hsnd
        subst hsnd
        exact of_trace rfl
      exact (hu.trans sendAtOnce).trans (putPending h)
  · -- the NULL pointer cannot be put back
    obtain ⟨v, hput, -⟩ := Option.map_eq_some_iff.mp h
    exact absurd hput (by simp [State.putFree, dlmsMsgPut])

/-- A request that has waited too long is dropped, and the next one is made. -/
theorem checkPendingQueue (h : checkPendingQueue clock s = some t) : s.Adds t := by
  unfold Dlmsotcp.checkPendingQueue at h
  split_ifs at h with hmany
  · split at h
    · exact absurd h (by simp)
    · dsimp only at h
      split_ifs at h with hold
      · obtain ⟨u, hput, hsend⟩ := Option.bind_eq_some_iff.mp h
        have hu : s.Adds u := by
          refine trans ?_ (putFree hput)
          exact of_trace rfl
        exact (hu.emit (by simp [Output.Own])).trans (sendQueued432Data hsend)
      · obtain rfl := Option.some.inj h
        exact of_trace rfl
  · obtain rfl := Option.some.inj h
    exact refl s

/-! ## Messages of the concentrator -/

/-- The client is told of every node. -/
theorem sendList432Connections : s.Adds (sendList432Connections s) := by
  unfold Dlmsotcp.sendList432Connections
  split_ifs
  · refine forRange_invariant (fun t => s.Adds t) (refl s) ?_
    intro i t _ _ ht
    split_ifs
    · exact ht.emit (List.forall_mem_singleton.mpr (isNote_newDevice _ _))
    · exact ht
  · exact refl s

/-- A command of the concentrator to the module itself is answered with notifications, with a
release, or not at all. -/
theorem customMessage (h : customMessage usDlmsLen pcDlmsBuf s = some t) : s.Adds t := by
  unfold Dlmsotcp.customMessage at h
  obtain ⟨cmd, -, h⟩ := Option.bind_eq_some_iff.mp h
  split_ifs at h with h3 h4 hl4 h5 hl5 h6 hl6
  · obtain rfl := Option.some.inj h
    refine trans ?_ sendList432Connections
    exact of_trace rfl
  · obtain ⟨deviceId, -, rfl⟩ := Option.map_eq_some_iff.mp h
    exact (of_trace rfl).emit (by simp [Output.Own])
  · exact Option.some.inj h ▸ refl s
  · obtain ⟨deviceId, -, rfl⟩ := Option.map_eq_some_iff.mp h
    exact of_trace rfl
  · exact Option.some.inj h ▸ refl s
  · obtain ⟨deviceId, -, rfl⟩ := Option.map_eq_some_iff.mp h
    exact of_trace rfl
  · exact Option.some.inj h ▸ refl s
  · exact Option.some.inj h ▸ refl s

/-- A message of a packet is a command or data. -/
theorem handleMessage (h : handleMessage clock m s = some t) : s.Adds t := by
  unfold Dlmsotcp.handleMessage rxMessage at h
  split_ifs at h with hcustom
  · exact customMessage h
  · obtain ⟨u, hqueue, hcheck⟩ := Option.bind_eq_some_iff.mp h
    exact (queueMessage hqueue).trans (checkPendingQueue hcheck)

/-- The messages of a packet, one after the other. -/
theorem runSteps_handleMessage {ms : List Message}
    (h : runSteps (Dlmsotcp.handleMessage clock) ms s = some t) : s.Adds t := by
  induction ms generalizing s with
  | nil => exact Option.some.inj h ▸ refl s
  | cons m ms ih =>
      obtain ⟨u, hu, hrest⟩ := Option.bind_eq_some_iff.mp h
      exact (handleMessage hu).trans (ih hrest)

/-- A packet or a data confirm. -/
theorem step {e : Event} (h : step clock e s = some t) : s.Adds t := by
  cases e with
  | packet fd buf =>
      obtain ⟨outs, houts, hstep⟩ := step_packet clock fd buf
      rw [hstep] at h
      obtain ⟨u, hu, rfl⟩ := Option.map_eq_some_iff.mp h
      have hmessages : s.Adds u := by
        refine trans ?_ (runSteps_handleMessage hu)
        exact of_trace rfl
      apply hmessages.emit
      rcases houts with rfl | rfl
      · exact List.forall_mem_nil _
      · simp [Output.Own]
  | confirm ucDstLsap ucSrcLsap usDstAddress ucTxStatus =>
      unfold Dlmsotcp.step dlmsotcpCl432DlDataCfmCb at h
      dsimp only at h
      split_ifs at h with hnone
      · exact Option.some.inj h ▸ refl s
      · split at h
        · exact absurd h (by simp)
        · next p u hget =>
            obtain ⟨v, hput, hsend⟩ := Option.bind_eq_some_iff.mp h
            have hv : s.Adds v := by
              have hsnd := congrArg Prod.snd hget
              dsimp only at hsnd
              subst hsnd
              refine trans ?_ (putFree hput)
              exact of_trace rfl
            split_ifs at hsend with hmore
            · exact hv.trans (sendQueued432Data hsend)
            · rwa [← Option.some.inj hsend]

/-! ## Nodes -/

/-- The client is written a notification if it wants to know. -/
theorem notifyClient {bytes : List UInt8} (h : IsNote bytes) : s.Adds (notifyClient bytes s) := by
  unfold Dlmsotcp.notifyClient
  split_ifs
  · exact (refl s).emit (List.forall_mem_singleton.mpr h)
  · exact refl s

/-- An entry of the table is written without a call. -/
theorem setNode {i : ℕ} {node : ConnectedNode} : s.Adds (s.setNode i node) := of_trace rfl

/-- The records of a list are stored without a call. -/
theorem listRecords {ptrMsg : Mem UInt8} : s.Adds (listRecords ptrMsg s) := by
  unfold Dlmsotcp.listRecords
  refine forRange_invariant (fun t => s.Adds t) (refl s) ?_
  intro i t _ _ ht
  rw [storeRecord_eq]
  split_ifs
  · exact ht
  · exact ht.trans setNode

/-- The connections that are to be closed automatically are released. -/
theorem lastConnectionClosed : s.Adds (lastConnectionClosed s) := by
  unfold Dlmsotcp.lastConnectionClosed dlmsotcpClose432
  refine forRange_invariant (fun t => s.Adds t) (of_trace rfl) ?_
  intro i t _ _ ht
  dsimp only
  split_ifs
  · have hemit : s.Adds (t.emit [.selectApi t.siDlmsoctpAppId,
        .releaseRequest (t.xListNodesConnected.cell i).dstAddress]) :=
      ht.emit (by simp [Output.Own])
    exact hemit.trans (of_trace rfl)
  · exact ht

/-- **Every event adds to the log.**  All but the data of a node are the module's own. -/
theorem serverStep {e : ServerEvent} {w w' : Server} (h : serverStep clock e w = some w')
    (hdata : ∀ a b c d data len link, e ≠ .dataInd a b c d data len link) :
    w.core.Adds w'.core := by
  cases e with
  | core e =>
      obtain ⟨t, ht, rfl⟩ := Option.map_eq_some_iff.mp h
      exact step ht
  | closed =>
      obtain rfl := Option.some.inj h
      dsimp only
      exact lastConnectionClosed
  | joinInd pucDeviceId ucDeviceIdLen usDstAddress pucMac =>
      obtain rfl := Option.some.inj h
      rw [join_core]
      split_ifs
      · exact setNode.trans (notifyClient (isNote_join _ _ _ _))
      · exact setNode
  | leaveInd usDstAddress =>
      obtain rfl := Option.some.inj h
      rw [leave_core]
      exact setNode.trans (notifyClient (isNote_leave _))
  | response ptrMsg len =>
      obtain rfl := Option.some.inj h
      rw [response_core]
      split_ifs
      · exact listRecords
      · exact refl w.core
  | dataInd => exact absurd rfl (hdata _ _ _ _ _ _ _)

end State.Adds

/-- Whatever happens, no other call leaves the module. -/
theorem exists_plain_outputs {clock : ℕ → ℕ} {e : ServerEvent} {w w' : Server}
    (h : serverStep clock e w = some w') :
    ∃ outs : List Output, w'.core.trace = w.core.trace ++ outs ∧ ∀ out ∈ outs, out.Plain := by
  by_cases hdata : ∀ a b c d data len link, e ≠ .dataInd a b c d data len link
  · obtain ⟨outs, htrace, houts⟩ := State.Adds.serverStep h hdata
    exact ⟨outs, htrace, fun out hout => (houts out hout).plain⟩
  · push Not at hdata
    obtain ⟨a, b, c, d, data, len, link, rfl⟩ := hdata
    obtain rfl := Option.some.inj h
    unfold dlmsotcpCl432DlDataIndCb notifyClient
    split_ifs
    · exact ⟨_, rfl, List.forall_mem_singleton.mpr trivial⟩
    · exact ⟨[], (List.append_nil _).symm, List.forall_mem_nil _⟩
    · exact ⟨[], (List.append_nil _).symm, List.forall_mem_nil _⟩

end Dlmsotcp
