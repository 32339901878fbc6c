/-
# The indices into the node table

`x_list_nodes_connected` has `MAX_NUM_NODES_CONNECTED` entries, and its indices are the
device ids and addresses that come from the concentrator, the network and the base node.
Only the records of broadcast connections are looked at before they are used.

The functions that use the table are written a second time, with the indices they use; the
first component is what they do.
-/
import PlcManager.DlmsotcpParsing

namespace Dlmsotcp

/-! ## Functions with the indices they use -/

/-- A state, and the indices into `x_list_nodes_connected` used on the way to it. -/
structure Indexed where
  state : State
  used : List ℕ

namespace Indexed

/-- Something is done without the table. -/
def apart (f : State → State) (x : Indexed) : Indexed := ⟨f x.state, x.used⟩

/-- `x_list_nodes_connected[i]`, as a value. -/
def node (x : Indexed) (i : ℕ) : ConnectedNode := x.state.xListNodesConnected.cell i

/-- `x_list_nodes_connected[i]` is read. -/
def look (i : ℕ) (x : Indexed) : Indexed := ⟨x.state, x.used ++ [i]⟩

/-- `x_list_nodes_connected[i]` is written. -/
def put (i : ℕ) (node : ConnectedNode) (x : Indexed) : Indexed :=
  ⟨x.state.setNode i node, x.used ++ [i]⟩

/-- `_add_device_auto_close`. -/
def addDeviceAutoClose (usDevice : UInt16) (x : Indexed) : Indexed :=
  let i := usDevice.toNat
  (x.look i).put i { x.node i with autocloseEnabled := (x.node i).autocloseEnabled + 1 }

/-- `_remove_device_auto_close`. -/
def removeDeviceAutoClose (usDevice : UInt16) (x : Indexed) : Indexed :=
  let i := usDevice.toNat
  x.put i { x.node i with autocloseEnabled := 0 }

/-- The body of the loop of `_send_list_432_connections`. -/
def sendConnection (i : ℕ) (x : Indexed) : Indexed :=
  let x := x.look i
  if (x.node i).dstAddress ≠ cl432InvalidAddress then
    x.apart fun s =>
      s.emit [.write s.siDlmsoctpDataFd (newDeviceNotification s.xListNodesConnected i)]
  else x

/-- `_send_list_432_connections`. -/
def sendList432Connections (x : Indexed) : Indexed :=
  if 0 < x.state.siDlmsoctpDataFd ∧ x.state.iEnableNotifications = true then
    forRange 0 maxNumNodesConnected sendConnection x
  else x

/-- The `switch` over the command of a custom message. -/
def customMessage (usDlmsLen : UInt16) (pcDlmsBuf : List UInt8) (x : Indexed) :
    Option Indexed :=
  (readByte pcDlmsBuf 0).bind fun cmd =>
    if cmd = 3 then
      some (sendList432Connections (x.apart fun s => { s with iEnableNotifications := true }))
    else if cmd = 4 then
      if usDlmsLen = 3 then
        (readWord pcDlmsBuf 1).map fun deviceId =>
          (removeDeviceAutoClose deviceId x).apart fun s =>
            s.emit [.selectApi s.siDlmsoctpAppId, .releaseRequest deviceId]
      else some x
    else if cmd = 5 then
      if usDlmsLen = 3 then (readWord pcDlmsBuf 1).map fun deviceId => addDeviceAutoClose deviceId x
      else some x
    else if cmd = 6 then
      if usDlmsLen = 3 then
        (readWord pcDlmsBuf 1).map fun deviceId => removeDeviceAutoClose deviceId x
      else some x
    else some x

/-- What `dlmsotcp_RxProcess` does with a message; data messages do not use the table. -/
def handleMessage (clock : ℕ → ℕ) (m : Message) (x : Indexed) : Option Indexed :=
  if m.IsData then (Dlmsotcp.handleMessage clock m x.state).map fun s => ⟨s, x.used⟩
  else customMessage m.len m.payload x

/-- `_dlmsotcp_cl_432_join_ind_cb`. -/
def joinInd (pucDeviceId : Mem UInt8) (ucDeviceIdLen : UInt8) (usDstAddress : UInt16)
    (pucMac : Mem UInt8) (x : Indexed) : Indexed :=
  let i := usDstAddress.toNat
  let ucLength := joinLength ucDeviceIdLen
  let x := (x.put i ((x.node i).join pucDeviceId ucLength usDstAddress pucMac)).look i
  if (x.node i).autocloseEnabled = 0 then
    x.apart (notifyClient (joinNotification usDstAddress ucLength
      (pucDeviceId.slice 0 ucLength.toNat) (pucMac.slice 0 6)))
  else x

/-- `_is_enabled_auto_close`; an entry that the range test does not let pass is not read. -/
def isEnabledAutoClose (usDevice : UInt16) (x : Indexed) : Bool × Indexed :=
  (Dlmsotcp.isEnabledAutoClose usDevice x.state,
    if maxNumNodesConnected < usDevice.toNat then x else x.look usDevice.toNat)

/-- The second part of `_dlmsotcp_cl_432_leave_ind_cb`. -/
def notifyLeave (usDstAddress : UInt16) (x : Indexed) : Indexed :=
  if 0 < x.state.siDlmsoctpDataFd ∧ x.state.iEnableNotifications = true then
    let enabled := isEnabledAutoClose usDstAddress x
    if enabled.1 then enabled.2
    else
      enabled.2.apart fun s =>
        s.emit [.write s.siDlmsoctpDataFd (leaveNotification usDstAddress)]
  else x

/-- `_dlmsotcp_cl_432_leave_ind_cb`. -/
def leaveInd (usDstAddress : UInt16) (x : Indexed) : Indexed :=
  let i := usDstAddress.toNat
  notifyLeave usDstAddress (x.put i (x.node i).left)

/-- One record of a list response. -/
def storeRecord (ptrMsg : Mem UInt8) (i : ℕ) (x : Indexed) : Indexed :=
  let usAddress := recordAddress ptrMsg i
  if IsBroadcast usAddress then x
  else
    x.put usAddress.toNat
      ((x.node usAddress.toNat).record ptrMsg (recordAt (ptrMsg.cell 6) i))

/-! ### They do the same -/

section Erasure

variable {x : Indexed} {usDevice usDlmsLen : UInt16} {pcDlmsBuf : List UInt8}

theorem state_sendList432Connections :
    (sendList432Connections x).state = Dlmsotcp.sendList432Connections x.state := by
  unfold sendList432Connections Dlmsotcp.sendList432Connections
  split_ifs
  · generalize maxNumNodesConnected = n
    induction n with
    | zero => rfl
    | succ n ih =>
        rw [forRange_succ (Nat.zero_le n), forRange_succ (Nat.zero_le n), ← ih]
        unfold sendConnection node look apart
        dsimp only
        split_ifs
        · rfl
        · rfl
  · rfl

theorem map_state_customMessage : (customMessage usDlmsLen pcDlmsBuf x).map state
    = Dlmsotcp.customMessage usDlmsLen pcDlmsBuf x.state := by
  unfold customMessage Dlmsotcp.customMessage
  cases readByte pcDlmsBuf 0 with
  | none => rfl
  | some cmd =>
      simp only [Option.bind_some]
      split_ifs
      · rw [Option.map_some, state_sendList432Connections]
        rfl
      · rw [Option.map_map]
        rfl
      · rfl
      · rw [Option.map_map]
        rfl
      · rfl
      · rw [Option.map_map]
        rfl
      · rfl
      · rfl

theorem map_state_handleMessage (clock : ℕ → ℕ) (m : Message) :
    (handleMessage clock m x).map state = Dlmsotcp.handleMessage clock m x.state := by
  unfold handleMessage
  split_ifs with hm
  · rw [Option.map_map]
    exact congrFun Option.map_id _
  · rw [map_state_customMessage, Dlmsotcp.handleMessage, rxMessage, if_pos (not_not.mp hm)]

theorem state_joinInd {pucDeviceId pucMac : Mem UInt8} {ucDeviceIdLen : UInt8}
    {usDstAddress : UInt16} {w : Server} (hx : x.state = w.core) :
    (joinInd pucDeviceId ucDeviceIdLen usDstAddress pucMac x).state
      = (dlmsotcpCl432JoinIndCb pucDeviceId ucDeviceIdLen usDstAddress pucMac w).core := by
  rw [join_core, ← hx]
  unfold joinInd
  have hflag : ((((x.put usDstAddress.toNat ((x.node usDstAddress.toNat).join pucDeviceId
      (joinLength ucDeviceIdLen) usDstAddress pucMac)).look usDstAddress.toNat).node
        usDstAddress.toNat).autocloseEnabled
      = (x.state.xListNodesConnected.cell usDstAddress.toNat).autocloseEnabled) := by
    unfold node look put
    rw [State.node_setNode, if_pos rfl]
    rfl
  dsimp only
  rw [hflag]
  split_ifs
  · rfl
  · rfl

theorem state_isEnabledAutoClose : (isEnabledAutoClose usDevice x).2.state = x.state := by
  unfold isEnabledAutoClose
  dsimp only
  split_ifs
  · rfl
  · rfl

theorem state_notifyLeave (h : Dlmsotcp.isEnabledAutoClose usDevice x.state = false) :
    (notifyLeave usDevice x).state = notifyClient (leaveNotification usDevice) x.state := by
  unfold notifyLeave notifyClient
  dsimp only
  have hno : (isEnabledAutoClose usDevice x).1 = false := h
  rw [hno]
  split_ifs with htell hfalse
  · cases hfalse
  · rw [apart, state_isEnabledAutoClose]
  · rfl

theorem state_leaveInd {usDstAddress : UInt16} {w : Server} (hx : x.state = w.core) :
    (leaveInd usDstAddress x).state = (dlmsotcpCl432LeaveIndCb usDstAddress w).core := by
  have hcleared : Dlmsotcp.isEnabledAutoClose usDstAddress
      (x.put usDstAddress.toNat (x.node usDstAddress.toNat).left).state = false := by
    unfold Dlmsotcp.isEnabledAutoClose put
    rw [State.node_setNode, if_pos rfl]
    exact if_pos (.inr rfl)
  rw [leave_core, ← hx, leaveInd, state_notifyLeave hcleared]
  rfl

theorem state_storeRecord {ptrMsg : Mem UInt8} {i : ℕ} :
    (storeRecord ptrMsg i x).state = Dlmsotcp.storeRecord ptrMsg i x.state := by
  unfold storeRecord Dlmsotcp.storeRecord
  dsimp only
  split_ifs
  · rfl
  · rfl

end Erasure

end Indexed

/-! ## What a message does to the table -/

/-- A command about one device, and the device: 4 deletes it, 5 and 6 enable and disable its
auto close. -/
def Message.deviceCommand (m : Message) : Option (UInt8 × UInt16) :=
  if ¬ m.IsData ∧ m.len = 3 then
    (readByte m.payload 0).bind fun cmd =>
      if cmd = 4 ∨ cmd = 5 ∨ cmd = 6 then (readWord m.payload 1).map fun d => (cmd, d) else none
  else none

/-- The entry of the device after the command. -/
def ConnectedNode.command (cmd : UInt8) (node : ConnectedNode) : ConnectedNode :=
  { node with autocloseEnabled := if cmd = 5 then node.autocloseEnabled + 1 else 0 }

section Effect

variable {clock : ℕ → ℕ} {m : Message} {x y : Indexed} {s t : State}

theorem Indexed.sendList432Connections_used {i : ℕ} (hi : i ∈ (sendList432Connections x).used) :
    i ∈ x.used ∨ i < maxNumNodesConnected := by
  unfold sendList432Connections at hi
  split_ifs at hi
  · refine forRange_induction (fun n (y : Indexed) => ∀ i ∈ y.used, i ∈ x.used ∨ i < n)
      (Nat.zero_le _) (fun i hi => .inl hi) ?_ i hi
    intro n y _ _ hy i hi
    have hlook : i ∈ y.used ++ [n] := by
      unfold sendConnection at hi
      dsimp only at hi
      split_ifs at hi
      · exact hi
      · exact hi
    rcases List.mem_append.mp hlook with hold | hnew
    · exact (hy i hold).imp_right Nat.lt_succ_of_lt
    · exact .inr (by rw [List.mem_singleton.mp hnew]; exact Nat.lt_succ_self n)
  · exact .inl hi

/-- The entry of the device is used by a command about it, and no other one; the other
messages leave the table alone, and use what is inside of it. -/
theorem Indexed.handleMessage_cases (h : Indexed.handleMessage clock m x = some y) :
    (∃ cmd d, m.deviceCommand = some (cmd, d)
        ∧ y.used = x.used ++ (if cmd = 5 then [d.toNat, d.toNat] else [d.toNat])
        ∧ y.state.xListNodesConnected
          = x.state.xListNodesConnected.store d.toNat ((x.node d.toNat).command cmd))
      ∨ m.deviceCommand = none ∧ y.state.xListNodesConnected = x.state.xListNodesConnected
        ∧ ∀ i ∈ y.used, i ∈ x.used ∨ i < maxNumNodesConnected := by
  unfold Message.deviceCommand
  unfold Indexed.handleMessage at h
  by_cases hm : m.IsData
  · rw [if_pos hm] at h
    obtain ⟨t, ht, rfl⟩ := Option.map_eq_some_iff.mp h
    rw [if_neg fun hno => hno.1 hm]
    exact .inr ⟨rfl, (State.SameNodes.handleMessage_data hm ht).nodes, fun i hi => .inl hi⟩
  rw [if_neg hm] at h
  unfold customMessage at h
  obtain ⟨cmd, hcmd, h⟩ := Option.bind_eq_some_iff.mp h
  rw [hcmd, Option.bind_some]
  have hother (hno : ¬ (cmd = 4 ∨ cmd = 5 ∨ cmd = 6) ∨ m.len ≠ 3) :
      (if ¬ m.IsData ∧ m.len = 3 then
        if cmd = 4 ∨ cmd = 5 ∨ cmd = 6 then (readWord m.payload 1).map fun d => (cmd, d) else none
      else none) = none := by
    split_ifs with hlen hdevice
    · exact absurd hno (by tauto)
    · rfl
    · rfl
  by_cases h3 : cmd = 3
  · rw [if_pos h3] at h
    obtain rfl := Option.some.inj h
    refine .inr ⟨hother (.inl (by rw [h3]; decide)), ?_, fun i hi => ?_⟩
    · rw [state_sendList432Connections]
      exact answerList_spec.1
    · have hused := sendList432Connections_used hi
      exact hused
  rw [if_neg h3] at h
  by_cases hlen : m.len = 3
  · by_cases hdevice : cmd = 4 ∨ cmd = 5 ∨ cmd = 6
    · rw [if_pos ⟨hm, hlen⟩, if_pos hdevice]
      simp only [if_pos hlen] at h
      rcases hdevice with rfl | rfl | rfl
      all_goals
        obtain ⟨d, hd, rfl⟩ := Option.map_eq_some_iff.mp h
        refine .inl ⟨_, d, by rw [hd]; rfl, ?_, rfl⟩
        simp [addDeviceAutoClose, removeDeviceAutoClose, put, look, apart]
    · have h' : some x = some y := by
        rw [← h, if_neg fun h4 => hdevice (.inl h4), if_neg fun h5 => hdevice (.inr (.inl h5)),
          if_neg fun h6 => hdevice (.inr (.inr h6))]
      obtain rfl := Option.some.inj h'
      exact .inr ⟨hother (.inl hdevice), rfl, fun i hi => .inl hi⟩
  · simp only [if_neg hlen, ite_self] at h
    obtain rfl := Option.some.inj h
    exact .inr ⟨hother (.inr hlen), rfl, fun i hi => .inl hi⟩

theorem handleMessage_nodes (h : handleMessage clock m s = some t) :
    t.xListNodesConnected = match m.deviceCommand with
      | some (cmd, d) => s.xListNodesConnected.store d.toNat
          ((s.xListNodesConnected.cell d.toNat).command cmd)
      | none => s.xListNodesConnected := by
  have hwatch : (Indexed.handleMessage clock m ⟨s, []⟩).map Indexed.state = some t :=
    (Indexed.map_state_handleMessage clock m).trans h
  obtain ⟨y, hy, rfl⟩ := Option.map_eq_some_iff.mp hwatch
  rcases Indexed.handleMessage_cases hy with ⟨cmd, d, hcommand, -, hnodes⟩ | ⟨hnone, hnodes, -⟩
  · rw [hcommand]
    exact hnodes
  · rw [hnone]
    exact hnodes

/-- The command stands at the front of the message. -/
theorem Message.deviceCommand_head {cmd : UInt8} {d : UInt16}
    (h : m.deviceCommand = some (cmd, d)) : ¬ m.IsData ∧ m.payload.head? = some cmd := by
  unfold deviceCommand at h
  split_ifs at h with hcustom
  obtain ⟨c, hc, h⟩ := Option.bind_eq_some_iff.mp h
  split_ifs at h
  obtain ⟨x, -, heq⟩ := Option.map_eq_some_iff.mp h
  obtain rfl : c = cmd := congrArg Prod.fst heq
  refine ⟨hcustom.1, ?_⟩
  rw [List.head?_eq_getElem?]
  exact hc

end Effect

/-! ## The parts of an event -/

/-- The parts of an event: each carries at most one device id or address. -/
inductive Part where
  | message (m : Message)
  | join (pucDeviceId : Mem UInt8) (ucDeviceIdLen : UInt8) (usDstAddress : UInt16)
      (pucMac : Mem UInt8)
  | leave (usDstAddress : UInt16)
  | record (ptrMsg : Mem UInt8) (i : ℕ)

namespace Part

/-- The device id or the address that a part carries. -/
def deviceId : Part → Option UInt16
  | message m => m.deviceCommand.map Prod.snd
  | join _ _ usDstAddress _ | leave usDstAddress => some usDstAddress
  | record ptrMsg i => some (recordAddress ptrMsg i)

/-- What is done for a part. -/
def step (clock : ℕ → ℕ) : Part → Server → Option Server
  | message m, w => (handleMessage clock m w.core).map fun s => { w with core := s }
  | join pucDeviceId ucDeviceIdLen usDstAddress pucMac, w =>
      some (dlmsotcpCl432JoinIndCb pucDeviceId ucDeviceIdLen usDstAddress pucMac w)
  | leave usDstAddress, w => some (dlmsotcpCl432LeaveIndCb usDstAddress w)
  | record ptrMsg i, w => some { w with core := storeRecord ptrMsg i w.core }

/-- The same with the indices that are used. -/
def watch (clock : ℕ → ℕ) : Part → Indexed → Option Indexed
  | message m, x => x.handleMessage clock m
  | join pucDeviceId ucDeviceIdLen usDstAddress pucMac, x =>
      some (x.joinInd pucDeviceId ucDeviceIdLen usDstAddress pucMac)
  | leave usDstAddress, x => some (x.leaveInd usDstAddress)
  | record ptrMsg i, x => some (x.storeRecord ptrMsg i)

/-- The indices that are used for a part. -/
def indices (clock : ℕ → ℕ) (p : Part) (w : Server) : List ℕ :=
  ((p.watch clock ⟨w.core, []⟩).map Indexed.used).getD []

theorem map_state_watch {clock : ℕ → ℕ} {p : Part} {w : Server} {used : List ℕ} :
    (p.watch clock ⟨w.core, used⟩).map Indexed.state = (p.step clock w).map Server.core := by
  cases p with
  | message m =>
      rw [watch, Indexed.map_state_handleMessage, step, Option.map_map]
      exact (congrFun Option.map_id _).symm
  | join pucDeviceId ucDeviceIdLen usDstAddress pucMac =>
      exact congrArg some (Indexed.state_joinInd rfl)
  | leave usDstAddress => exact congrArg some (Indexed.state_leaveInd rfl)
  | record ptrMsg i => exact congrArg some Indexed.state_storeRecord

end Part

namespace ServerEvent

/-- The parts of an event from the network, the base node or the concentrator. -/
def parts : ServerEvent → List Part
  | core (.packet _ buf) => (messages buf).map .message
  | joinInd pucDeviceId ucDeviceIdLen usDstAddress pucMac =>
      [.join pucDeviceId ucDeviceIdLen usDstAddress pucMac]
  | leaveInd usDstAddress => [.leave usDstAddress]
  | response ptrMsg len =>
      if IsNodeList ptrMsg len then (List.range (ptrMsg.cell 5).toNat).map (.record ptrMsg) else []
  | core (.confirm ..) | closed | dataInd .. => []

/-- A packet comes with its descriptor. -/
def before : ServerEvent → Server → Server
  | core (.packet fd _), w => { w with core := { w.core with siDlmsoctpDataFd := fd } }
  | _, w => w

end ServerEvent

/-- `C` holds of every part of an event when it is its turn. -/
def EachPart (clock : ℕ → ℕ) (C : Part → Server → Prop) (e : ServerEvent) (w : Server) : Prop :=
  AlongSteps (Part.step clock) C e.parts (e.before w)

section Parts

variable {clock : ℕ → ℕ} {e : ServerEvent} {w w' : Server} {ms : List Message}

theorem runSteps_messages :
    (runSteps (Part.step clock) (ms.map .message) w).map Server.core
      = runSteps (handleMessage clock) ms w.core := by
  induction ms generalizing w with
  | nil => rfl
  | cons m ms ih =>
      rw [List.map_cons, runSteps_cons, runSteps_cons, Part.step]
      cases handleMessage clock m w.core with
      | none => rfl
      | some t => exact ih

theorem runSteps_records {ptrMsg : Mem UInt8} {n : ℕ} :
    runSteps (Part.step clock) ((List.range n).map (.record ptrMsg)) w
      = some { w with core := forRange 0 n (storeRecord ptrMsg) w.core } := by
  induction n with
  | zero => rfl
  | succ n ih =>
      rw [List.range_succ, List.map_append, runSteps_append, ih, forRange_succ (Nat.zero_le n)]
      rfl

/-- The table is what the parts of an event make of it. -/
theorem nodes_of_parts (hclosed : e ≠ .closed) (h : serverStep clock e w = some w') :
    ∃ u, runSteps (Part.step clock) e.parts (e.before w) = some u
      ∧ w'.core.xListNodesConnected = u.core.xListNodesConnected := by
  cases e with
  | core e =>
      obtain ⟨s, hs, rfl⟩ := Option.map_eq_some_iff.mp h
      cases e with
      | packet fd buf =>
          rw [step, dlmsotcpRxProcess_eq] at hs
          obtain ⟨t, ht, rfl⟩ := Option.map_eq_some_iff.mp hs
          have hparts : (runSteps (Part.step clock) ((messages buf).map .message)
              { w with core := { w.core with siDlmsoctpDataFd := fd } }).map Server.core = some t :=
            runSteps_messages.trans ht
          obtain ⟨u, hu, rfl⟩ := Option.map_eq_some_iff.mp hparts
          exact ⟨u, hu, rfl⟩
      | confirm ucDstLsap ucSrcLsap usDst ucTxStatus =>
          have hs : dlmsotcpCl432DlDataCfmCb clock ucDstLsap ucSrcLsap usDst ucTxStatus w.core
            = some s := hs
          exact ⟨w, rfl, (State.SameNodes.confirm hs).nodes⟩
  | closed => exact absurd rfl hclosed
  | joinInd pucDeviceId ucDeviceIdLen usDstAddress pucMac =>
      obtain rfl := Option.some.inj h
      exact ⟨_, rfl, rfl⟩
  | leaveInd usDstAddress =>
      obtain rfl := Option.some.inj h
      exact ⟨_, rfl, rfl⟩
  | response ptrMsg len =>
      obtain rfl := Option.some.inj h
      rw [response_core]
      by_cases hlist : IsNodeList ptrMsg len
      · have hparts : (ServerEvent.response ptrMsg len).parts
          = (List.range (ptrMsg.cell 5).toNat).map (.record ptrMsg) := if_pos hlist
        rw [hparts, if_pos hlist]
        exact ⟨_, runSteps_records, rfl⟩
      · have hparts : (ServerEvent.response ptrMsg len).parts = [] := if_neg hlist
        rw [hparts, if_neg hlist]
        exact ⟨w, rfl, rfl⟩
  | dataInd ucDstLsap ucSrcLsap usDst srcAddress pucData ucLsduLen ucLinkClass =>
      obtain rfl := Option.some.inj h
      refine ⟨w, rfl, ?_⟩
      unfold dlmsotcpCl432DlDataIndCb
      split_ifs
      · exact notifyClient_spec.1
      · rfl

end Parts

/-! ## The bounds -/

/-- The indices that are used for a part are inside of the table, and a part with a larger id
or address changes no entry. -/
structure TableBounds (clock : ℕ → ℕ) (p : Part) (w : Server) : Prop where
  below : ∀ i ∈ p.indices clock w, i < maxNumNodesConnected
  unchanged : ∀ d, p.deviceId = some d → maxNumNodesConnected ≤ d.toNat →
    ∀ w', p.step clock w = some w' → ∀ i < maxNumNodesConnected,
      w'.core.xListNodesConnected.cell i = w.core.xListNodesConnected.cell i

/-- The index that a part stands for; the records of broadcast connections are ignored. -/
def Part.index : Part → Option ℕ
  | message m => m.deviceCommand.map fun command => command.2.toNat
  | join _ _ usDstAddress _ | leave usDstAddress => some usDstAddress.toNat
  | record ptrMsg i =>
      if IsBroadcast (recordAddress ptrMsg i) then none else some (recordAddress ptrMsg i).toNat

/-- What a part stands for is inside of the table. -/
def Part.InRange (p : Part) : Prop := ∀ i, p.index = some i → i < maxNumNodesConnected

section Bounds

variable {clock : ℕ → ℕ} {p : Part} {w w' : Server} {m : Message} {i : ℕ}

theorem Part.indices_eq {y : Indexed} (h : p.watch clock ⟨w.core, []⟩ = some y) :
    p.indices clock w = y.used := by
  rw [indices, h]
  rfl

theorem Indexed.used_notifyLeave {usDevice : UInt16} {x : Indexed}
    (hi : i ∈ (x.notifyLeave usDevice).used) : i ∈ x.used ∨ i = usDevice.toNat := by
  have henabled : ∀ i ∈ (isEnabledAutoClose usDevice x).2.used,
      i ∈ x.used ∨ i = usDevice.toNat := by
    intro i hi
    unfold isEnabledAutoClose at hi
    dsimp only at hi
    split_ifs at hi
    · exact .inl hi
    · exact (List.mem_append.mp hi).imp_right List.mem_singleton.mp
  unfold notifyLeave at hi
  dsimp only at hi
  split_ifs at hi
  · exact henabled i hi
  · exact henabled i hi
  · exact .inl hi

theorem Indexed.used_sub_notifyLeave {usDevice : UInt16} {x : Indexed} (hi : i ∈ x.used) :
    i ∈ (x.notifyLeave usDevice).used := by
  have henabled : i ∈ (isEnabledAutoClose usDevice x).2.used := by
    unfold isEnabledAutoClose
    dsimp only
    split_ifs
    · exact hi
    · exact List.mem_append_left _ hi
  unfold notifyLeave
  dsimp only
  split_ifs
  · exact henabled
  · exact henabled
  · exact hi

/-- The indices that are used for a part that is processed: the one it stands for, and perhaps
others of the table. -/
theorem Part.indices_spec (h : p.step clock w = some w') :
    (∀ i, p.index = some i → i ∈ p.indices clock w)
      ∧ ∀ i ∈ p.indices clock w, i < maxNumNodesConnected ∨ p.index = some i := by
  cases p with
  | message m =>
      have hwatch : (watch clock (message m) ⟨w.core, []⟩).map Indexed.state = some w'.core := by
        rw [map_state_watch, h, Option.map_some]
      obtain ⟨y, hy, -⟩ := Option.map_eq_some_iff.mp hwatch
      rw [indices_eq hy]
      change (∀ i, m.deviceCommand.map (fun command => command.2.toNat) = some i → _)
        ∧ ∀ i ∈ y.used, _ ∨ m.deviceCommand.map (fun command => command.2.toNat) = some i
      rcases Indexed.handleMessage_cases hy with
        ⟨cmd, d, hcommand, hused, -⟩ | ⟨hnone, -, hused⟩
      · have hmem (i : ℕ) : i ∈ y.used ↔ i = d.toNat := by
          rw [hused, List.nil_append]
          split_ifs
          · simp
          · simp
        rw [hcommand, Option.map_some]
        refine ⟨fun i hi => ?_, fun i hi => .inr ?_⟩
        · rw [hmem]
          exact (Option.some.inj hi).symm
        · rw [(hmem i).mp hi]
      · rw [hnone, Option.map_none]
        refine ⟨fun i hi => (Option.some_ne_none i hi.symm).elim, fun i hi => .inl ?_⟩
        exact (hused i hi).resolve_left List.not_mem_nil
  | join pucDeviceId ucDeviceIdLen usDstAddress pucMac =>
      have hused : (join pucDeviceId ucDeviceIdLen usDstAddress pucMac).indices clock w
          = [usDstAddress.toNat, usDstAddress.toNat] := by
        rw [indices_eq rfl]
        unfold Indexed.joinInd
        dsimp only
        split_ifs
        · rfl
        · rfl
      rw [hused]
      refine ⟨fun i hi => ?_, fun i hi => .inr ?_⟩
      · rw [← Option.some.inj hi]
        exact List.mem_cons_self
      · have hi : i = usDstAddress.toNat := by simpa using hi
        rw [hi]
        rfl
  | leave usDstAddress =>
      rw [indices_eq rfl]
      refine ⟨fun i hi => ?_, fun i hi => .inr ?_⟩
      · rw [← Option.some.inj hi]
        exact Indexed.used_sub_notifyLeave List.mem_cons_self
      · rcases Indexed.used_notifyLeave hi with hput | hlook
        · rw [List.mem_singleton.mp hput]
          rfl
        · rw [hlook]
          rfl
  | record ptrMsg k =>
      rw [indices_eq rfl]
      change (∀ i, (if IsBroadcast (recordAddress ptrMsg k) then none
          else some (recordAddress ptrMsg k).toNat) = some i → _)
        ∧ ∀ i ∈ _, _ ∨ (if IsBroadcast (recordAddress ptrMsg k) then none
          else some (recordAddress ptrMsg k).toNat) = some i
      unfold Indexed.storeRecord
      dsimp only
      split_ifs
      · exact ⟨fun i hi => hi.elim, fun i hi => absurd hi List.not_mem_nil⟩
      · refine ⟨fun i hi => ?_, fun i hi => .inr ?_⟩
        · rw [← Option.some.inj hi]
          exact List.mem_singleton.mpr rfl
        · rw [List.mem_singleton.mp hi]

/-- A part that is inside of the table, or is ignored, changes nothing outside. -/
theorem Part.unchanged_of_inRange (h : p.InRange) {d : UInt16} (hd : p.deviceId = some d)
    (hlarge : maxNumNodesConnected ≤ d.toNat) (hw : p.step clock w = some w') :
    w'.core.xListNodesConnected = w.core.xListNodesConnected := by
  have hno : p.index ≠ some d.toNat := fun hindex => absurd (h _ hindex) (not_lt.mpr hlarge)
  cases p with
  | message m =>
      obtain ⟨⟨cmd, d'⟩, hcommand, rfl⟩ := Option.map_eq_some_iff.mp hd
      refine absurd ?_ hno
      change m.deviceCommand.map (fun command => command.2.toNat) = _
      rw [hcommand]
      rfl
  | join pucDeviceId ucDeviceIdLen usDstAddress pucMac =>
      obtain rfl := Option.some.inj hd
      exact absurd rfl hno
  | leave usDstAddress =>
      obtain rfl := Option.some.inj hd
      exact absurd rfl hno
  | record ptrMsg k =>
      obtain rfl := Option.some.inj hd
      obtain rfl := Option.some.inj hw
      by_cases hbroadcast : IsBroadcast (recordAddress ptrMsg k)
      · rw [storeRecord_eq, if_pos hbroadcast]
      · exact absurd (if_neg hbroadcast) hno

/-- A command is always processed to its end. -/
theorem exists_handleMessage (clock : ℕ → ℕ) (s : State) (hm : ¬ m.IsData) :
    ∃ t, handleMessage clock m s = some t := by
  obtain ⟨t, ht, -⟩ := customMessage_spec (s := s) (not_not.mp hm).2.2
  exact ⟨t, by rw [handleMessage, rxMessage, if_pos (not_not.mp hm), ht]⟩

/-- A message that is not processed to its end is for a node. -/
theorem Part.index_of_stuck (h : p.step clock w = none) : p.index = none := by
  cases p with
  | message m =>
      have hdata : m.IsData := by
        by_contra hm
        obtain ⟨t, ht⟩ := exists_handleMessage clock w.core hm
        rw [step, ht] at h
        cases h
      have hnone : m.deviceCommand = none := if_neg fun hno => hno.1 hdata
      exact congrArg (Option.map fun command => command.2.toNat) hnone
  | join pucDeviceId ucDeviceIdLen usDstAddress pucMac => cases h
  | leave usDstAddress => cases h
  | record ptrMsg k => cases h

/-- The bounds are met exactly by the parts that are inside of the table. -/
theorem tableBounds_iff : TableBounds clock p w ↔ p.InRange := by
  cases h : p.step clock w with
  | none =>
      have hnone := Part.index_of_stuck h
      have hwatch : p.watch clock ⟨w.core, []⟩ = none := by
        have hmap : (p.watch clock ⟨w.core, []⟩).map Indexed.state = none := by
          rw [Part.map_state_watch, h, Option.map_none]
        exact Option.map_eq_none_iff.mp hmap
      refine iff_of_true ⟨fun i hi => ?_, fun d _ _ w' hw' => ?_⟩ fun i hi => ?_
      · rw [Part.indices, hwatch] at hi
        cases hi
      · rw [h] at hw'
        cases hw'
      · rw [hnone] at hi
        cases hi
  | some w' =>
      obtain ⟨huses, honly⟩ := Part.indices_spec h
      constructor
      · intro hbounds i hi
        exact hbounds.below i (huses i hi)
      · intro hrange
        constructor
        · intro i hi
          exact (honly i hi).elim id (hrange i)
        · intro d hd hlarge w'' hw'' i _
          rw [Part.unchanged_of_inRange hrange hd hlarge hw'']

end Bounds

/-- **The bounds of the node table.**  In every run the indices that packets, joins, leaves
and lists of nodes use are inside of the table, and what lies outside changes no entry,
exactly when every device of a command, join or leave and every address of a record is inside
of it, but for the records of broadcast connections. -/
theorem node_table_bounds_iff (clock : ℕ → ℕ) (appId : ℤ) (memory : ℕ → XDlmsMsg)
    (behind : ℕ → ConnectedNode) (evs : List ServerEvent) :
    AlongSteps (serverStep clock) (EachPart clock (TableBounds clock)) evs
        (serverStarted appId memory behind)
      ↔ AlongSteps (serverStep clock) (EachPart clock fun p _ => p.InRange) evs
        (serverStarted appId memory behind) := by
  refine alongSteps_congr (I := fun _ => True) (fun e w _ => ?_) (fun _ _ _ _ _ _ => trivial)
    trivial
  exact alongSteps_congr (I := fun _ => True) (fun p w _ => tableBounds_iff)
    (fun _ _ _ _ _ _ => trivial) trivial

/-- The client enables the auto close of device 2000, the one behind the table. -/
def enableBehind : Message := ⟨1, 0, [5, 0x07, 0xd0], by decide⟩

/-- The index 2000 is used. -/
theorem enable_behind_table : ¬ ∀ (clock : ℕ → ℕ) (appId : ℤ) (memory : ℕ → XDlmsMsg)
    (behind : ℕ → ConnectedNode) (evs : List ServerEvent),
    AlongSteps (serverStep clock) (EachPart clock (TableBounds clock)) evs
      (serverStarted appId memory behind) := by
  intro hclaim
  have hparts := (hclaim (fun _ => 0) 3 zeroMemory zeroNodes
    [.core (.packet 7 (encodeAll [enableBehind]))]).1
  have hmessages : messages (encodeAll [enableBehind]) = [enableBehind] := messages_encodeAll
  unfold EachPart ServerEvent.parts at hparts
  dsimp only at hparts
  rw [hmessages] at hparts
  have hrange := tableBounds_iff.mp hparts.1
  exact absurd (hrange 2000 (by decide)) (by decide)

end Dlmsotcp
