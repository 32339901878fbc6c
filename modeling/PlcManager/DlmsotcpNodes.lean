/-
# The table of the connected nodes

Embeds the rest of the callbacks of `dlmsotcp.c`: a node joins or leaves the 4-32 layer,
the base node lists the connected nodes page by page, a node sends data, and the client
goes away.  Joins, leaves, lists and the end of a connection change the table of the
connected nodes; joins, leaves and data are told to the client.

Stores behind the table are stores to the memory behind it.
-/
import PlcManager.DlmsotcpSocket
import PlcManager.DlmsotcpConservation
import PlcManager.MessageReader

namespace Dlmsotcp

open Read

/-- `MNGP_PRIME_LISTRSP`. -/
def mngpPrimeListrsp : UInt8 := 0x0f
/-- `MNGP_PRIME_GETQRY`. -/
def mngpPrimeGetqry : UInt8 := 0x00
/-- `PIB_MAC_EUI_48`. -/
def pibMacEui48 : UInt16 := 0x8100

/-! ## State -/

/-- A call of the management layer. -/
inductive MngCall where
  | newMsg (cmd : UInt8)
  | addGetPibQuery (pibAttrib : UInt16) (index : UInt8)
  | addGetPibListEnQuery (pibAttrib : UInt16) (maxRecords : ℕ) (iterator : UInt16)
  | sendMsg (appId : ℤ)
  deriving DecidableEq, Repr

/-- The module with the static variables that only these callbacks use, and the calls of
the management layer that they make. -/
structure Server where
  core : State
  usMaxIndexConnectedNode : UInt16
  pucMacAddress : Mem UInt8
  mngCalls : List MngCall

/-- The client is told something, if there is one that wants to know. -/
def notifyClient (bytes : List UInt8) (s : State) : State :=
  if 0 < s.siDlmsoctpDataFd ∧ s.iEnableNotifications = true then
    s.emit [.write s.siDlmsoctpDataFd bytes]
  else s

/-! ## Joins and leaves -/

/-- The NEW_DEVICE notification for a node that joins. -/
def joinNotification (usDstAddress : UInt16) (ucLength : UInt8) (deviceId mac : List UInt8) :
    List UInt8 :=
  let pucDlmsMsg : List UInt8 :=
    [0, 1, 0, 0, 0, 1, 0, 12 + ucLength, 1,
      (usDstAddress >>> 8).toUInt8, usDstAddress.toUInt8, 0, 1, ucLength] ++ deviceId ++ mac
  pucDlmsMsg.take (20 + ucLength).toNat

/-- The entry for a node that joins; what was behind a shorter identifier stays. -/
def ConnectedNode.join (pucDeviceId : Mem UInt8) (ucLength : UInt8) (usDstAddress : UInt16)
    (pucMac : Mem UInt8) (node : ConnectedNode) : ConnectedNode :=
  { node with
    dstAddress := usDstAddress
    serialNumber := Vector.ofFn fun j =>
      if j.val < ucLength.toNat then pucDeviceId.cell j else node.serialNumber[j]
    lenSerialNumber := ucLength
    mac := Vector.ofFn fun j => pucMac.cell j }

/-- `_dlmsotcp_cl_432_join_ind_cb`. -/
def dlmsotcpCl432JoinIndCb (pucDeviceId : Mem UInt8) (ucDeviceIdLen : UInt8)
    (usDstAddress : UInt16) (pucMac : Mem UInt8) (w : Server) : Server :=
  let usMaxIndexConnectedNode :=
    if w.usMaxIndexConnectedNode ≤ usDstAddress then usDstAddress + 1
    else w.usMaxIndexConnectedNode
  let ucLength : UInt8 := if 16 < ucDeviceIdLen then 16 else ucDeviceIdLen
  let node := w.core.xListNodesConnected.cell usDstAddress.toNat
  let s : State :=
    { w.core with
      xListNodesConnected := w.core.xListNodesConnected.store usDstAddress.toNat
        (node.join pucDeviceId ucLength usDstAddress pucMac) }
  { w with
    core :=
      if node.autocloseEnabled = 0 then
        notifyClient (joinNotification usDstAddress ucLength
          (pucDeviceId.slice 0 ucLength.toNat) (pucMac.slice 0 6)) s
      else s
    usMaxIndexConnectedNode := usMaxIndexConnectedNode }

/-- `_is_enabled_auto_close`; the comparison lets one index behind the table pass. -/
def isEnabledAutoClose (usDevice : UInt16) (s : State) : Bool :=
  let node := s.xListNodesConnected.cell usDevice.toNat
  if maxNumNodesConnected < usDevice.toNat ∨ node.dstAddress = cl432InvalidAddress then false
  else 0 < node.autocloseEnabled

/-- The REMOVE_DEVICE notification. -/
def leaveNotification (usDstAddress : UInt16) : List UInt8 :=
  [0, 1, 0, 0, 0, 1, 0, 3, 2, (usDstAddress >>> 8).toUInt8, usDstAddress.toUInt8]

/-- `_dlmsotcp_cl_432_leave_ind_cb`.  When auto close is asked for, the entry has already
been cleared. -/
def dlmsotcpCl432LeaveIndCb (usDstAddress : UInt16) (w : Server) : Server :=
  let node := w.core.xListNodesConnected.cell usDstAddress.toNat
  let s : State :=
    { w.core with
      xListNodesConnected := w.core.xListNodesConnected.store usDstAddress.toNat
        { node with dstAddress := cl432InvalidAddress, autocloseEnabled := 0 } }
  { w with
    core :=
      if isEnabledAutoClose usDstAddress s then s
      else notifyClient (leaveNotification usDstAddress) s }

/-! ## Data -/

/-- What is written for data of a node: version, source, association, length, data. -/
def dataNotification (ucDstLsap : UInt8) (srcAddress : UInt16) (pucData : Mem UInt8)
    (ucLsduLen : UInt16) : List UInt8 :=
  let header : List UInt8 :=
    [0, 1, (srcAddress >>> 8).toUInt8, srcAddress.toUInt8, 0, ucDstLsap,
      (ucLsduLen >>> 8).toUInt8, ucLsduLen.toUInt8]
  (header ++ pucData.slice 0 ucLsduLen.toNat).take (ucLsduLen + 8).toNat

/-- `_dlmsotcp_cl_432_dl_data_ind_cb`; an empty message is not forwarded. -/
def dlmsotcpCl432DlDataIndCb (ucDstLsap _ucSrcLsap : UInt8) (_usDstAddress srcAddress : UInt16)
    (pucData : Mem UInt8) (ucLsduLen : UInt16) (_ucLinkClass : UInt8) (w : Server) : Server :=
  if 0 < ucLsduLen then
    { w with
      core := notifyClient (dataNotification ucDstLsap srcAddress pucData ucLsduLen) w.core }
  else w

/-! ## Lists of nodes -/

/-- Where the record `i` of a list response starts; the iterator is not counted in the
length of a record. -/
def recordAt (ucRecordLen : UInt8) (i : ℕ) : ℕ := 7 + i * (ucRecordLen.toNat + 2)

/-- The address in a record. -/
def recordAddress (ptrMsg : Mem UInt8) (i : ℕ) : UInt16 :=
  wordAt ptrMsg (recordAt (ptrMsg.cell 6) i + 2)

/-- The broadcast connections are ignored; the bound has a digit less than it should. -/
def IsBroadcast (usAddress : UInt16) : Prop := 0xfff - 1 ≤ usAddress

instance (a : UInt16) : Decidable (IsBroadcast a) := inferInstanceAs (Decidable (_ ≤ _))

/-- The entry for the record at address `p`: address, serial number, its length, MAC. -/
def ConnectedNode.record (ptrMsg : Mem UInt8) (p : ℕ) (node : ConnectedNode) : ConnectedNode :=
  { node with
    dstAddress := wordAt ptrMsg (p + 2)
    serialNumber := Vector.ofFn fun j => ptrMsg.cell (p + 4 + j)
    lenSerialNumber := ptrMsg.cell (p + 4 + serialNumber432Mac)
    mac := Vector.ofFn fun j => ptrMsg.cell (p + 4 + serialNumber432Mac + 1 + j) }

/-- One record of a list response is stored. -/
def storeRecord (ptrMsg : Mem UInt8) (i : ℕ) (s : State) : State :=
  let usAddress := recordAddress ptrMsg i
  if IsBroadcast usAddress then s
  else
    { s with
      xListNodesConnected := s.xListNodesConnected.store usAddress.toNat
        ((s.xListNodesConnected.cell usAddress.toNat).record ptrMsg
          (recordAt (ptrMsg.cell 6) i)) }

/-- The loop over the records. -/
def listRecords (ptrMsg : Mem UInt8) (s : State) : State :=
  forRange 0 (ptrMsg.cell 5).toNat (storeRecord ptrMsg) s

/-- Calls of the management layer are made. -/
def Server.manage (w : Server) (calls : List MngCall) : Server :=
  { w with mngCalls := w.mngCalls ++ calls }

/-- What follows the last record: the EUI48 of the base node is asked for if it is not
known, or the next page of the list. -/
def afterRecords (ptrMsg : Mem UInt8) (w : Server) : Server :=
  let ucRecords := (ptrMsg.cell 5).toNat
  if ucRecords = 0 ∨ ucRecords < mngpPrimeEnhancedListMaxRecords then
    if w.pucMacAddress.slice 0 6 = List.replicate 6 0 then
      w.manage [.newMsg mngpPrimeGetqry, .addGetPibQuery pibMacEui48 0,
        .sendMsg w.core.siDlmsoctpAppId]
    else w
  else
    let usLastIterator := wordAt ptrMsg (recordAt (ptrMsg.cell 6) (ucRecords - 1))
    if usLastIterator = 0xffff then w
    else if usLastIterator &&& 0x8000 ≠ 0 then w
    else
      let next := usLastIterator + 1
      w.manage [.newMsg mngpPrimeEnPibqry,
        .addGetPibListEnQuery pibAtml432NodeList mngpPrimeEnhancedListMaxRecords
          (((next &&& 0xff) <<< 8) + ((next >>> 8) &&& 0xff)),
        .sendMsg w.core.siDlmsoctpAppId]

/-- The response is a list of 4-32 nodes. -/
def IsNodeList (ptrMsg : Mem UInt8) (len : UInt16) : Prop :=
  4 ≤ len ∧ ptrMsg.cell 2 = mngpPrimeListrsp ∧ wordAt ptrMsg 3 = pibAtml432NodeList

instance (ptrMsg : Mem UInt8) (len : UInt16) : Decidable (IsNodeList ptrMsg len) :=
  inferInstanceAs (Decidable (_ ∧ _))

/-- `_dlmsotcp_mngp_rsp_cb`. -/
def dlmsotcpMngpRspCb (ptrMsg : Mem UInt8) (len : UInt16) (w : Server) : Server :=
  if len < 4 then w
  else if ptrMsg.cell 2 ≠ mngpPrimeListrsp then
    if wordAt ptrMsg 2 = pibMacEui48 then
      { w with pucMacAddress := w.pucMacAddress.storeList 0 (ptrMsg.slice 5 6) }
    else w
  else if wordAt ptrMsg 3 = pibAtml432NodeList then
    afterRecords ptrMsg { w with core := listRecords ptrMsg w.core }
  else w

/-! ## The client leaves -/

/-- `dlmsotcp_close_432`: the nodes to be closed automatically are released. -/
def dlmsotcpClose432 (s : State) : State :=
  forRange 0 maxNumNodesConnected (fun i s =>
    let node := s.xListNodesConnected.cell i
    if node.autocloseEnabled = 1 then
      { s.emit [.selectApi s.siDlmsoctpAppId, .releaseRequest node.dstAddress] with
        xListNodesConnected := s.xListNodesConnected.store i
          { node with dstAddress := cl432InvalidAddress, autocloseEnabled := 0 } }
    else s) s

/-- What `dlmsotcp_callback` does when the last connection is closed. -/
def lastConnectionClosed (s : State) : State := dlmsotcpClose432 { s with siDlmsoctpDataFd := -1 }

/-! ## The system -/

/-- What happens to the module. -/
inductive ServerEvent where
  | core (e : Event)
  | closed
  | joinInd (pucDeviceId : Mem UInt8) (ucDeviceIdLen : UInt8) (usDstAddress : UInt16)
      (pucMac : Mem UInt8)
  | leaveInd (usDstAddress : UInt16)
  | response (ptrMsg : Mem UInt8) (len : UInt16)
  | dataInd (ucDstLsap ucSrcLsap : UInt8) (usDstAddress srcAddress : UInt16)
      (pucData : Mem UInt8) (ucLsduLen : UInt16) (ucLinkClass : UInt8)

/-- The reaction to an event. -/
def serverStep (clock : ℕ → ℕ) : ServerEvent → Server → Option Server
  | .core e, w => (step clock e w.core).map fun s => { w with core := s }
  | .closed, w => some { w with core := lastConnectionClosed w.core }
  | .joinInd pucDeviceId ucDeviceIdLen usDstAddress pucMac, w =>
      some (dlmsotcpCl432JoinIndCb pucDeviceId ucDeviceIdLen usDstAddress pucMac w)
  | .leaveInd usDstAddress, w => some (dlmsotcpCl432LeaveIndCb usDstAddress w)
  | .response ptrMsg len, w => some (dlmsotcpMngpRspCb ptrMsg len w)
  | .dataInd ucDstLsap ucSrcLsap usDstAddress srcAddress pucData ucLsduLen ucLinkClass, w =>
      some (dlmsotcpCl432DlDataIndCb ucDstLsap ucSrcLsap usDstAddress srcAddress pucData
        ucLsduLen ucLinkClass w)

/-- The module after `dlmsotcp_init`. -/
def serverStarted (appId : ℤ) (memory : ℕ → XDlmsMsg) (behind : ℕ → ConnectedNode) : Server where
  core := started appId memory behind
  usMaxIndexConnectedNode := 0
  pucMacAddress := Mem.init fun _ => 0
  mngCalls := []

/-! ## What the callbacks do -/

/-- An entry is replaced. -/
def State.setNode (s : State) (i : ℕ) (node : ConnectedNode) : State :=
  { s with xListNodesConnected := s.xListNodesConnected.store i node }

section Callbacks

variable {s t : State} {w : Server} {bytes : List UInt8} {i : ℕ} {node : ConnectedNode}
  {pucDeviceId pucMac ptrMsg pucData : Mem UInt8} {ucDeviceIdLen : UInt8}
  {usDstAddress len : UInt16}

theorem State.node_setNode {j : ℕ} : (s.setNode i node).xListNodesConnected.cell j
    = if j = i then node else s.xListNodesConnected.cell j := Mem.cell_store

theorem State.connected_setNode {j : ℕ} : (s.setNode i node).Connected j ↔
    if j = i then i < maxNumNodesConnected ∧ node.dstAddress ≠ cl432InvalidAddress
    else s.Connected j := by
  unfold Connected
  rw [node_setNode]
  by_cases hj : j = i
  · subst hj
    simp
  · simp [hj]

/-- What the client is told changes only what has been written. -/
theorem notifyClient_spec : (notifyClient bytes s).xListNodesConnected = s.xListNodesConnected
    ∧ (notifyClient bytes s).iEnableNotifications = s.iEnableNotifications
    ∧ (notifyClient bytes s).siDlmsoctpDataFd = s.siDlmsoctpDataFd
    ∧ (notifyClient bytes s).writes = s.writes ++
      if 0 < s.siDlmsoctpDataFd ∧ s.iEnableNotifications = true then
        [(s.siDlmsoctpDataFd, bytes)] else [] := by
  unfold notifyClient
  split_ifs
  · exact ⟨rfl, rfl, rfl, State.writes_emit⟩
  · exact ⟨rfl, rfl, rfl, (List.append_nil _).symm⟩

/-- The length of the identifier that a join stores. -/
def joinLength (ucDeviceIdLen : UInt8) : UInt8 := if 16 < ucDeviceIdLen then 16 else ucDeviceIdLen

theorem joinLength_le : joinLength ucDeviceIdLen ≤ 16 := by
  unfold joinLength
  split_ifs with h
  · exact UInt8.le_refl 16
  · exact UInt8.not_lt.mp h

/-- A join replaces the entry of the node, and the client is told unless the node is to be
closed automatically. -/
theorem join_core :
    (dlmsotcpCl432JoinIndCb pucDeviceId ucDeviceIdLen usDstAddress pucMac w).core
      = (if (w.core.xListNodesConnected.cell usDstAddress.toNat).autocloseEnabled = 0 then
          notifyClient (joinNotification usDstAddress (joinLength ucDeviceIdLen)
            (pucDeviceId.slice 0 (joinLength ucDeviceIdLen).toNat) (pucMac.slice 0 6))
        else id) (w.core.setNode usDstAddress.toNat
          ((w.core.xListNodesConnected.cell usDstAddress.toNat).join pucDeviceId
            (joinLength ucDeviceIdLen) usDstAddress pucMac)) := by
  unfold dlmsotcpCl432JoinIndCb
  by_cases h : (w.core.xListNodesConnected.cell usDstAddress.toNat).autocloseEnabled = 0
  · rw [if_pos h]
    exact if_pos h
  · rw [if_neg h]
    exact if_neg h

/-- The entry that a leave puts in place of the node. -/
def ConnectedNode.left (node : ConnectedNode) : ConnectedNode :=
  { node with dstAddress := cl432InvalidAddress, autocloseEnabled := 0 }

/-- A leave clears the entry of the node, and the client is told: no entry that has been
cleared is to be closed automatically. -/
theorem leave_core : (dlmsotcpCl432LeaveIndCb usDstAddress w).core
    = notifyClient (leaveNotification usDstAddress) (w.core.setNode usDstAddress.toNat
        (w.core.xListNodesConnected.cell usDstAddress.toNat).left) := by
  have hcleared : isEnabledAutoClose usDstAddress (w.core.setNode usDstAddress.toNat
      (w.core.xListNodesConnected.cell usDstAddress.toNat).left) = false := by
    unfold isEnabledAutoClose
    rw [State.node_setNode, if_pos rfl]
    exact if_pos (.inr rfl)
  unfold dlmsotcpCl432LeaveIndCb
  dsimp only
  exact if_neg (by rw [Bool.not_eq_true]; exact hcleared)

theorem afterRecords_core : (afterRecords ptrMsg w).core = w.core := by
  unfold afterRecords
  dsimp only
  split_ifs <;> rfl

/-- A response changes the table if it is a list of nodes. -/
theorem response_core : (dlmsotcpMngpRspCb ptrMsg len w).core
    = if IsNodeList ptrMsg len then listRecords ptrMsg w.core else w.core := by
  unfold dlmsotcpMngpRspCb
  by_cases hlen : len < 4
  · rw [if_pos hlen, if_neg fun h => UInt16.not_le.mpr hlen h.1]
  rw [if_neg hlen]
  by_cases hlist : ptrMsg.cell 2 = mngpPrimeListrsp
  · rw [if_neg (not_not.mpr hlist)]
    by_cases hpib : wordAt ptrMsg 3 = pibAtml432NodeList
    · rw [if_pos hpib, if_pos ⟨UInt16.not_lt.mp hlen, hlist, hpib⟩, afterRecords_core]
    · rw [if_neg hpib, if_neg fun h => hpib h.2.2]
  · have hno : ¬ IsNodeList ptrMsg len := fun h => hlist h.2.1
    rw [if_pos hlist, if_neg hno]
    split_ifs <;> rfl

/-- A record replaces the entry of its node, unless it is a broadcast connection. -/
theorem storeRecord_eq : storeRecord ptrMsg i s = if IsBroadcast (recordAddress ptrMsg i) then s
    else s.setNode (recordAddress ptrMsg i).toNat
      ((s.xListNodesConnected.cell (recordAddress ptrMsg i).toNat).record ptrMsg
        (recordAt (ptrMsg.cell 6) i)) := rfl

/-- A list changes nothing but the table. -/
theorem listRecords_spec :
    (listRecords ptrMsg s).iEnableNotifications = s.iEnableNotifications
      ∧ (listRecords ptrMsg s).siDlmsoctpDataFd = s.siDlmsoctpDataFd
      ∧ (listRecords ptrMsg s).writes = s.writes := by
  unfold listRecords
  apply forRange_invariant (fun t : State => t.iEnableNotifications = s.iEnableNotifications
    ∧ t.siDlmsoctpDataFd = s.siDlmsoctpDataFd ∧ t.writes = s.writes) ⟨rfl, rfl, rfl⟩
  intro i t _ _ ht
  rw [storeRecord_eq]
  split_ifs
  · exact ht
  · exact ht

/-- The end of the last connection clears entries at most, and nothing is written. -/
theorem lastConnectionClosed_spec :
    (lastConnectionClosed s).siDlmsoctpDataFd = -1
      ∧ (lastConnectionClosed s).writes = s.writes
      ∧ ∀ i, ((lastConnectionClosed s).xListNodesConnected.cell i = s.xListNodesConnected.cell i
          ∨ (lastConnectionClosed s).xListNodesConnected.cell i
            = (s.xListNodesConnected.cell i).left) := by
  unfold lastConnectionClosed dlmsotcpClose432
  refine forRange_invariant (fun t : State => t.siDlmsoctpDataFd = -1 ∧ t.writes = s.writes
    ∧ ∀ i, (t.xListNodesConnected.cell i = s.xListNodesConnected.cell i
      ∨ t.xListNodesConnected.cell i = (s.xListNodesConnected.cell i).left))
    ⟨rfl, rfl, fun i => .inl rfl⟩ ?_
  rintro i t - - ⟨hfd, hwrites, hnodes⟩
  dsimp only
  split_ifs
  · refine ⟨hfd, ?_, fun j => ?_⟩
    · have hemit : (t.emit [.selectApi t.siDlmsoctpAppId,
          .releaseRequest (t.xListNodesConnected.cell i).dstAddress]).writes = t.writes ++ [] :=
        State.writes_emit
      exact hemit.trans ((List.append_nil _).trans hwrites)
    · rw [Mem.cell_store]
      split_ifs with hji
      · subst hji
        -- a cleared entry is cleared again
        rcases hnodes j with h | h
        · exact .inr (by rw [h]; rfl)
        · exact .inr (by rw [h]; rfl)
      · exact hnodes j
  · exact ⟨hfd, hwrites, hnodes⟩

end Callbacks

/-! ## Entries and addresses -/

/-- A used entry is about the node with its own address. -/
def OwnAddress (s : State) : Prop :=
  ∀ i, s.Connected i → (s.xListNodesConnected.cell i).dstAddress.toNat = i

namespace OwnAddress

variable {clock : ℕ → ℕ} {s t : State} {w w' : Server} {i : ℕ} {node : ConnectedNode}
  {e : ServerEvent}

theorem setNode (h : OwnAddress s)
    (hnode : node.dstAddress = cl432InvalidAddress ∨ node.dstAddress.toNat = i) :
    OwnAddress (s.setNode i node) := by
  intro j hj
  rw [State.connected_setNode] at hj
  rw [State.node_setNode]
  by_cases hji : j = i
  · rw [if_pos hji] at hj ⊢
    rw [hnode.resolve_left hj.2, hji]
  · rw [if_neg hji] at hj ⊢
    exact h j hj

theorem of_entries (h : OwnAddress s)
    (hentries : SameEntries s.xListNodesConnected t.xListNodesConnected) : OwnAddress t := by
  intro i hi
  rw [hentries.dstAddress]
  exact h i ((State.Connected.of_entries hentries).mp hi)

theorem of_nodes (h : OwnAddress s) (hnodes : t.xListNodesConnected = s.xListNodesConnected) :
    OwnAddress t := by
  apply h.of_entries
  rw [hnodes]
  exact .refl _

theorem listRecords {ptrMsg : Mem UInt8} (h : OwnAddress s) :
    OwnAddress (listRecords ptrMsg s) := by
  unfold Dlmsotcp.listRecords
  apply forRange_invariant (fun t => OwnAddress t) h
  intro i t _ _ ht
  rw [storeRecord_eq]
  split_ifs
  · exact ht
  · exact ht.setNode (.inr rfl)

theorem closed (h : OwnAddress s) : OwnAddress (lastConnectionClosed s) := by
  intro i hi
  unfold State.Connected at hi
  rcases lastConnectionClosed_spec.2.2 i with hcell | hcell
  · rw [hcell] at hi ⊢
    exact h i hi
  · rw [hcell] at hi
    exact absurd rfl hi.2

/-- Every event keeps the addresses. -/
theorem step (h : OwnAddress w.core) (hw : serverStep clock e w = some w') :
    OwnAddress w'.core := by
  cases e with
  | core e =>
      obtain ⟨s, hs, rfl⟩ := Option.map_eq_some_iff.mp hw
      exact h.of_entries (step_entries hs)
  | closed =>
      obtain rfl := Option.some.inj hw
      dsimp only
      exact h.closed
  | joinInd pucDeviceId ucDeviceIdLen usDstAddress pucMac =>
      obtain rfl := Option.some.inj hw
      rw [join_core]
      have hset : OwnAddress (w.core.setNode usDstAddress.toNat
          ((w.core.xListNodesConnected.cell usDstAddress.toNat).join pucDeviceId
            (joinLength ucDeviceIdLen) usDstAddress pucMac)) := h.setNode (.inr rfl)
      split_ifs
      · exact hset.of_nodes notifyClient_spec.1
      · exact hset
  | leaveInd usDstAddress =>
      obtain rfl := Option.some.inj hw
      rw [leave_core]
      exact (h.setNode (.inl rfl)).of_nodes notifyClient_spec.1
  | response ptrMsg len =>
      obtain rfl := Option.some.inj hw
      rw [response_core]
      split_ifs
      · exact h.listRecords
      · exact h
  | dataInd ucDstLsap ucSrcLsap usDst srcAddress pucData ucLsduLen ucLinkClass =>
      obtain rfl := Option.some.inj hw
      unfold dlmsotcpCl432DlDataIndCb
      split_ifs
      · exact h.of_nodes notifyClient_spec.1
      · exact h

end OwnAddress

/-! ## The start -/

section Started

variable (appId : ℤ) (memory : ℕ → XDlmsMsg) (behind : ℕ → ConnectedNode)

theorem reserveMemory_sameNodes {n i : ℕ} {s t : State} (h : reserveMemory n i s = some t) :
    s.SameNodes t := by
  induction n generalizing i s with
  | zero => exact Option.some.inj h ▸ .refl s
  | succ n ih =>
      obtain ⟨u, hu, hrest⟩ := Option.bind_eq_some_iff.mp h
      exact (State.SameNodes.putFree hu).trans (ih hrest)

/-- The loop of `dlmsotcp_init` over the table. -/
theorem clearTable_spec {n i : ℕ} {m : Mem ConnectedNode} (hi : i < n) :
    ((forRange 0 n (fun i (t : Mem ConnectedNode) => t.store i
        { t.cell i with dstAddress := cl432InvalidAddress, autocloseEnabled := 0 }) m).cell
          i).dstAddress = cl432InvalidAddress
      ∧ ((forRange 0 n (fun i (t : Mem ConnectedNode) => t.store i
        { t.cell i with dstAddress := cl432InvalidAddress, autocloseEnabled := 0 }) m).cell
          i).autocloseEnabled = 0 := by
  refine forRange_induction (fun n (m : Mem ConnectedNode) => ∀ i < n,
    (m.cell i).dstAddress = cl432InvalidAddress ∧ (m.cell i).autocloseEnabled = 0)
    (Nat.zero_le n) (fun i hi => absurd hi (Nat.not_lt_zero i)) ?_ i hi
  intro n m _ _ hm i hi
  rw [Mem.cell_store]
  by_cases hin : i = n
  · rw [if_pos hin]
    exact ⟨rfl, rfl⟩
  · rw [if_neg hin]
    exact hm i (by omega)

/-- What the client is told by `dlmsotcp_init`: nothing, and there is nothing to tell. -/
theorem started_spec : (started appId memory behind).writes = []
    ∧ (started appId memory behind).siDlmsoctpDataFd = -1
    ∧ (started appId memory behind).iEnableNotifications = false
    ∧ ∀ i < maxNumNodesConnected,
        ((started appId memory behind).xListNodesConnected.cell i).dstAddress
            = cl432InvalidAddress
          ∧ ((started appId memory behind).xListNodesConnected.cell i).autocloseEnabled = 0 := by
  have hinit := (dlmsotcpInit_spec appId memory behind).1
  unfold dlmsotcpInit at hinit
  obtain ⟨t, ht, hstarted⟩ := Option.map_eq_some_iff.mp hinit
  have hsame := reserveMemory_sameNodes ht
  rw [← hstarted]
  refine ⟨?_, hsame.dataFd, hsame.enable, ?_⟩
  · rw [State.writes_emit, hsame.writes]
    rfl
  · intro i hi
    change (t.xListNodesConnected.cell i).dstAddress = cl432InvalidAddress
      ∧ (t.xListNodesConnected.cell i).autocloseEnabled = 0
    rw [hsame.nodes]
    have hclear := clearTable_spec (m := (State.static memory behind).xListNodesConnected) hi
    dsimp only at hclear ⊢
    exact hclear

theorem not_connected_started (i : ℕ) : ¬ (started appId memory behind).Connected i := by
  rintro ⟨hlt, hvalid⟩
  exact hvalid ((started_spec appId memory behind).2.2.2 i hlt).1

theorem ownAddress_started : OwnAddress (serverStarted appId memory behind).core :=
  fun i hi => absurd hi (not_connected_started appId memory behind i)

end Started

end Dlmsotcp
