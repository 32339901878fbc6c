/-
# The search for the next node

The search for the next connected node ends at `sus_max_index_connected_node`, which is to be
behind all connected nodes.  A join and a record raise it, the count sets it anew, and a leave
leaves it as it is.  A record of a list response writes one byte more than its entry has room
for: the zero that ends the serial number is stored where the length byte of the record says.
Where this is the address of a node that is not connected, the node is connected from then
on, and nothing has raised the largest index.
-/
import PlcManager.DlmsEmuCycle

namespace DlmsEmu

open Dlmsotcp (cl432InvalidAddress mngpPrimeEnhancedListMaxRecords)

/-! ## Events of the list -/

/-- The address in record `i` of a list response. -/
def addressAt (ptrMsg : Mem UInt8) (i : ℕ) : UInt16 :=
  bigEndian ptrMsg (recordAt (ptrMsg.cell 6) i + 2)

/-- The length byte of record `i`. -/
def lengthAt (ptrMsg : Mem UInt8) (i : ℕ) : ℕ :=
  (ptrMsg.cell (recordAt (ptrMsg.cell 6) i + 4 + dlmsEmuSn432MacSize)).toNat

/-- Record `i` is stored: it is there, and it is not of a broadcast connection. -/
def Stored (ptrMsg : Mem UInt8) (i : ℕ) : Prop :=
  i < (ptrMsg.cell 5).toNat ∧ ¬ 0x0fff - 1 ≤ addressAt ptrMsg i

/-- What changes the list, with addresses of the list. -/
inductive ListEvent where
  | joinInd (pucDeviceId : Mem UInt8) (ucDeviceIdLen : UInt8) (usDstAddress : UInt16)
      (pucMac : Mem UInt8) (inList : usDstAddress < dlmsEmuMaxNumNodesConnected)
  | leaveInd (usDstAddress : UInt16) (inList : usDstAddress < dlmsEmuMaxNumNodesConnected)
  | response (ptrMsg : Mem UInt8) (len : UInt16)
      (inList : ∀ i, Stored ptrMsg i → addressAt ptrMsg i < dlmsEmuMaxNumNodesConnected)
  | count

/-- The state after an event. -/
def ListEvent.run : ListEvent → State → State
  | .joinInd pucDeviceId ucDeviceIdLen usDstAddress pucMac _, s =>
      dlmsEmulCl432JoinIndCb pucDeviceId ucDeviceIdLen usDstAddress pucMac s
  | .leaveInd usDstAddress _, s => dlmsEmulCl432LeaveIndCb usDstAddress s
  | .response ptrMsg len _, s => dlmsMngpRspCb ptrMsg len s
  | .count, s => (getNumberNodesConnected s).2

/-- One event after the other. -/
def listStep (e : ListEvent) (s : State) : Option State := some (e.run s)

/-! ## The law -/

/-- The largest index is behind all connected nodes of the list. -/
def Bounded (s : State) : Prop :=
  ∀ i < dlmsEmuMaxNumNodesConnected.toNat, Connected s.sxListNodes i →
    i < s.susMaxIndexConnectedNode.toNat

/-- The search from `us_index` finds the next connected node, or there is none. -/
def FindsNext (usIndex : UInt16) (s : State) : Prop :=
  IsNext s.sxListNodes usIndex.toNat (getNextNodeToCycle usIndex s).toNat
    ∨ getNextNodeToCycle usIndex s = dlmsEmuMaxNumNodesConnected
      ∧ IsLast s.sxListNodes usIndex.toNat

/-- The search is right from every node. -/
structure SearchLaw (s : State) : Prop where
  bounded : Bounded s
  finds : ∀ usIndex < dlmsEmuMaxNumNodesConnected, FindsNext usIndex s

/-- The zero that ends the serial number of record `i` is stored in the address of node `b`. -/
def Hits (ptrMsg : Mem UInt8) (i b : ℕ) : Prop :=
  let p := sizeofNode * (addressAt ptrMsg i).toNat + offsetSerialNumber + lengthAt ptrMsg i
  p = sizeofNode * b ∨ p = sizeofNode * b + 1

/-- A node that is connected by the end of a serial number is in front of the largest index
all the same, or the nodes are counted after the response. -/
def Harmless : ListEvent → State → Prop
  | .response ptrMsg len _, s =>
      IsListPage ptrMsg len → ¬ IsLastPage ptrMsg len →
        ∀ i, Stored ptrMsg i → ∀ b < dlmsEmuMaxNumNodesConnected.toNat, Hits ptrMsg i b →
          b < s.susMaxIndexConnectedNode.toNat
            ∨ ∃ j, Stored ptrMsg j ∧ b ≤ (addressAt ptrMsg j).toNat
  | _, _ => True

/-- The search stays in the list. -/
def MaxInList (s : State) : Prop :=
  s.susMaxIndexConnectedNode.toNat ≤ dlmsEmuMaxNumNodesConnected.toNat

section Search

variable {s s' : State} {nodes nodes' msg : Mem UInt8} {usAddress usIndex len : UInt16}
  {a b i n : ℕ} {e : ListEvent}

/-! ### The search -/

/-- As long as the largest index is behind all connected nodes, the search is right. -/
theorem findsNext_of_bounded (hbounded : Bounded s) (hmax : MaxInList s)
    (hindex : usIndex < dlmsEmuMaxNumNodesConnected) : FindsNext usIndex s := by
  have hsize : dlmsEmuMaxNumNodesConnected.toNat = 16 := rfl
  have hlt : usIndex.toNat < dlmsEmuMaxNumNodesConnected.toNat := hindex
  have hsucc : (usIndex + 1).toNat = usIndex.toNat + 1 := by
    rw [UInt16.toNat_add, UInt16.toNat_one]
    omega
  unfold MaxInList at hmax
  rcases getNextNodeToCycle_cases usIndex s with ⟨hnone, hgap⟩ | ⟨hconnected, hge, hlt', hgap⟩
  · right
    refine ⟨hnone, fun k hk hk16 hconnected => ?_⟩
    exact hgap k (by omega) (hbounded k hk16 hconnected) hconnected
  · left
    exact ⟨by omega, by omega, hconnected, fun k hk hkm => hgap k (by omega) hkm⟩

theorem searchLaw_iff (hmax : MaxInList s) : SearchLaw s ↔ Bounded s :=
  ⟨fun h => h.bounded, fun h => ⟨h, fun _ hindex => findsNext_of_bounded h hmax hindex⟩⟩

/-! ### Addresses in the list -/

/-- An address is read from its own two bytes. -/
theorem dstAddress_congr (h : ∀ j, j = sizeofNode * i ∨ j = sizeofNode * i + 1 →
      nodes'.cell j = nodes.cell j) : dstAddress nodes' i = dstAddress nodes i := by
  unfold dstAddress
  rw [h _ (Or.inl rfl), h _ (Or.inr rfl)]

theorem toNat_dstAddress : (dstAddress nodes i).toNat
    = (nodes.cell (sizeofNode * i)).toNat + (nodes.cell (sizeofNode * i + 1)).toNat * 256 := by
  have hlo := (nodes.cell (sizeofNode * i)).toNat_lt
  have hhi := (nodes.cell (sizeofNode * i + 1)).toNat_lt
  unfold dstAddress
  rw [UInt16.toNat_add, UInt16.toNat_shiftLeft]
  simp [Nat.shiftLeft_eq]
  omega

/-- A node one of whose address bytes is zero is connected. -/
theorem connected_of_zero (h : nodes.cell (sizeofNode * i) = 0
      ∨ nodes.cell (sizeofNode * i + 1) = 0) : Connected nodes i := by
  intro hinvalid
  have hlo := (nodes.cell (sizeofNode * i)).toNat_lt
  have hhi := (nodes.cell (sizeofNode * i + 1)).toNat_lt
  have hvalue := congrArg UInt16.toNat hinvalid
  rw [toNat_dstAddress, show cl432InvalidAddress.toNat = 65535 from rfl] at hvalue
  rcases h with hzero | hzero
  · rw [hzero, UInt8.toNat_zero] at hvalue
    omega
  · rw [hzero, UInt8.toNat_zero] at hvalue
    omega

/-- The address that has been stored. -/
theorem dstAddress_storeDstAddress :
    dstAddress (storeDstAddress a usAddress nodes) a = usAddress := by
  have h := usAddress.toNat_lt
  rw [← UInt16.toNat_inj, toNat_dstAddress]
  unfold storeDstAddress
  rw [Mem.storeList_cons, Mem.storeList_cons, Mem.storeList_nil, Mem.cell_store_self,
    Mem.cell_store_of_ne (by omega), Mem.cell_store_self]
  simp [Nat.shiftRight_eq_div_pow]
  omega

theorem dstAddress_storeDstAddress_of_ne (h : i ≠ a) :
    dstAddress (storeDstAddress a usAddress nodes) i = dstAddress nodes i := by
  apply dstAddress_congr
  intro j hj
  unfold sizeofNode at hj
  unfold storeDstAddress sizeofNode
  apply Mem.cell_storeList_of_not_mem
  simp only [List.length_cons, List.length_nil]
  omega

theorem connected_storeDstAddress (haddress : usAddress < dlmsEmuMaxNumNodesConnected) :
    Connected (storeDstAddress a usAddress nodes) a := by
  have hlt : usAddress.toNat < 16 := haddress
  intro hinvalid
  rw [dstAddress_storeDstAddress] at hinvalid
  have hvalue := congrArg UInt16.toNat hinvalid
  rw [show cl432InvalidAddress.toNat = 65535 from rfl] at hvalue
  omega

/-! ### Records -/

/-- The list after a record. -/
def afterRecord (msg : Mem UInt8) (i : ℕ) (nodes : Mem UInt8) : Mem UInt8 :=
  let p := sizeofNode * (addressAt msg i).toNat
  let nodes := storeDstAddress (addressAt msg i).toNat (addressAt msg i) nodes
  let nodes := nodes.storeList (p + offsetSerialNumber)
    (msg.slice (recordAt (msg.cell 6) i + 4) dlmsEmuSn432MacSize)
  let nodes := nodes.store (p + offsetLenSerialNumber)
    (msg.cell (recordAt (msg.cell 6) i + 4 + dlmsEmuSn432MacSize))
  let nodes := nodes.store (p + offsetSerialNumber + lengthAt msg i) 0
  nodes.storeList (p + offsetMac)
    (msg.slice (recordAt (msg.cell 6) i + 4 + dlmsEmuSn432MacSize + 1) 6)

theorem listRecord_eq : listRecord msg (recordAt (msg.cell 6) n) s =
    if 0x0fff - 1 ≤ addressAt msg n then s
    else { updateMaxIndex (addressAt msg n) s with
      sxListNodes := afterRecord msg n s.sxListNodes } := by
  unfold listRecord
  dsimp only
  obtain ⟨m, hm⟩ := updateMaxIndex_eq (addressAt msg n) s
  show (if 0x0fff - 1 ≤ addressAt msg n then _ else _) = _
  split_ifs
  · rfl
  · unfold afterRecord lengthAt addressAt at *
    rw [hm]

/-- The stores of a record, seen from the address of a node. -/
theorem cell_afterRecord {j : ℕ} (hj : j = sizeofNode * b ∨ j = sizeofNode * b + 1) :
    (afterRecord msg i nodes).cell j =
      if j = sizeofNode * (addressAt msg i).toNat + offsetSerialNumber + lengthAt msg i then 0
      else (storeDstAddress (addressAt msg i).toNat (addressAt msg i) nodes).cell j := by
  unfold sizeofNode at hj
  unfold afterRecord sizeofNode offsetSerialNumber offsetLenSerialNumber offsetMac
    dlmsEmuSn432MacSize
  dsimp only
  rw [Mem.cell_storeList_of_not_mem (by rw [Mem.length_slice]; omega), Mem.cell_store,
    Mem.cell_store_of_ne (by omega),
    Mem.cell_storeList_of_not_mem (by rw [Mem.length_slice]; omega)]

/-- A record connects the node of its address, and the one that its end of the serial number
hits. -/
theorem connected_afterRecord (haddress : addressAt msg i < dlmsEmuMaxNumNodesConnected) :
    Connected (afterRecord msg i nodes) b
      ↔ Connected nodes b ∨ b = (addressAt msg i).toNat ∨ Hits msg i b := by
  by_cases hhit : Hits msg i b
  · refine iff_of_true ?_ (Or.inr (Or.inr hhit))
    apply connected_of_zero
    rcases hhit with heq | heq
    · left
      rw [cell_afterRecord (Or.inl rfl), if_pos heq.symm]
    · right
      rw [cell_afterRecord (Or.inr rfl), if_pos heq.symm]
  · have hsame : dstAddress (afterRecord msg i nodes) b
        = dstAddress (storeDstAddress (addressAt msg i).toNat (addressAt msg i) nodes) b := by
      apply dstAddress_congr
      intro j hj
      rw [cell_afterRecord hj]
      apply if_neg
      rintro rfl
      exact hhit hj
    have hiff : Connected (afterRecord msg i nodes) b
        ↔ Connected (storeDstAddress (addressAt msg i).toNat (addressAt msg i) nodes) b := by
      unfold Connected
      rw [hsame]
    rw [hiff, or_iff_left hhit]
    by_cases hb : b = (addressAt msg i).toNat
    · subst hb
      exact iff_of_true (connected_storeDstAddress haddress) (Or.inr rfl)
    · unfold Connected
      rw [dstAddress_storeDstAddress_of_ne hb, or_iff_left hb]

/-- The largest index is raised to hold the address. -/
theorem lt_updateMaxIndex_iff (haddress : usAddress < dlmsEmuMaxNumNodesConnected) :
    b < (updateMaxIndex usAddress s).susMaxIndexConnectedNode.toNat
      ↔ b < s.susMaxIndexConnectedNode.toNat ∨ b ≤ usAddress.toNat := by
  have hlt : usAddress.toNat < 16 := haddress
  have hsucc : (usAddress + 1).toNat = usAddress.toNat + 1 := by
    rw [UInt16.toNat_add, UInt16.toNat_one]
    omega
  unfold updateMaxIndex
  split_ifs with hle
  · have hle' : s.susMaxIndexConnectedNode.toNat ≤ usAddress.toNat := hle
    show b < (usAddress + 1).toNat ↔ _
    omega
  · have hgt : ¬ s.susMaxIndexConnectedNode.toNat ≤ usAddress.toNat := hle
    omega

/-- What the records of a page connect, and what they raise the largest index to. -/
theorem listRecords_effect
    (hin : ∀ i, Stored msg i → addressAt msg i < dlmsEmuMaxNumNodesConnected) (b : ℕ) :
    (Connected (listRecords msg s).sxListNodes b ↔ Connected s.sxListNodes b
        ∨ ∃ i, Stored msg i ∧ (b = (addressAt msg i).toNat ∨ Hits msg i b))
      ∧ (b < (listRecords msg s).susMaxIndexConnectedNode.toNat
        ↔ b < s.susMaxIndexConnectedNode.toNat
          ∨ ∃ i, Stored msg i ∧ b ≤ (addressAt msg i).toNat) := by
  unfold listRecords
  unfold Stored at hin ⊢
  generalize (msg.cell 5).toNat = n at hin ⊢
  -- on the number of records
  induction n with
  | zero =>
      rw [forRange_of_le le_rfl]
      refine ⟨(or_iff_left ?_).symm, (or_iff_left ?_).symm⟩
      · rintro ⟨i, ⟨hi, -⟩, -⟩
        exact Nat.not_lt_zero i hi
      · rintro ⟨i, ⟨hi, -⟩, -⟩
        exact Nat.not_lt_zero i hi
  | succ n ih =>
      obtain ⟨hconnected, hmax⟩ := ih fun i hi => hin i ⟨Nat.lt_succ_of_lt hi.1, hi.2⟩
      have hsplit {P : ℕ → Prop} :
          (∃ i, (i < n + 1 ∧ ¬ 0x0fff - 1 ≤ addressAt msg i) ∧ P i)
            ↔ (∃ i, (i < n ∧ ¬ 0x0fff - 1 ≤ addressAt msg i) ∧ P i)
              ∨ ¬ 0x0fff - 1 ≤ addressAt msg n ∧ P n := by
        constructor
        · rintro ⟨i, ⟨hi, hstored⟩, hP⟩
          rcases Nat.lt_succ_iff_lt_or_eq.mp hi with hlt | rfl
          · exact Or.inl ⟨i, ⟨hlt, hstored⟩, hP⟩
          · exact Or.inr ⟨hstored, hP⟩
        · rintro (⟨i, ⟨hi, hstored⟩, hP⟩ | ⟨hstored, hP⟩)
          · exact ⟨i, ⟨Nat.lt_succ_of_lt hi, hstored⟩, hP⟩
          · exact ⟨n, ⟨Nat.lt_succ_self n, hstored⟩, hP⟩
      rw [forRange_succ (Nat.zero_le n), listRecord_eq, hsplit, hsplit]
      split_ifs with hignored
      · have hno {P : Prop} : ¬ (¬ 0x0fff - 1 ≤ addressAt msg n ∧ P) := fun h => h.1 hignored
        rw [or_iff_left hno, or_iff_left hno]
        exact ⟨hconnected, hmax⟩
      · have haddress := hin n ⟨Nat.lt_succ_self n, hignored⟩
        rw [and_iff_right hignored, and_iff_right hignored]
        constructor
        · rw [connected_afterRecord haddress, hconnected, or_assoc]
        · show b < (updateMaxIndex (addressAt msg n) _).susMaxIndexConnectedNode.toNat ↔ _
          rw [lt_updateMaxIndex_iff haddress, hmax, or_assoc]

/-! ### Events -/

theorem Bounded.congr (hsame : s.SameList s') : Bounded s' ↔ Bounded s := by
  unfold Bounded
  rw [hsame.nodes, hsame.max]

/-- The count puts the largest index behind all connected nodes. -/
theorem bounded_getNumberNodesConnected (s : State) : Bounded (getNumberNodesConnected s).2 := by
  have hmax := getNumberNodesConnected_max s
  obtain ⟨m, hm⟩ := getNumberNodesConnected_snd s
  intro i hi hconnected
  have hold : Connected s.sxListNodes i := by
    rwa [hm] at hconnected
  exact (hmax i hi hold).1

theorem startCycle_bounded (s : State) :
    Bounded (startCycle s) ∧ (MaxInList s → MaxInList (startCycle s)) := by
  have hsame := sameList_startCycle s
  refine ⟨(Bounded.congr hsame).mpr (bounded_getNumberNodesConnected s), fun h => ?_⟩
  unfold MaxInList
  rw [hsame.max]
  exact getNumberNodesConnected_le h

/-- The records of a page keep the largest index in the list. -/
theorem MaxInList.listRecords (h : MaxInList s)
    (hin : ∀ i, Stored msg i → addressAt msg i < dlmsEmuMaxNumNodesConnected) :
    MaxInList (listRecords msg s) := by
  have heffect := (listRecords_effect (s := s) hin dlmsEmuMaxNumNodesConnected.toNat).2
  by_contra hnot
  rcases heffect.mp (Nat.lt_of_not_le hnot) with hold | ⟨i, hstored, hle⟩
  · exact absurd h (Nat.not_le_of_lt hold)
  · exact absurd (hin i hstored) (Nat.not_lt_of_le hle)

/-- After the records, the largest index is behind all nodes exactly if it is behind those
that an end of a serial number has hit. -/
theorem bounded_listRecords_iff (h : Bounded s)
    (hin : ∀ i, Stored msg i → addressAt msg i < dlmsEmuMaxNumNodesConnected) :
    Bounded (listRecords msg s) ↔ ∀ i, Stored msg i →
      ∀ b < dlmsEmuMaxNumNodesConnected.toNat, Hits msg i b →
        b < s.susMaxIndexConnectedNode.toNat
          ∨ ∃ j, Stored msg j ∧ b ≤ (addressAt msg j).toNat := by
  constructor
  · intro hafter i hstored b hb hhit
    obtain ⟨hconnected, hmax⟩ := listRecords_effect (s := s) hin b
    exact hmax.mp (hafter b hb (hconnected.mpr (Or.inr ⟨i, hstored, Or.inr hhit⟩)))
  · intro hall b hb hafter
    obtain ⟨hconnected, hmax⟩ := listRecords_effect (s := s) hin b
    apply hmax.mpr
    rcases hconnected.mp hafter with hold | ⟨i, hstored, heq | hhit⟩
    · exact Or.inl (h b hb hold)
    · exact Or.inr ⟨i, hstored, heq.le⟩
    · exact hall i hstored b hb hhit

/-- The stores of a join leave the address of the other nodes alone. -/
theorem connected_joinInd {pucDeviceId pucMac : Mem UInt8} {ucDeviceIdLen : UInt8}
    (haddress : usAddress < dlmsEmuMaxNumNodesConnected) :
    Connected (dlmsEmulCl432JoinIndCb pucDeviceId ucDeviceIdLen usAddress pucMac s).sxListNodes b
      ↔ Connected s.sxListNodes b ∨ b = usAddress.toNat := by
  obtain ⟨m, hm⟩ := updateMaxIndex_eq usAddress s
  have hlength : (if 16 < ucDeviceIdLen then 16 else ucDeviceIdLen : UInt8).toNat ≤ 16 := by
    split_ifs with hlong
    · decide
    · exact UInt8.not_lt.mp hlong
  have hsame : dstAddress
      (dlmsEmulCl432JoinIndCb pucDeviceId ucDeviceIdLen usAddress pucMac s).sxListNodes b
        = dstAddress (storeDstAddress usAddress.toNat usAddress s.sxListNodes) b := by
    apply dstAddress_congr
    intro j hj
    unfold sizeofNode at hj
    unfold dlmsEmulCl432JoinIndCb sizeofNode offsetSerialNumber offsetLenSerialNumber offsetMac
    dsimp only
    rw [hm, Mem.cell_storeList_of_not_mem (by rw [Mem.length_slice]; omega),
      Mem.cell_store_of_ne (by omega), Mem.cell_store_of_ne (by omega),
      Mem.cell_storeList_of_not_mem (by rw [Mem.length_slice]; omega)]
  have hiff : Connected
      (dlmsEmulCl432JoinIndCb pucDeviceId ucDeviceIdLen usAddress pucMac s).sxListNodes b
        ↔ Connected (storeDstAddress usAddress.toNat usAddress s.sxListNodes) b := by
    unfold Connected
    rw [hsame]
  rw [hiff]
  by_cases hb : b = usAddress.toNat
  · subst hb
    exact iff_of_true (connected_storeDstAddress haddress) (Or.inr rfl)
  · unfold Connected
    rw [dstAddress_storeDstAddress_of_ne hb, or_iff_left hb]

/-- Every event keeps the largest index in the list. -/
theorem MaxInList.run (h : MaxInList s) (e : ListEvent) : MaxInList (e.run s) := by
  cases e with
  | joinInd deviceId len dst mac hin =>
      show (updateMaxIndex dst s).susMaxIndexConnectedNode.toNat ≤ _
      exact updateMaxIndex_le h hin
  | leaveInd dst hin => exact h
  | response msg len hin =>
      show MaxInList (dlmsMngpRspCb msg len s)
      by_cases hpage : IsListPage msg len
      · by_cases hlast : IsLastPage msg len
        · rw [dlmsMngpRspCb_of_last hlast]
          exact (startCycle_bounded _).2 (h.listRecords hin)
        · unfold MaxInList
          rw [(dlmsMngpRspCb_of_more hpage hlast).max]
          exact h.listRecords hin
      · rwa [dlmsMngpRspCb_of_not_page hpage]
  | count =>
      show MaxInList (getNumberNodesConnected s).2
      exact getNumberNodesConnected_le h

/-- **One event.**  The largest index stays behind all connected nodes exactly if the event is
harmless. -/
theorem bounded_run_iff (h : Bounded s) (e : ListEvent) : Bounded (e.run s) ↔ Harmless e s := by
  cases e with
  | joinInd deviceId len dst mac hin =>
      refine iff_of_true (fun i hi hconnected => ?_) trivial
      show i < (updateMaxIndex dst s).susMaxIndexConnectedNode.toNat
      rw [lt_updateMaxIndex_iff hin]
      exact ((connected_joinInd hin).mp hconnected).imp (h i hi) Eq.le
  | leaveInd dst hin =>
      refine iff_of_true (fun i hi hconnected => ?_) trivial
      apply h i hi
      intro hinvalid
      -- a node that has left is not connected
      by_cases hi' : i = dst.toNat
      · subst hi'
        exact hconnected dstAddress_storeDstAddress
      · exact hconnected ((dstAddress_storeDstAddress_of_ne hi').trans hinvalid)
  | response msg len hin =>
      show Bounded (dlmsMngpRspCb msg len s) ↔ (IsListPage msg len → ¬ IsLastPage msg len → _)
      by_cases hpage : IsListPage msg len
      · by_cases hlast : IsLastPage msg len
        · rw [dlmsMngpRspCb_of_last hlast]
          exact iff_of_true (startCycle_bounded _).1 fun _ hno => absurd hlast hno
        · rw [imp_iff_right hpage, imp_iff_right hlast,
            Bounded.congr (dlmsMngpRspCb_of_more hpage hlast)]
          exact bounded_listRecords_iff h hin
      · rw [dlmsMngpRspCb_of_not_page hpage]
        exact iff_of_true h fun hyes => absurd hyes hpage
  | count => exact iff_of_true (bounded_getNumberNodesConnected s) trivial

/-! ### Runs -/

/-- No node is connected at the start. -/
theorem bounded_started (appId : ℤ) (ids : TimerIds) (behind : ℕ → UInt8) :
    Bounded (started appId ids behind) := by
  intro i hi hconnected
  refine absurd ?_ hconnected
  unfold started dlmsEmuInit State.emit
  dsimp only
  refine forRange_induction (fun k (nodes : Mem UInt8) => ∀ j < k,
    dstAddress nodes j = cl432InvalidAddress) (Nat.zero_le _)
    (fun j hj => absurd hj (Nat.not_lt_zero j)) ?_ i hi
  intro k nodes _ _ hbelow j hj
  by_cases hjk : j = k
  · subst hjk
    exact dstAddress_storeDstAddress
  · rw [dstAddress_storeDstAddress_of_ne hjk]
    exact hbelow j (by omega)

theorem maxInList_started (appId : ℤ) (ids : TimerIds) (behind : ℕ → UInt8) :
    MaxInList (started appId ids behind) := by
  show (1 : UInt16).toNat ≤ dlmsEmuMaxNumNodesConnected.toNat
  decide

/-- The search is right at the start, and after every event of a run exactly if all events
are harmless. -/
theorem dlms_emu_search_iff (appId : ℤ) (ids : TimerIds) (behind : ℕ → UInt8)
    (es : List ListEvent) :
    SearchLaw (started appId ids behind)
      ∧ (AlongSteps listStep (fun e s => SearchLaw (e.run s)) es (started appId ids behind)
        ↔ AlongSteps listStep Harmless es (started appId ids behind)) := by
  have hbounded := bounded_started appId ids behind
  have hmax := maxInList_started appId ids behind
  refine ⟨(searchLaw_iff hmax).mpr hbounded, ?_⟩
  refine alongSteps_congr (I := fun s => Bounded s ∧ MaxInList s)
    (fun e s h => ?_) (fun e s s' h hlaw hs => ?_) ⟨hbounded, hmax⟩
  · rw [searchLaw_iff (h.2.run e), bounded_run_iff h.1]
  · obtain rfl := Option.some.inj hs
    exact ⟨hlaw.bounded, h.2.run e⟩

end Search

/-- A full page, all of whose records have address 1 and the length byte 24. -/
def longNumbers : Mem UInt8 :=
  Mem.init fun i =>
    if i < 7 then [0, 0, 0x0f, 0x82, 0x50, 30, 25].getD i 0
    else if (i - 7) % 27 = 3 then 1
    else if (i - 7) % 27 = 20 then 24
    else 0

theorem longNumbers_inList (i : ℕ) (h : Stored longNumbers i) :
    addressAt longNumbers i < dlmsEmuMaxNumNodesConnected := by
  have hall : ∀ k < (longNumbers.cell 5).toNat,
      addressAt longNumbers k < dlmsEmuMaxNumNodesConnected := by
    decide +kernel
  exact hall i h.1

/-- The first byte of the address of node 2 is overwritten, and the largest index is 2. -/
theorem dlms_emu_node_hit :
    ¬ ∀ (appId : ℤ) (ids : TimerIds) (behind : ℕ → UInt8) (es : List ListEvent) (s : State),
      runSteps listStep es (started appId ids behind) = some s → SearchLaw s := by
  intro hclaim
  have hrun : ((runSteps listStep [.response longNumbers 817 longNumbers_inList]
      (started 4 .inOrder fun _ => 0)).map fun s =>
        (decide (Connected s.sxListNodes 2), s.susMaxIndexConnectedNode)) = some (true, 2) := by
    decide +kernel
  obtain ⟨s, hs, heq⟩ := Option.map_eq_some_iff.mp hrun
  rw [Prod.mk.injEq, decide_eq_true_iff] at heq
  have hlt := (hclaim 4 .inOrder (fun _ => 0) _ s hs).bounded 2 (by decide) heq.1
  rw [heq.2] at hlt
  exact absurd hlt (by decide)

end DlmsEmu
