/-
# The indices and the texts of the list of nodes

`sx_list_nodes` has `DLMS_EMU_MAX_NUM_NODES_CONNECTED` entries, and each has an array of 16
bytes for a serial number and the zero that ends it.  The addresses and the lengths come from
the base node and are used as they are; and between two cycles `sus_current_node` is one past
the list, where the handlers of late confirms and indications use it.

The functions that use the list are written a second time, with what they use of it; the
state is what they do.
-/
import PlcManager.DlmsEmuTimers

namespace DlmsEmu

open Dlmsotcp (cl432InvalidAddress mngpPrimeEnhancedListMaxRecords pibAtml432NodeList)

/-! ## Uses of the list -/

/-- `sx_list_nodes[i]` is used, the end of a serial number is stored at byte `k` of its
array, or `n` bytes of an array are copied by `%s`. -/
inductive Use where
  | entry (i : ℕ)
  | ending (k : ℕ)
  | copy (n : ℕ)
  deriving DecidableEq, Repr

/-- Nothing outside the list or the array is used. -/
def Use.Inside : Use → Prop
  | .entry i => i < dlmsEmuMaxNumNodesConnected.toNat
  | .ending k => k < dlmsEmuSn432MacSize
  | .copy n => n < dlmsEmuSn432MacSize

/-- A state, and what has been used of `sx_list_nodes` on the way to it. -/
structure Indexed where
  state : State
  uses : List Use

namespace Indexed

/-- Something is done without the list. -/
def apart (f : State → State) (x : Indexed) : Indexed := ⟨f x.state, x.uses⟩

/-- Something of the list is used. -/
def note (us : List Use) (x : Indexed) : Indexed := ⟨x.state, x.uses ++ us⟩

/-- The entries that `_get_next_node_to_cycle` looks at: up to the first connected one. -/
def searched (usIndex : UInt16) (s : State) : List Use :=
  let range := List.range' (usIndex + 1).toNat
    (s.susMaxIndexConnectedNode.toNat - (usIndex + 1).toNat)
  let passed := range.takeWhile fun i => decide (¬ Connected s.sxListNodes i)
  (passed ++ (range.find? fun i => decide (Connected s.sxListNodes i)).toList).map .entry

/-- `sus_current_node = _get_next_node_to_cycle(us_index)`. -/
def goToNext (usIndex : UInt16) (x : Indexed) : Indexed :=
  (x.note (searched usIndex x.state)).apart fun s =>
    { s with susCurrentNode := getNextNodeToCycle usIndex s }

/-- `_cycle_next_node`. -/
def cycleNextNodeWith (stMachine : UInt16 → DlmsStatusTag → Indexed → Indexed) (x : Indexed) :
    Indexed :=
  let x := x.goToNext x.state.susCurrentNode
  if x.state.susCurrentNode < dlmsEmuMaxNumNodesConnected then
    let x := x.apart fun s => { s with sucCurrentNodeDlmsStep := .associationRequest }
    stMachine x.state.susCurrentNode x.state.sucCurrentNodeDlmsStep x
  else x.apart fun s => startTimer .nextCycle (s.emit [.reportEndCycle])

/-- `_st_machine` for `CMD_SEND`. -/
def stMachineSendWithin : ℕ → UInt16 → DlmsStatusTag → Indexed → Indexed
  | 0, _, _, x => x
  | n + 1, usIndex, dlmsStatus, x =>
      let x := x.note [.entry usIndex.toNat]
      if Connected x.state.sxListNodes usIndex.toNat then
        x.apart (sendRequest usIndex dlmsStatus)
      else cycleNextNodeWith (stMachineSendWithin n) x

/-- `_st_machine` for `CMD_SEND`. -/
def stMachineSend : UInt16 → DlmsStatusTag → Indexed → Indexed := stMachineSendWithin 2

/-- `_cycle_next_node`. -/
def cycleNextNode : Indexed → Indexed := cycleNextNodeWith stMachineSend

/-- The report of the current node; its serial number is copied. -/
def reportNode (pcResult : String) (x : Indexed) : Indexed :=
  let usIndex := x.state.susCurrentNode.toNat
  (x.note [.entry usIndex, .copy (serialText x.state.sxListNodes usIndex).length]).apart
    (DlmsEmu.reportNode pcResult)

/-- `_timeout`. -/
def timeout (x : Indexed) : Indexed := cycleNextNode (reportNode spcRepResultFailTimeout x)

/-- The body of the loop of `_get_number_nodes_connected`. -/
def countNode (usNextIndex : ℕ) (r : UInt16 × Indexed) : UInt16 × Indexed :=
  let y := r.2.note [.entry usNextIndex]
  if Connected y.state.sxListNodes usNextIndex then
    (r.1 + 1, y.apart fun s =>
      { s with susMaxIndexConnectedNode := UInt16.ofNat usNextIndex + 1 })
  else (r.1, y)

/-- `_get_number_nodes_connected`. -/
def getNumberNodesConnected (x : Indexed) : UInt16 × Indexed :=
  forRange 0 dlmsEmuMaxNumNodesConnected.toNat countNode (0, x)

/-- `_start_cycle`. -/
def startCycle (x : Indexed) : Indexed :=
  let r := getNumberNodesConnected x
  if r.1 ≠ 0 then
    let x := r.2.goToNext 0
    if x.state.susCurrentNode < dlmsEmuMaxNumNodesConnected then
      let x := x.apart fun s =>
        { (s.emit [.reportStartCycle]) with
          sulTotalCycleNumber := s.sulTotalCycleNumber + 1
          sucCurrentNodeDlmsStep := .associationRequest }
      stMachineSend x.state.susCurrentNode x.state.sucCurrentNodeDlmsStep x
    else x
  else r.2

/-- `_next_step`. -/
def nextStep (x : Indexed) : Indexed :=
  let x := reportNode spcRepResultSuccess x
  let s := x.state
  match s.sucCurrentNodeDlmsStep with
  | .associationRequest =>
      stMachineSend s.susCurrentNode .dateRequest
        (x.apart fun s => { s with sucCurrentNodeDlmsStep := .dateRequest, sucBlocknumber := 0 })
  | .dateRequest =>
      stMachineSend s.susCurrentNode .so2Request
        (x.apart fun s => { s with sucCurrentNodeDlmsStep := .so2Request })
  | .so2Request =>
      stMachineSend s.susCurrentNode .nextblockRequest
        (x.apart fun s =>
          { s with sucCurrentNodeDlmsStep := .nextblockRequest, sucBlocknumber := 0 })
  | .nextblockRequest =>
      let x := x.apart fun s => { s with sucBlocknumber := s.sucBlocknumber + 1 }
      let x :=
        if dlmsSo2NumberOfBlocks < x.state.sucBlocknumber then
          x.apart fun s =>
            { s with sucCurrentNodeDlmsStep := .releaseRequest, sucBlocknumber := 0 }
        else x
      stMachineSend s.susCurrentNode x.state.sucCurrentNodeDlmsStep x
  | .releaseRequest =>
      let x := x.goToNext s.susCurrentNode
      if x.state.susCurrentNode < dlmsEmuMaxNumNodesConnected then x.apart (startTimer .nextNode)
      else x.apart fun s => startTimer .nextCycle (s.emit [.reportEndCycle])

/-- `_timer_handler`. -/
def timerHandler : Timer → Indexed → Indexed
  | .timeout => timeout
  | .nextCycle => startCycle
  | .nextNode => cycleNextNode
  | .nextStep => nextStep

/-- One record of a list response. -/
def listRecord (msg : Mem UInt8) (pucPibValue : ℕ) (x : Indexed) : Indexed :=
  let usAddress := bigEndian msg (pucPibValue + 2)
  if 0x0fff - 1 ≤ usAddress then x
  else
    let len := msg.cell (pucPibValue + 4 + dlmsEmuSn432MacSize)
    (x.note [.entry usAddress.toNat, .ending len.toNat]).apart
      (DlmsEmu.listRecord msg pucPibValue)

/-- The records of a list response. -/
def listRecords (msg : Mem UInt8) (x : Indexed) : Indexed :=
  forRange 0 (msg.cell 5).toNat (fun i x => listRecord msg (recordAt (msg.cell 6) i) x) x

/-- `_dlms_mngp_rsp_cb`; the query for the next page does not use the list. -/
def dlmsMngpRspCb (ptrMsg : Mem UInt8) (len : UInt16) (x : Indexed) : Indexed :=
  if IsListPage ptrMsg len then
    let y := listRecords ptrMsg x
    if (ptrMsg.cell 5).toNat < mngpPrimeEnhancedListMaxRecords then startCycle y
    else ⟨DlmsEmu.dlmsMngpRspCb ptrMsg len x.state, y.uses⟩
  else x

/-- `_dlms_emu_cl_432_dl_data_ind_cb`. -/
def dataInd (pucData : Mem UInt8) (x : Indexed) : Indexed :=
  let x := x.apart (stopTimer .timeout)
  if CheckDlmsMessage x.state.sucCurrentNodeDlmsStep pucData then x.apart (startTimer .nextStep)
  else (reportNode spcRepResultFailInvalid x).apart (startTimer .nextNode)

/-- `_dlms_emu_cl_432_dl_data_cfm_cb`. -/
def dataCfm (ucTxStatus : UInt8) (x : Indexed) : Indexed :=
  if ucTxStatus = cl432TxStatusSuccess then x.apart (startTimer .timeout)
  else if IsNegativeStatus ucTxStatus then
    (reportNode spcRepResultFail x).apart (startTimer .nextNode)
  else x

/-- `_dlms_emul_cl_432_join_ind_cb`. -/
def joinInd (pucDeviceId : Mem UInt8) (ucDeviceIdLen : UInt8) (usDstAddress : UInt16)
    (pucMac : Mem UInt8) (x : Indexed) : Indexed :=
  let ucLength : UInt8 := if 16 < ucDeviceIdLen then 16 else ucDeviceIdLen
  (x.note [.entry usDstAddress.toNat, .ending ucLength.toNat]).apart
    (dlmsEmulCl432JoinIndCb pucDeviceId ucDeviceIdLen usDstAddress pucMac)

/-- `_dlms_emul_cl_432_leave_ind_cb`. -/
def leaveInd (usDstAddress : UInt16) (x : Indexed) : Indexed :=
  (x.note [.entry usDstAddress.toNat]).apart (dlmsEmulCl432LeaveIndCb usDstAddress)

/-- The reaction to an event. -/
def step : Event → Indexed → Option Indexed
  | .command buf, x => some (x.apart (dlmsEmuRcvCmd buf))
  | .response ptrMsg len, x => some (dlmsMngpRspCb ptrMsg len x)
  | .dataCfm _ _ _ ucTxStatus, x => some (dataCfm ucTxStatus x)
  | .dataInd _ _ _ _ pucData _ _, x => some (dataInd pucData x)
  | .joinInd pucDeviceId ucDeviceIdLen usDstAddress pucMac, x =>
      some (joinInd pucDeviceId ucDeviceIdLen usDstAddress pucMac x)
  | .leaveInd usDstAddress, x => some (leaveInd usDstAddress x)
  | .expire t, x =>
      if x.state.timers.armed t then some (timerHandler t (x.apart (State.disarm t))) else none

/-! ### They do the same -/

section Erasure

variable {x : Indexed} {usIndex : UInt16} {t : DlmsStatusTag} {msg : Mem UInt8} {len : UInt16}
  {n : ℕ}

theorem state_stMachineSendWithin : (stMachineSendWithin n usIndex t x).state
    = DlmsEmu.stMachineSendWithin n usIndex t x.state := by
  induction n generalizing usIndex t x with
  | zero => rfl
  | succ n ih =>
      unfold stMachineSendWithin DlmsEmu.stMachineSendWithin note
      dsimp only
      split_ifs
      · rfl
      · unfold cycleNextNodeWith DlmsEmu.cycleNextNodeWith goToNext apart note
        dsimp only
        split_ifs
        · exact ih
        · rfl

theorem state_stMachineSend :
    (stMachineSend usIndex t x).state = DlmsEmu.stMachineSend usIndex t x.state :=
  state_stMachineSendWithin

theorem state_cycleNextNode : (cycleNextNode x).state = DlmsEmu.cycleNextNode x.state := by
  unfold cycleNextNode DlmsEmu.cycleNextNode cycleNextNodeWith DlmsEmu.cycleNextNodeWith goToNext
    apart note
  dsimp only
  split_ifs
  · exact state_stMachineSend
  · rfl

theorem state_getNumberNodesConnected : (getNumberNodesConnected x).1
      = (DlmsEmu.getNumberNodesConnected x.state).1
    ∧ (getNumberNodesConnected x).2.state = (DlmsEmu.getNumberNodesConnected x.state).2 := by
  unfold getNumberNodesConnected DlmsEmu.getNumberNodesConnected
  generalize dlmsEmuMaxNumNodesConnected.toNat = n
  induction n with
  | zero => exact ⟨rfl, rfl⟩
  | succ n ih =>
      rw [forRange_succ (Nat.zero_le n), forRange_succ (Nat.zero_le n)]
      obtain ⟨hcount, hstate⟩ := ih
      generalize forRange 0 n countNode (0, x) = r at hcount hstate ⊢
      rw [← hcount, ← hstate]
      unfold countNode note apart
      dsimp only
      split_ifs
      · exact ⟨rfl, rfl⟩
      · exact ⟨hcount, hstate⟩

theorem state_startCycle : (startCycle x).state = DlmsEmu.startCycle x.state := by
  obtain ⟨hcount, hstate⟩ := state_getNumberNodesConnected (x := x)
  unfold startCycle DlmsEmu.startCycle
  generalize getNumberNodesConnected x = r at hcount hstate ⊢
  generalize DlmsEmu.getNumberNodesConnected x.state = q at hcount hstate ⊢
  dsimp only
  rw [← hcount, ← hstate]
  unfold goToNext apart note
  dsimp only
  split_ifs
  · exact state_stMachineSend
  · rfl
  · rfl

theorem state_nextStep : (nextStep x).state = DlmsEmu.nextStep x.state := by
  have hreport : (reportNode spcRepResultSuccess x).state
      = DlmsEmu.reportNode spcRepResultSuccess x.state := rfl
  unfold nextStep DlmsEmu.nextStep
  rw [← hreport]
  generalize reportNode spcRepResultSuccess x = y
  rcases y with
    ⟨⟨nodes, max, total, current, dlmsStep, number, tx, appId, ids, timers, trace⟩, uses⟩
  cases dlmsStep with
  | associationRequest => exact state_stMachineSend
  | dateRequest => exact state_stMachineSend
  | so2Request => exact state_stMachineSend
  | nextblockRequest =>
      unfold apart
      dsimp only
      split_ifs
      · exact state_stMachineSend
      · exact state_stMachineSend
  | releaseRequest =>
      unfold goToNext apart note
      dsimp only
      split_ifs
      · rfl
      · rfl

theorem state_timerHandler (t : Timer) :
    (timerHandler t x).state = DlmsEmu.timerHandler t x.state := by
  cases t with
  | timeout => exact state_cycleNextNode
  | nextCycle =>
      show (startCycle x).state = DlmsEmu.startCycle x.state
      exact state_startCycle
  | nextNode => exact state_cycleNextNode
  | nextStep => exact state_nextStep

theorem state_listRecord {p : ℕ} :
    (listRecord msg p x).state = DlmsEmu.listRecord msg p x.state := by
  unfold listRecord
  dsimp only
  split_ifs with h
  · exact (if_pos h).symm
  · rfl

theorem state_listRecords : (listRecords msg x).state = DlmsEmu.listRecords msg x.state := by
  unfold listRecords DlmsEmu.listRecords
  generalize (msg.cell 5).toNat = n
  induction n with
  | zero => rfl
  | succ n ih =>
      rw [forRange_succ (Nat.zero_le n), forRange_succ (Nat.zero_le n), state_listRecord, ih]

theorem state_dlmsMngpRspCb :
    (dlmsMngpRspCb msg len x).state = DlmsEmu.dlmsMngpRspCb msg len x.state := by
  unfold dlmsMngpRspCb
  split_ifs with hpage hlast
  · rw [state_startCycle, state_listRecords, dlmsMngpRspCb_of_last ⟨hpage, hlast⟩]
  · rfl
  · rw [dlmsMngpRspCb_of_not_page hpage]

/-- What the functions do is what they do in the source. -/
theorem map_state_step {e : Event} : (step e x).map state = DlmsEmu.step e x.state := by
  cases e with
  | command buf => rfl
  | response msg len => exact congrArg some state_dlmsMngpRspCb
  | dataCfm dstLsap srcLsap dst status =>
      apply congrArg some
      unfold dataCfm dlmsEmuCl432DlDataCfmCb
      split_ifs
      · rfl
      · rfl
      · rfl
  | dataInd dstLsap srcLsap dst src data len linkClass =>
      apply congrArg some
      unfold dataInd dlmsEmuCl432DlDataIndCb apart
      dsimp only
      split_ifs
      · rfl
      · rfl
  | joinInd => rfl
  | leaveInd => rfl
  | expire u =>
      rw [step_expire]
      show (if x.state.timers.armed u = true then some (timerHandler u (x.apart (State.disarm u)))
        else none).map state = _
      split_ifs
      · exact congrArg some (state_timerHandler u)
      · rfl

end Erasure

end Indexed

/-! ## The law -/

/-- Nothing outside the list has been used. -/
def Indexed.AllInside (x : Indexed) : Prop := ∀ u ∈ x.uses, u.Inside

/-- An event uses nothing outside the list and its arrays. -/
def UsesInside (e : Event) (s : State) : Prop :=
  ∀ x, Indexed.step e ⟨s, []⟩ = some x → x.AllInside

/-- A record is ignored, or its address is in the list and its serial number, with the zero
that ends it, in the array. -/
def RecordFits (msg : Mem UInt8) (i : ℕ) : Prop :=
  ¬ 0x0fff - 1 ≤ bigEndian msg (recordAt (msg.cell 6) i + 2) →
    (bigEndian msg (recordAt (msg.cell 6) i + 2)).toNat < dlmsEmuMaxNumNodesConnected.toNat
      ∧ (msg.cell (recordAt (msg.cell 6) i + 4 + dlmsEmuSn432MacSize)).toNat < dlmsEmuSn432MacSize

instance (msg : Mem UInt8) (i : ℕ) : Decidable (RecordFits msg i) :=
  inferInstanceAs (Decidable (¬ _ → _ ∧ _))

/-- Addresses are in the list, serial numbers and the zeros that end them in their arrays,
and a node is reported only between the beginning and the end of a cycle. -/
def Fits : Event → State → Prop
  | .command _, _ => True
  | .response ptrMsg len, _ =>
      IsListPage ptrMsg len → ∀ i < (ptrMsg.cell 5).toNat, RecordFits ptrMsg i
  | .dataCfm _ _ _ ucTxStatus, s =>
      IsNegativeStatus ucTxStatus → s.susCurrentNode < dlmsEmuMaxNumNodesConnected
  | .dataInd _ _ _ _ pucData _ _, s =>
      ¬ CheckDlmsMessage s.sucCurrentNodeDlmsStep pucData →
        s.susCurrentNode < dlmsEmuMaxNumNodesConnected
  | .joinInd _ ucDeviceIdLen usDstAddress _, _ =>
      usDstAddress < dlmsEmuMaxNumNodesConnected ∧ ucDeviceIdLen.toNat < dlmsEmuSn432MacSize
  | .leaveInd usDstAddress, _ => usDstAddress < dlmsEmuMaxNumNodesConnected
  | .expire t, s =>
      s.timers.armed t = true → t = .timeout ∨ t = .nextStep →
        s.susCurrentNode < dlmsEmuMaxNumNodesConnected

instance : ∀ (e : Event) (s : State), Decidable (Fits e s)
  | .command _, _ => isTrue trivial
  | .response ptrMsg len, _ => inferInstanceAs
      (Decidable (IsListPage ptrMsg len → ∀ i < (ptrMsg.cell 5).toNat, RecordFits ptrMsg i))
  | .dataCfm _ _ _ ucTxStatus, s => inferInstanceAs (Decidable
      (IsNegativeStatus ucTxStatus → s.susCurrentNode < dlmsEmuMaxNumNodesConnected))
  | .dataInd _ _ _ _ pucData _ _, s => inferInstanceAs (Decidable
      (¬ CheckDlmsMessage s.sucCurrentNodeDlmsStep pucData →
        s.susCurrentNode < dlmsEmuMaxNumNodesConnected))
  | .joinInd .., _ => inferInstanceAs (Decidable (_ ∧ _))
  | .leaveInd _, _ => inferInstanceAs (Decidable (_ < _))
  | .expire t, s => inferInstanceAs (Decidable
      (s.timers.armed t = true → t = .timeout ∨ t = .nextStep →
        s.susCurrentNode < dlmsEmuMaxNumNodesConnected))

/-- Every serial number has an end in its array. -/
def Ended (nodes : Mem UInt8) : Prop :=
  ∀ i < dlmsEmuMaxNumNodesConnected.toNat, ∃ k < dlmsEmuSn432MacSize,
    nodes.cell (sizeofNode * i + offsetSerialNumber + k) = 0

/-- The search stays in the list, and so do the copies of serial numbers. -/
structure State.WellKept (s : State) : Prop where
  max : s.susMaxIndexConnectedNode.toNat ≤ dlmsEmuMaxNumNodesConnected.toNat
  ended : Ended s.sxListNodes

section Bounds

variable {s s' : State} {e : Event} {x y : Indexed} {usIndex : UInt16} {t : DlmsStatusTag}
  {us : List Use} {nodes nodes' msg : Mem UInt8} {len : UInt16} {n a i : ℕ}

/-! ### The arrays -/

/-- An entry is overwritten, with an end of the serial number. -/
theorem Ended.entry (h : Ended nodes) (hsame : ∀ j, j < sizeofNode * a ∨ sizeofNode * (a + 1) ≤ j →
      nodes'.cell j = nodes.cell j)
    (hend : ∃ k < dlmsEmuSn432MacSize,
      nodes'.cell (sizeofNode * a + offsetSerialNumber + k) = 0) : Ended nodes' := by
  intro i hi
  by_cases hia : i = a
  · subst hia
    exact hend
  · obtain ⟨k, hk, hzero⟩ := h i hi
    refine ⟨k, hk, ?_⟩
    rw [← hzero]
    apply hsame
    unfold sizeofNode offsetSerialNumber
    unfold dlmsEmuSn432MacSize at hk
    omega

/-- A text ends at the first zero. -/
theorem length_takeWhile_le {xs : List UInt8} {k : ℕ} (hk : k < xs.length) (hzero : xs[k] = 0) :
    (xs.takeWhile (· != 0)).length ≤ k := by
  by_contra hlong
  have hlt : k < (xs.takeWhile (· != 0)).length := by omega
  have hpre : xs.takeWhile (· != 0) <+: xs := List.takeWhile_prefix _
  have hget : (xs.takeWhile (· != 0))[k] = xs[k] := hpre.getElem hlt
  have hne := List.mem_takeWhile_imp (List.getElem_mem hlt)
  rw [hget, hzero] at hne
  exact absurd hne (by decide)

theorem length_serialText (h : Ended nodes) (hi : i < dlmsEmuMaxNumNodesConnected.toNat) :
    (serialText nodes i).length < dlmsEmuSn432MacSize := by
  obtain ⟨k, hk, hzero⟩ := h i hi
  refine lt_of_le_of_lt (length_takeWhile_le (k := k) ?_ ?_) hk
  · rw [Mem.length_slice]
    exact lt_trans hk (by decide)
  · rw [Mem.getElem_slice]
    exact hzero

/-! ### The uses -/

@[simp] theorem Indexed.allInside_apart {f : State → State} :
    (x.apart f).AllInside ↔ x.AllInside := Iff.rfl

theorem Indexed.allInside_note : (x.note us).AllInside ↔ x.AllInside ∧ ∀ u ∈ us, u.Inside :=
  List.forall_mem_append

/-- The search looks at entries below the largest index. -/
theorem searched_inside (hmax : s.susMaxIndexConnectedNode.toNat
      ≤ dlmsEmuMaxNumNodesConnected.toNat) : ∀ u ∈ Indexed.searched usIndex s, u.Inside := by
  intro u hu
  unfold Indexed.searched at hu
  obtain ⟨i, hi, rfl⟩ := List.mem_map.mp hu
  have hrange : i ∈ List.range' (usIndex + 1).toNat
      (s.susMaxIndexConnectedNode.toNat - (usIndex + 1).toNat) := by
    rcases List.mem_append.mp hi with hpassed | hfound
    · exact List.IsPrefix.subset ( List.takeWhile_prefix _) hpassed
    · exact List.mem_of_find?_eq_some (Option.mem_toList.mp hfound)
  rw [List.mem_range'_1] at hrange
  show i < dlmsEmuMaxNumNodesConnected.toNat
  omega

theorem Indexed.AllInside.goToNext (h : x.AllInside) (hmax : x.state.susMaxIndexConnectedNode.toNat
      ≤ dlmsEmuMaxNumNodesConnected.toNat) : (x.goToNext usIndex).AllInside :=
  Indexed.allInside_note.mpr ⟨h, searched_inside hmax⟩

theorem Indexed.AllInside.of_goToNext (h : (x.goToNext usIndex).AllInside) : x.AllInside :=
  (Indexed.allInside_note.mp h).1

/-- `_st_machine` is called for a node of the list. -/
theorem Indexed.AllInside.stMachineSendWithin (h : x.AllInside)
    (hmax : x.state.susMaxIndexConnectedNode.toNat ≤ dlmsEmuMaxNumNodesConnected.toNat)
    (hindex : usIndex < dlmsEmuMaxNumNodesConnected) :
    (Indexed.stMachineSendWithin n usIndex t x).AllInside := by
  induction n generalizing usIndex t x with
  | zero => exact h
  | succ n ih =>
      have hnoted : (x.note [.entry usIndex.toNat]).AllInside := by
        refine Indexed.allInside_note.mpr ⟨h, fun u hu => ?_⟩
        rw [List.mem_singleton.mp hu]
        exact hindex
      unfold Indexed.stMachineSendWithin
      dsimp only
      split_ifs
      · exact hnoted
      · unfold Indexed.cycleNextNodeWith
        dsimp only
        split_ifs with hlt
        · exact ih (hnoted.goToNext hmax) hmax hlt
        · exact hnoted.goToNext hmax

theorem Indexed.AllInside.of_stMachineSendWithin
    (h : (Indexed.stMachineSendWithin n usIndex t x).AllInside) : x.AllInside := by
  induction n generalizing usIndex t x with
  | zero => exact h
  | succ n ih =>
      unfold Indexed.stMachineSendWithin at h
      dsimp only at h
      split_ifs at h
      · exact (Indexed.allInside_note.mp h).1
      · unfold Indexed.cycleNextNodeWith at h
        dsimp only at h
        split_ifs at h
        · exact (Indexed.allInside_note.mp (ih h).of_goToNext).1
        · exact (Indexed.allInside_note.mp h.of_goToNext).1

theorem Indexed.AllInside.cycleNextNode (h : x.AllInside)
    (hmax : x.state.susMaxIndexConnectedNode.toNat ≤ dlmsEmuMaxNumNodesConnected.toNat) :
    (Indexed.cycleNextNode x).AllInside := by
  unfold Indexed.cycleNextNode Indexed.cycleNextNodeWith
  dsimp only
  split_ifs with hlt
  · exact Indexed.AllInside.stMachineSendWithin (h.goToNext hmax) hmax hlt
  · exact h.goToNext hmax

theorem Indexed.AllInside.of_cycleNextNode (h : (Indexed.cycleNextNode x).AllInside) :
    x.AllInside := by
  unfold Indexed.cycleNextNode Indexed.cycleNextNodeWith at h
  dsimp only at h
  split_ifs at h
  · exact h.of_stMachineSendWithin.of_goToNext
  · exact h.of_goToNext

/-- The count looks at the entries of the list. -/
theorem Indexed.getNumberNodesConnected_inside :
    (Indexed.getNumberNodesConnected x).2.AllInside ↔ x.AllInside := by
  unfold Indexed.getNumberNodesConnected
  apply forRange_invariant (fun r : UInt16 × Indexed => r.2.AllInside ↔ x.AllInside) Iff.rfl
  rintro i r - hi huses
  have hnoted : (r.2.note [.entry i]).AllInside ↔ x.AllInside := by
    rw [Indexed.allInside_note, huses]
    apply and_iff_left
    intro u hu
    rw [List.mem_singleton.mp hu]
    exact hi
  unfold Indexed.countNode
  dsimp only
  split_ifs
  · exact hnoted
  · exact hnoted

theorem Indexed.AllInside.startCycle (h : x.AllInside)
    (hmax : x.state.susMaxIndexConnectedNode.toNat ≤ dlmsEmuMaxNumNodesConnected.toNat) :
    (Indexed.startCycle x).AllInside := by
  have hiff := Indexed.getNumberNodesConnected_inside (x := x)
  have hkept := getNumberNodesConnected_le hmax
  rw [← Indexed.state_getNumberNodesConnected.2] at hkept
  unfold Indexed.startCycle
  generalize Indexed.getNumberNodesConnected x = r at hiff hkept ⊢
  have hnext : (r.2.goToNext 0).AllInside := (hiff.mpr h).goToNext hkept
  dsimp only
  split_ifs with hsome hlt
  · exact Indexed.AllInside.stMachineSendWithin (Indexed.allInside_apart.mpr hnext) hkept hlt
  · exact hnext
  · exact hiff.mpr h

theorem Indexed.AllInside.of_startCycle (h : (Indexed.startCycle x).AllInside) : x.AllInside := by
  have hiff := Indexed.getNumberNodesConnected_inside (x := x)
  unfold Indexed.startCycle at h
  generalize Indexed.getNumberNodesConnected x = r at hiff h
  dsimp only at h
  split_ifs at h
  · exact hiff.mp (Indexed.allInside_apart.mp h.of_stMachineSendWithin).of_goToNext
  · exact hiff.mp h.of_goToNext
  · exact hiff.mp h

/-- A report uses the entry of the current node, and copies its serial number. -/
theorem Indexed.reportNode_inside_iff (hended : Ended x.state.sxListNodes) (pcResult : String) :
    (Indexed.reportNode pcResult x).AllInside
      ↔ x.AllInside ∧ x.state.susCurrentNode < dlmsEmuMaxNumNodesConnected := by
  refine Indexed.allInside_note.trans (and_congr_right fun _ => ?_)
  constructor
  · intro h
    exact h _ List.mem_cons_self
  · intro hlt u hu
    rcases List.mem_cons.mp hu with rfl | hcopy
    · exact hlt
    · rw [List.mem_singleton.mp hcopy]
      exact length_serialText hended hlt

theorem Indexed.timeout_inside_iff (h : x.state.WellKept) : (Indexed.timeout x).AllInside
    ↔ x.AllInside ∧ x.state.susCurrentNode < dlmsEmuMaxNumNodesConnected := by
  rw [← Indexed.reportNode_inside_iff h.ended spcRepResultFailTimeout]
  exact ⟨fun hafter => hafter.of_cycleNextNode, fun hreport => hreport.cycleNextNode h.max⟩

/-- The next step is the report of the current node, and what `_st_machine` does for it. -/
theorem Indexed.nextStep_inside_iff (h : x.state.WellKept) : (Indexed.nextStep x).AllInside
    ↔ x.AllInside ∧ x.state.susCurrentNode < dlmsEmuMaxNumNodesConnected := by
  rw [← Indexed.reportNode_inside_iff h.ended spcRepResultSuccess]
  have hindex (hreport : (Indexed.reportNode spcRepResultSuccess x).AllInside) :=
    ((Indexed.reportNode_inside_iff h.ended _).mp hreport).2
  have hmax : (Indexed.reportNode spcRepResultSuccess x).state.susMaxIndexConnectedNode.toNat
      ≤ dlmsEmuMaxNumNodesConnected.toNat := h.max
  have hcurrent : (Indexed.reportNode spcRepResultSuccess x).state.susCurrentNode
      = x.state.susCurrentNode := rfl
  unfold Indexed.nextStep
  generalize Indexed.reportNode spcRepResultSuccess x = r at hindex hmax hcurrent ⊢
  have hsend : ∀ u (z : Indexed), z.uses = r.uses →
      z.state.susMaxIndexConnectedNode = r.state.susMaxIndexConnectedNode →
        ((Indexed.stMachineSend r.state.susCurrentNode u z).AllInside ↔ r.AllInside) := by
    intro u z huses hz
    have hsame : z.AllInside ↔ r.AllInside := by
      unfold Indexed.AllInside
      rw [huses]
    refine ⟨fun hafter => hsame.mp hafter.of_stMachineSendWithin, fun hr => ?_⟩
    refine (hsame.mpr hr).stMachineSendWithin ?_ ?_
    · rw [hz]
      exact hmax
    · rw [hcurrent]
      exact hindex hr
  dsimp only
  split
  · exact hsend _ _ rfl rfl
  · exact hsend _ _ rfl rfl
  · exact hsend _ _ rfl rfl
  · split_ifs
    · exact hsend _ _ rfl rfl
    · exact hsend _ _ rfl rfl
  · split_ifs
    · exact ⟨fun hafter => Indexed.AllInside.of_goToNext hafter, fun hr => hr.goToNext hmax⟩
    · exact ⟨fun hafter => Indexed.AllInside.of_goToNext hafter, fun hr => hr.goToNext hmax⟩

/-- A record uses the entry of its address. -/
theorem Indexed.listRecords_inside_iff : (Indexed.listRecords msg x).AllInside
    ↔ x.AllInside ∧ ∀ i < (msg.cell 5).toNat, RecordFits msg i := by
  unfold Indexed.listRecords
  generalize (msg.cell 5).toNat = n
  induction n with
  | zero => exact (and_iff_left fun i hi => absurd hi (Nat.not_lt_zero i)).symm
  | succ n ih =>
      have hrecord : ∀ y : Indexed, (Indexed.listRecord msg (recordAt (msg.cell 6) n) y).AllInside
          ↔ y.AllInside ∧ RecordFits msg n := by
        intro y
        unfold Indexed.listRecord RecordFits
        dsimp only
        split_ifs with hignored
        · exact (and_iff_left fun hno => absurd hignored hno).symm
        · refine Indexed.allInside_note.trans (and_congr_right fun _ => ?_)
          constructor
          · intro h _
            exact ⟨h _ List.mem_cons_self, h _ (List.mem_cons_of_mem _ List.mem_cons_self)⟩
          · intro h u hu
            rcases List.mem_cons.mp hu with rfl | hend
            · exact (h hignored).1
            · rw [List.mem_singleton.mp hend]
              exact (h hignored).2
      rw [forRange_succ (Nat.zero_le n), hrecord, ih, Nat.forall_lt_succ_right, and_assoc]

/-! ### What is kept -/

theorem State.WellKept.congr (h : s.WellKept) (hsame : s.SameList s') : s'.WellKept := by
  refine ⟨?_, ?_⟩
  · rw [hsame.max]
    exact h.max
  · rw [hsame.nodes]
    exact h.ended

theorem State.WellKept.startCycle (h : s.WellKept) : (startCycle s).WellKept := by
  have hcount : (getNumberNodesConnected s).2.WellKept := by
    obtain ⟨m, hm⟩ := getNumberNodesConnected_snd s
    refine ⟨getNumberNodesConnected_le h.max, ?_⟩
    rw [hm]
    exact h.ended
  exact hcount.congr (sameList_startCycle s)

theorem State.WellKept.listRecord (h : s.WellKept) (hfits : RecordFits msg i) :
    (listRecord msg (recordAt (msg.cell 6) i) s).WellKept := by
  unfold DlmsEmu.listRecord
  dsimp only
  split_ifs with hignored
  · exact h
  · obtain ⟨haddress, hlen⟩ := hfits hignored
    obtain ⟨m, hm⟩ := updateMaxIndex_eq (bigEndian msg (recordAt (msg.cell 6) i + 2)) s
    unfold dlmsEmuSn432MacSize at hlen
    refine ⟨updateMaxIndex_le h.max haddress, ?_⟩
    rw [hm]
    refine h.ended.entry (a := (bigEndian msg (recordAt (msg.cell 6) i + 2)).toNat)
      (fun j hj => ?_) ⟨_, hlen, ?_⟩
    · unfold sizeofNode at hj
      unfold storeDstAddress sizeofNode offsetSerialNumber offsetLenSerialNumber offsetMac
        dlmsEmuSn432MacSize
      rw [Mem.cell_storeList_of_not_mem (by rw [Mem.length_slice]; omega),
        Mem.cell_store_of_ne (by omega), Mem.cell_store_of_ne (by omega),
        Mem.cell_storeList_of_not_mem (by rw [Mem.length_slice]; omega),
        Mem.cell_storeList_of_not_mem (by simp only [List.length_cons, List.length_nil]; omega)]
    · unfold sizeofNode offsetSerialNumber offsetMac dlmsEmuSn432MacSize
      rw [Mem.cell_storeList_of_not_mem (by omega), Mem.cell_store_self]

theorem State.WellKept.listRecords (h : s.WellKept)
    (hfits : ∀ i < (msg.cell 5).toNat, RecordFits msg i) : (listRecords msg s).WellKept :=
  forRange_invariant (fun r : State => r.WellKept) h
    fun i _ _ hi hr => hr.listRecord (hfits i hi)

theorem State.WellKept.response (h : s.WellKept) (hfits : Fits (.response msg len) s) :
    (dlmsMngpRspCb msg len s).WellKept := by
  by_cases hpage : IsListPage msg len
  · have hrecords := h.listRecords (hfits hpage)
    by_cases hlast : IsLastPage msg len
    · rw [dlmsMngpRspCb_of_last hlast]
      exact hrecords.startCycle
    · exact hrecords.congr (dlmsMngpRspCb_of_more hpage hlast)
  · rwa [dlmsMngpRspCb_of_not_page hpage]

theorem State.WellKept.joinInd {pucDeviceId pucMac : Mem UInt8} {ucDeviceIdLen : UInt8}
    {usDstAddress : UInt16} (h : s.WellKept) (haddress : usDstAddress < dlmsEmuMaxNumNodesConnected)
    (hlen : ucDeviceIdLen.toNat < dlmsEmuSn432MacSize) :
    (dlmsEmulCl432JoinIndCb pucDeviceId ucDeviceIdLen usDstAddress pucMac s).WellKept := by
  obtain ⟨m, hm⟩ := updateMaxIndex_eq usDstAddress s
  have hlength : ¬ 16 < ucDeviceIdLen := fun hlt => by
    unfold dlmsEmuSn432MacSize at hlen
    exact absurd (UInt8.lt_iff_toNat_lt.mp hlt) (by simp only [UInt8.reduceToNat]; omega)
  unfold dlmsEmulCl432JoinIndCb
  dsimp only
  refine ⟨updateMaxIndex_le h.max haddress, ?_⟩
  rw [hm, if_neg hlength]
  unfold dlmsEmuSn432MacSize at hlen
  refine h.ended.entry (a := usDstAddress.toNat) (fun j hj => ?_) ⟨_, hlen, ?_⟩
  · unfold sizeofNode at hj
    unfold storeDstAddress sizeofNode offsetSerialNumber offsetLenSerialNumber offsetMac
    rw [Mem.cell_storeList_of_not_mem (by rw [Mem.length_slice]; omega),
      Mem.cell_store_of_ne (by omega), Mem.cell_store_of_ne (by omega),
      Mem.cell_storeList_of_not_mem (by rw [Mem.length_slice]; omega),
      Mem.cell_storeList_of_not_mem (by simp only [List.length_cons, List.length_nil]; omega)]
  · unfold sizeofNode offsetSerialNumber offsetLenSerialNumber offsetMac
    rw [Mem.cell_storeList_of_not_mem (by omega), Mem.cell_store_of_ne (by omega),
      Mem.cell_store_self]

/-- The address of an entry is in no serial number. -/
theorem Ended.storeDstAddress {usAddress : UInt16} (h : Ended nodes) :
    Ended (storeDstAddress a usAddress nodes) := by
  intro i hi
  obtain ⟨k, hk, hzero⟩ := h i hi
  refine ⟨k, hk, ?_⟩
  rw [← hzero]
  unfold dlmsEmuSn432MacSize at hk
  exact Mem.cell_storeList_of_not_mem (by
    unfold sizeofNode offsetSerialNumber
    simp only [List.length_cons, List.length_nil]
    omega)

theorem State.WellKept.timerHandler (h : s.WellKept) (t : Timer) :
    (timerHandler t s).WellKept := by
  cases t with
  | timeout =>
      have hreport : (reportNode spcRepResultFailTimeout s).WellKept := ⟨h.max, h.ended⟩
      exact hreport.congr (sameList_cycleNextNode _)
  | nextCycle => exact h.startCycle
  | nextNode => exact h.congr (sameList_cycleNextNode s)
  | nextStep => exact h.congr (sameList_nextStep s)

/-- **One step.**  What fits keeps the list as it should be. -/
theorem State.WellKept.step (h : s.WellKept) (hfits : Fits e s) (hs : step e s = some s') :
    s'.WellKept := by
  cases e with
  | command buf =>
      obtain rfl := Option.some.inj hs
      rcases dlmsEmuRcvCmd_cases buf s with ⟨-, hcmd⟩ | hcmd | hcmd
      · rw [hcmd]
        exact ⟨h.max, h.ended⟩
      · obtain ⟨ts, hts, -⟩ := stopCycles_eq s
        rw [hcmd, hts]
        exact ⟨h.max, h.ended⟩
      · rwa [hcmd]
  | response msg len =>
      obtain rfl := Option.some.inj hs
      exact h.response hfits
  | dataCfm dstLsap srcLsap dst status =>
      obtain rfl := Option.some.inj hs
      unfold dlmsEmuCl432DlDataCfmCb
      split_ifs
      · exact ⟨h.max, h.ended⟩
      · exact ⟨h.max, h.ended⟩
      · exact h
  | dataInd dstLsap srcLsap dst src data len linkClass =>
      obtain rfl := Option.some.inj hs
      obtain ⟨ts, hts, -⟩ := dataInd_eq dstLsap srcLsap dst src data len linkClass s
      rw [hts]
      split_ifs
      · exact ⟨h.max, h.ended⟩
      · exact ⟨h.max, h.ended⟩
  | joinInd deviceId len dst mac =>
      obtain rfl := Option.some.inj hs
      exact h.joinInd hfits.1 hfits.2
  | leaveInd dst =>
      obtain rfl := Option.some.inj hs
      exact ⟨h.max, h.ended.storeDstAddress⟩
  | expire u =>
      rw [step_expire] at hs
      split_ifs at hs
      obtain rfl := Option.some.inj hs
      exact State.WellKept.timerHandler (s := s.disarm u) ⟨h.max, h.ended⟩ u

/-! ### What is used -/

theorem allInside_nil : (⟨s, []⟩ : Indexed).AllInside := fun _ hu => absurd hu List.not_mem_nil

theorem dataCfm_inside_iff {ucTxStatus : UInt8} (h : s.WellKept) :
    (Indexed.dataCfm ucTxStatus ⟨s, []⟩).AllInside
      ↔ (IsNegativeStatus ucTxStatus → s.susCurrentNode < dlmsEmuMaxNumNodesConnected) := by
  unfold Indexed.dataCfm
  split_ifs with hsuccess hnegative
  · apply iff_of_true allInside_nil
    intro hnegative
    rw [hsuccess] at hnegative
    exact absurd hnegative (by decide)
  · rw [Indexed.allInside_apart, Indexed.reportNode_inside_iff h.ended]
    exact ⟨fun hboth _ => hboth.2, fun hlt => ⟨allInside_nil, hlt hnegative⟩⟩
  · exact iff_of_true allInside_nil fun hyes => absurd hyes hnegative

theorem dataInd_inside_iff {pucData : Mem UInt8} (h : s.WellKept) :
    (Indexed.dataInd pucData ⟨s, []⟩).AllInside
      ↔ (¬ CheckDlmsMessage s.sucCurrentNodeDlmsStep pucData →
        s.susCurrentNode < dlmsEmuMaxNumNodesConnected) := by
  obtain ⟨ts, hts, -⟩ := stopTimer_eq .timeout s
  have hstopped : Indexed.apart (stopTimer .timeout) ⟨s, []⟩ = ⟨{ s with timers := ts }, []⟩ := by
    rw [Indexed.apart, hts]
  unfold Indexed.dataInd
  rw [hstopped]
  dsimp only
  split_ifs with hcheck
  · exact iff_of_true allInside_nil fun hno => absurd hcheck hno
  · rw [Indexed.allInside_apart, Indexed.reportNode_inside_iff (by exact h.ended)]
    exact ⟨fun hboth _ => hboth.2, fun hlt => ⟨allInside_nil, hlt hcheck⟩⟩

theorem response_inside_iff (h : s.WellKept) :
    (Indexed.dlmsMngpRspCb msg len ⟨s, []⟩).AllInside ↔ Fits (.response msg len) s := by
  have hrecords : (Indexed.listRecords msg ⟨s, []⟩).AllInside
      ↔ ∀ i < (msg.cell 5).toNat, RecordFits msg i := by
    rw [Indexed.listRecords_inside_iff]
    exact and_iff_right allInside_nil
  show _ ↔ (IsListPage msg len → ∀ i < (msg.cell 5).toNat, RecordFits msg i)
  unfold Indexed.dlmsMngpRspCb
  split_ifs with hpage hlast
  · rw [imp_iff_right hpage, ← hrecords]
    refine ⟨fun hafter => hafter.of_startCycle, fun hinside => hinside.startCycle ?_⟩
    rw [Indexed.state_listRecords]
    exact (h.listRecords (hrecords.mp hinside)).max
  · rw [imp_iff_right hpage, ← hrecords]
    rfl
  · exact iff_of_true allInside_nil fun hyes => absurd hyes hpage

theorem joinInd_inside_iff {pucDeviceId pucMac : Mem UInt8} {ucDeviceIdLen : UInt8}
    {usDstAddress : UInt16} :
    (Indexed.joinInd pucDeviceId ucDeviceIdLen usDstAddress pucMac ⟨s, []⟩).AllInside
      ↔ usDstAddress < dlmsEmuMaxNumNodesConnected
        ∧ ucDeviceIdLen.toNat < dlmsEmuSn432MacSize := by
  have hlength : (if 16 < ucDeviceIdLen then 16 else ucDeviceIdLen : UInt8).toNat
      < dlmsEmuSn432MacSize ↔ ucDeviceIdLen.toNat < dlmsEmuSn432MacSize := by
    unfold dlmsEmuSn432MacSize
    split_ifs with hlong
    · have hlt : 16 < ucDeviceIdLen.toNat := hlong
      exact iff_of_false (by decide) (by omega)
    · exact Iff.rfl
  rw [← hlength]
  constructor
  · intro h
    exact ⟨h _ List.mem_cons_self, h _ (List.mem_cons_of_mem _ List.mem_cons_self)⟩
  · rintro ⟨haddress, hlen⟩ u hu
    rcases List.mem_cons.mp hu with rfl | hend
    · exact haddress
    · rw [List.mem_singleton.mp hend]
      exact hlen

theorem expire_inside_iff {t : Timer} (h : s.WellKept) :
    (Indexed.timerHandler t ⟨s, []⟩).AllInside ↔ (t = .timeout ∨ t = .nextStep →
      s.susCurrentNode < dlmsEmuMaxNumNodesConnected) := by
  cases t with
  | timeout =>
      apply (Indexed.timeout_inside_iff h).trans
      exact ⟨fun hboth _ => hboth.2, fun hlt => ⟨allInside_nil, hlt (Or.inl rfl)⟩⟩
  | nextCycle =>
      have hafter : (Indexed.startCycle ⟨s, []⟩).AllInside := allInside_nil.startCycle h.max
      show (Indexed.startCycle ⟨s, []⟩).AllInside ↔ _
      apply iff_of_true hafter
      intro hno
      rcases hno with hno | hno <;> cases hno
  | nextNode =>
      apply iff_of_true (allInside_nil.cycleNextNode h.max)
      intro hno
      rcases hno with hno | hno <;> cases hno
  | nextStep =>
      apply (Indexed.nextStep_inside_iff h).trans
      exact ⟨fun hboth _ => hboth.2, fun hlt => ⟨allInside_nil, hlt (Or.inr rfl)⟩⟩

/-- An event uses nothing outside the list exactly if it fits. -/
theorem usesInside_iff (h : s.WellKept) : UsesInside e s ↔ Fits e s := by
  have hsome {y : Indexed} : (∀ x, some y = some x → x.AllInside) ↔ y.AllInside := by
    simp only [Option.some.injEq, forall_eq']
  unfold UsesInside
  cases e with
  | command buf => exact hsome.trans (iff_of_true allInside_nil trivial)
  | response msg len => exact hsome.trans (response_inside_iff h)
  | dataCfm dstLsap srcLsap dst status => exact hsome.trans (dataCfm_inside_iff h)
  | dataInd dstLsap srcLsap dst src data len linkClass => exact hsome.trans (dataInd_inside_iff h)
  | joinInd deviceId len dst mac => exact hsome.trans joinInd_inside_iff
  | leaveInd dst =>
      apply hsome.trans
      constructor
      · intro hall
        exact hall _ (List.mem_singleton_self _)
      · intro hlt u hu
        rw [List.mem_singleton.mp hu]
        exact hlt
  | expire u =>
      by_cases harmed : s.timers.armed u = true
      · have hrun : Indexed.step (.expire u) ⟨s, []⟩
            = some (Indexed.timerHandler u ⟨s.disarm u, []⟩) := if_pos harmed
        rw [hrun, hsome]
        show _ ↔ (s.timers.armed u = true → _)
        rw [imp_iff_right harmed]
        exact expire_inside_iff (s := s.disarm u) ⟨h.max, h.ended⟩
      · have hrun : Indexed.step (.expire u) ⟨s, []⟩ = none := if_neg harmed
        rw [hrun]
        refine iff_of_true (fun x hx => ?_) fun hyes => absurd hyes harmed
        cases hx

/-! ### Runs -/

theorem wellKept_started (appId : ℤ) (ids : TimerIds) (behind : ℕ → UInt8) :
    (started appId ids behind).WellKept := by
  have hsize : dlmsEmuMaxNumNodesConnected.toNat = 16 := rfl
  refine ⟨show (1 : UInt16).toNat ≤ dlmsEmuMaxNumNodesConnected.toNat by decide, ?_⟩
  unfold started dlmsEmuInit State.emit
  dsimp only
  refine forRange_invariant (fun nodes : Mem UInt8 => Ended nodes) ?_
    fun _ _ _ _ hnodes => hnodes.storeDstAddress
  intro i hi
  refine ⟨0, by decide, if_pos ?_⟩
  unfold sizeofNode offsetSerialNumber
  omega

/-- In every run the uses of the list are inside of it exactly as long as the events fit. -/
theorem dlms_emu_inside_iff (appId : ℤ) (ids : TimerIds) (behind : ℕ → UInt8) (es : List Event) :
    AlongSteps step UsesInside es (started appId ids behind)
      ↔ AlongSteps step Fits es (started appId ids behind) :=
  alongSteps_congr (fun _ _ h => usesInside_iff h)
    (fun _ _ _ h hC hs => h.step ((usesInside_iff h).mp hC) hs) (wellKept_started appId ids behind)

end Bounds

/-- The request to node 1 times out, and the cycle ends with it.  The confirm of the request
comes once more: entry 16 is reported. -/
theorem dlms_emu_outside :
    ¬ ∀ (appId : ℤ) (ids : TimerIds) (behind : ℕ → UInt8) (es : List Event),
    AlongSteps step UsesInside es (started appId ids behind) := by
  intro hclaim
  have hrun : ((runSteps step (startNode1 ++ [.dataCfm 0 0 1 cl432TxStatusTimeout,
      .expire .nextNode]) (started 4 .inOrder fun _ => 0)).bind fun s =>
        (Indexed.step (.dataCfm 0 0 1 cl432TxStatusTimeout) ⟨s, []⟩).map fun x =>
          decide (.entry 16 ∈ x.uses)) = some true := by
    decide +kernel
  obtain ⟨s, hs, hstep⟩ := Option.bind_eq_some_iff.mp hrun
  obtain ⟨x, hx, huse⟩ := Option.map_eq_some_iff.mp hstep
  have hall := hclaim 4 .inOrder (fun _ => 0) ((startNode1 ++ [.dataCfm 0 0 1 cl432TxStatusTimeout,
    .expire .nextNode]) ++ [.dataCfm 0 0 1 cl432TxStatusTimeout])
  have hinside := ((alongSteps_append.mp hall).2 s hs).1 x hx _ (decide_eq_true_iff.mp huse)
  exact absurd hinside (lt_irrefl 16)

end DlmsEmu
