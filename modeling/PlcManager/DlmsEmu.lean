/-
# The DLMS emulator

Embeds `dlms_emu.c`: the cycle that sends the steps of a DLMS session to one connected
node after the other, its four timers, the callbacks that keep the list of nodes, and
the commands of a client.

The list of nodes is the memory of the sixteen entries of `x_node_list_t`, byte by
byte and low byte first; what is stored past its end lands in the memory behind it.
Of a timer its id is kept and whether it is armed: all are started with an interval of
zero, so one that expires is disarmed, and it may expire at any time.  A step that would
let a timer expire that is not armed has no result.  `timer_create` is outside the
module: the ids it gives to the four timers are any four different numbers, and one of
them may be zero, which `_stop_timer` takes for a timer that has not been created.  What
leaves the module is logged in `trace`; the lines written for debugging are left out.
-/
import PlcManager.Dlmsotcp

namespace DlmsEmu

open Dlmsotcp (DataRequest cl432InvalidAddress mngpPrimeEnPibqry pibAtml432NodeList
  mngpPrimeEnhancedListMaxRecords)

/-! ## Constants -/

/-- `DLMS_EMU_MAX_NUM_NODES_CONNECTED`. -/
def dlmsEmuMaxNumNodesConnected : UInt16 := 15 + 1
/-- `S02_NUMBEROFDAYS`. -/
def s02Numberofdays : UInt8 := 2
/-- `DLMS_SO2_NUMBER_OF_BLOCKS`. -/
def dlmsSo2NumberOfBlocks : UInt8 := s02Numberofdays * 24 / 4
/-- `DLMS_EMU_SN432_MAC_SIZE`. -/
def dlmsEmuSn432MacSize : ℕ := 16
/-- `MNGP_PRIME_LISTRSP`. -/
def mngpPrimeListrsp : UInt8 := 0x0f
/-- `DLMS_EMU_CMD_STOP_CYCLES`. -/
def dlmsEmuCmdStopCycles : UInt8 := 0x30
/-- `DLMS_EMU_CMD_START_CYCLES`. -/
def dlmsEmuCmdStartCycles : UInt8 := 0x31
/-- `CL_432_TX_STATUS_SUCCESS`. -/
def cl432TxStatusSuccess : UInt8 := 0
/-- `CL_432_TX_STATUS_TIMEOUT`. -/
def cl432TxStatusTimeout : UInt8 := 2
/-- `CL_432_TX_STATUS_ERROR_BAD_ADDRESS`. -/
def cl432TxStatusErrorBadAddress : UInt8 := 0xc0
/-- `CL_432_TX_STATUS_ERROR_BAD_HANLDER`. -/
def cl432TxStatusErrorBadHanlder : UInt8 := 0xc1
/-- `CL_432_TX_STATUS_PREVIOUS_COMM`. -/
def cl432TxStatusPreviousComm : UInt8 := 0xc2

/-- `dlms_status_tag_t`. -/
inductive DlmsStatusTag where
  | associationRequest
  | dateRequest
  | so2Request
  | nextblockRequest
  | releaseRequest
  deriving DecidableEq, Repr

/-- The number of a step, as it is reported. -/
def DlmsStatusTag.elementId : DlmsStatusTag → ℕ
  | associationRequest => 0
  | dateRequest => 1
  | so2Request => 2
  | nextblockRequest => 3
  | releaseRequest => 4

/-! ### Requests -/

/-- `cmd_DLMS_associationRequest`. -/
def cmdDlmsAssociationRequest : List UInt8 := [
  0x60, 0x36, 0xA1, 0x09, 0x06, 0x07, 0x60, 0x85, 0x74, 0x05, 0x08, 0x01, 0x01, 0x8A, 0x02, 0x07,
  0x80, 0x8B, 0x07, 0x60, 0x85,
  0x74, 0x05, 0x08, 0x02, 0x01, 0xAC, 0x0A, 0x80, 0x08, 0x47, 0x45, 0x45, 0x30, 0x30, 0x31, 0x35,
  0x39, 0xBE, 0x10, 0x04, 0x0E,
  0x01, 0x00, 0x00, 0x00, 0x06, 0x5F, 0x1F, 0x04, 0x00, 0x00, 0x10, 0x1C, 0x00, 0xFD, 0x60, 0x36,
  0xA1, 0x09, 0x06, 0x07, 0x60,
  0x85, 0x74, 0x05, 0x08, 0x01, 0x01, 0x8A, 0x02, 0x07, 0x80, 0x8B, 0x07, 0x60, 0x85, 0x74, 0x05,
  0x08, 0x02, 0x01, 0xAC, 0x0A,
  0x80, 0x08, 0x47, 0x45, 0x45, 0x30, 0x30, 0x31, 0x35, 0x39, 0xBE, 0x10, 0x04, 0x0E, 0x01, 0x00,
  0x00, 0x00, 0x06, 0x5F, 0x1F,
  0x04, 0x00, 0x00, 0x10, 0x1C, 0x00, 0xFD]

/-- `cmd_DLMS_date_OBIS0000010000FF_0008_02`. -/
def cmdDlmsDate : List UInt8 :=
  [0xC0, 0x01, 0xC1, 0x00, 0x08, 0x00, 0x00, 0x01, 0x00, 0x00, 0xFF, 0x02, 0x00]

/-- `cmd_DLMS_S02_OBIS0100630100FF_0007_02`. -/
def cmdDlmsS02 : List UInt8 := [
  0xC0, 0X01, 0XC2, 0X00, 0X07, 0X01, 0X00, 0X63, 0X01, 0X00, 0XFF, 0X02, 0X01, 0X01, 0X02, 0X04,
  0X02, 0X04, 0X12, 0X00, 0X08,
  0X09, 0X06, 0X00, 0X00, 0X01, 0X00, 0X00, 0XFF, 0X0F, 0X02, 0X12, 0X00, 0X00, 0X09, 0X0C, 0X07,
  0XDE, 0X05, 0X15, 0X01, 0X08,
  0X00, 0X00, 0X00, 0X80, 0X00, 0X80, 0X09, 0X0C, 0X07, 0XDE, 0X05, 0x15 + s02Numberofdays, 0X02,
  0X08, 0X00, 0X00, 0X00,
  0X80, 0X00, 0X80, 0X01, 0X00]

/-- `cmd_DLMS_NextBlock`. -/
def cmdDlmsNextBlock : List UInt8 := [0xC0, 0x02, 0xC2, 0x00, 0x00, 0x00, 0x02]

/-- `cmd_DLMS_release_request`. -/
def cmdDlmsReleaseRequest : List UInt8 := [0x62, 0x00]

/-! ### Responses -/

/-- `assoc_response_val`. -/
def assocResponseVal : List UInt8 :=
  [0x61, 0x29, 0xA1, 0x09, 0x06, 0x07, 0x60, 0x85, 0x74, 0x05, 0x08, 0x01, 0x01, 0xA2, 0x03, 0x02]
/-- `release_response_val`. -/
def releaseResponseVal : List UInt8 := [0x63, 0x03, 0x80, 0x01, 0x00]
/-- `get_request_s02val`. -/
def getRequestS02val : List UInt8 := [0xC4, 0x02, 0xC2]
/-- `get_request_date_val`. -/
def getRequestDateVal : List UInt8 := [0xC4, 0x01, 0xC1, 0x00, 0x09]

/-! ## Data -/

/-- What `sx_node_report_info` holds when it is handed over. -/
structure DlmsReportInfo where
  iElementId : ℕ
  pcDevSn : List UInt8
  pcResult : String
  pcOperation : String
  deriving DecidableEq, Repr

/-- A call that leaves the module. -/
inductive Output where
  | selectApi (appId : ℤ)
  | dataRequest (r : DataRequest)
  | reportStartCycle
  | reportEndCycle
  | reportNodeCycle (info : DlmsReportInfo)
  | setCl432Callbacks (appId : ℤ)
  | setRspCallback (appId : ℤ)
  | reportInit
  | newMsg (cmd : UInt8)
  | addGetPibListEnQuery (pibAttrib : UInt16) (maxRecords : ℕ) (iterator : UInt16)
  | sendMsg (appId : ℤ)
  deriving DecidableEq, Repr

/-- The timers of the emulator. -/
inductive Timer where
  | timeout
  | nextCycle
  | nextNode
  | nextStep
  deriving DecidableEq, Repr

/-- The ids that `timer_create` gives to the four timers. -/
structure TimerIds where
  id : Timer → ℕ
  distinct : Function.Injective id

/-- The timers numbered in the order in which they are created, from zero on. -/
def numberOfTimer : Timer → ℕ
  | .timeout => 0
  | .nextCycle => 1
  | .nextNode => 2
  | .nextStep => 3

theorem numberOfTimer_injective : Function.Injective numberOfTimer := by
  intro t u h
  cases t <;> cases u <;> first | rfl | cases h

/-- The ids of a process that has no other timers. -/
def TimerIds.inOrder : TimerIds := ⟨numberOfTimer, numberOfTimer_injective⟩

/-- Which timers are armed. -/
structure Timers where
  stTimeoutTimer : Bool
  stNextCycleTimer : Bool
  stNextNodeTimer : Bool
  stNextStepTimer : Bool
  deriving DecidableEq, Repr

/-- The static variables of `dlms_emu.c` and the calls that have left the module. -/
structure State where
  sxListNodes : Mem UInt8
  susMaxIndexConnectedNode : UInt16
  sulTotalCycleNumber : UInt32
  susCurrentNode : UInt16
  sucCurrentNodeDlmsStep : DlmsStatusTag
  sucBlocknumber : UInt8
  sxCmdTx432 : Mem UInt8
  siDlmsEmuAppId : ℤ
  timerIds : Timer → ℕ
  timers : Timers
  trace : List Output

/-- Calls leave the module. -/
def State.emit (s : State) (outs : List Output) : State := { s with trace := s.trace ++ outs }

/-! ### Timers -/

/-- Whether a timer is armed. -/
def Timers.armed (t : Timers) : Timer → Bool
  | .timeout => t.stTimeoutTimer
  | .nextCycle => t.stNextCycleTimer
  | .nextNode => t.stNextNodeTimer
  | .nextStep => t.stNextStepTimer

/-- A timer is armed or disarmed. -/
def Timers.set (t : Timers) (b : Bool) : Timer → Timers
  | .timeout => { t with stTimeoutTimer := b }
  | .nextCycle => { t with stNextCycleTimer := b }
  | .nextNode => { t with stNextNodeTimer := b }
  | .nextStep => { t with stNextStepTimer := b }

/-- `_start_timer_sec` and `_start_timer_ms`. -/
def startTimer (t : Timer) (s : State) : State := { s with timers := s.timers.set true t }

/-- A timer is disarmed. -/
def State.disarm (t : Timer) (s : State) : State := { s with timers := s.timers.set false t }

/-- `_stop_timer`. -/
def stopTimer (t : Timer) (s : State) : State :=
  if s.timerIds t ≠ 0 then s.disarm t else s

/-! ### The list of nodes -/

/-- `sizeof(x_node_list_t)`. -/
def sizeofNode : ℕ := 26
/-- The offset of `serial_number` in an entry. -/
def offsetSerialNumber : ℕ := 2
/-- The offset of `len_serial_number` in an entry. -/
def offsetLenSerialNumber : ℕ := 18
/-- The offset of `mac` in an entry. -/
def offsetMac : ℕ := 19

/-- `sx_list_nodes[us_index].dst_address`. -/
def dstAddress (nodes : Mem UInt8) (usIndex : ℕ) : UInt16 :=
  (nodes.cell (sizeofNode * usIndex)).toUInt16
    + ((nodes.cell (sizeofNode * usIndex + 1)).toUInt16 <<< 8)

/-- `sx_list_nodes[us_index].dst_address = us_address`. -/
def storeDstAddress (usIndex : ℕ) (usAddress : UInt16) (nodes : Mem UInt8) : Mem UInt8 :=
  nodes.storeList (sizeofNode * usIndex) [usAddress.toUInt8, (usAddress >>> 8).toUInt8]

/-- The text that `%s` prints for `sx_list_nodes[us_index].serial_number`, up to the first
zero byte, looked for over the size of the list. -/
def serialText (nodes : Mem UInt8) (usIndex : ℕ) : List UInt8 :=
  (nodes.slice (sizeofNode * usIndex + offsetSerialNumber)
    (sizeofNode * dlmsEmuMaxNumNodesConnected.toNat)).takeWhile (· != 0)

/-- Node `us_index` is connected. -/
def Connected (nodes : Mem UInt8) (usIndex : ℕ) : Prop :=
  dstAddress nodes usIndex ≠ cl432InvalidAddress

instance (nodes : Mem UInt8) (i : ℕ) : Decidable (Connected nodes i) :=
  inferInstanceAs (Decidable (_ ≠ _))

/-- `_get_number_nodes_connected`. -/
def getNumberNodesConnected (s : State) : UInt16 × State :=
  forRange 0 dlmsEmuMaxNumNodesConnected.toNat
    (fun usNextIndex r =>
      if Connected r.2.sxListNodes usNextIndex then
        (r.1 + 1, { r.2 with susMaxIndexConnectedNode := UInt16.ofNat usNextIndex + 1 })
      else r)
    (0, s)

/-- `_get_next_node_to_cycle`.  The counter has the width of `us_index`. -/
def getNextNodeToCycle (usIndex : UInt16) (s : State) : UInt16 :=
  let lo := (usIndex + 1).toNat
  match (List.range' lo (s.susMaxIndexConnectedNode.toNat - lo)).find?
    fun usNextIndex => decide (Connected s.sxListNodes usNextIndex) with
  | some usNextIndex => UInt16.ofNat usNextIndex
  | none => dlmsEmuMaxNumNodesConnected

/-! ## The cycle -/

/-- `_generate_str`: the length of the message, which is now in `sx_cmd_tx_432`.  Of the
message arrays the source overwrites only bytes that the same branch sets again. -/
def generateStr (ucStep : DlmsStatusTag) (ucInvokeOrder : UInt8) (s : State) : ℕ × State :=
  let r : List UInt8 × UInt8 :=
    match ucStep with
    | .associationRequest => (cmdDlmsAssociationRequest, s.sucBlocknumber)
    | .dateRequest => (cmdDlmsDate.set 2 ucInvokeOrder, s.sucBlocknumber)
    | .so2Request => (cmdDlmsS02.set 2 (ucInvokeOrder + 1), 1)
    | .nextblockRequest =>
        let sucBlocknumber := s.sucBlocknumber + 1
        ((cmdDlmsNextBlock.set 2 (ucInvokeOrder + 1)).set 6 sucBlocknumber, sucBlocknumber)
    | .releaseRequest => (cmdDlmsReleaseRequest, s.sucBlocknumber)
  (r.1.length,
    { s with sxCmdTx432 := s.sxCmdTx432.storeList 0 r.1, sucBlocknumber := r.2 })

/-- The request that `_st_machine` makes of a connected node. -/
def sendRequest (usIndex : UInt16) (dlmsStatus : DlmsStatusTag) (s : State) : State :=
  let r := generateStr dlmsStatus 0xc1 s
  r.2.emit [.selectApi r.2.siDlmsEmuAppId,
    .dataRequest ⟨0, 0, usIndex, r.2.sxCmdTx432.slice 0 r.1, UInt16.ofNat r.1, 0⟩]

/-- `_cycle_next_node`, with `_st_machine` for `CMD_SEND` as it calls it. -/
def cycleNextNodeWith (stMachine : UInt16 → DlmsStatusTag → State → State) (s : State) : State :=
  let s := { s with susCurrentNode := getNextNodeToCycle s.susCurrentNode s }
  if s.susCurrentNode < dlmsEmuMaxNumNodesConnected then
    let s := { s with sucCurrentNodeDlmsStep := .associationRequest }
    stMachine s.susCurrentNode s.sucCurrentNodeDlmsStep s
  else startTimer .nextCycle (s.emit [.reportEndCycle])

/-- `_st_machine` for `CMD_SEND`; it and `_cycle_next_node` call each other, at most as
often as the first argument says. -/
def stMachineSendWithin : ℕ → UInt16 → DlmsStatusTag → State → State
  | 0, _, _, s => s
  | n + 1, usIndex, dlmsStatus, s =>
      if Connected s.sxListNodes usIndex.toNat then sendRequest usIndex dlmsStatus s
      else cycleNextNodeWith (stMachineSendWithin n) s

/-- `_st_machine` for `CMD_SEND`.  Two calls are enough: `_cycle_next_node` calls it for a
connected node. -/
def stMachineSend : UInt16 → DlmsStatusTag → State → State := stMachineSendWithin 2

/-- `_cycle_next_node`. -/
def cycleNextNode : State → State := cycleNextNodeWith stMachineSend

/-- `spc_rep_result_fail_timeout`. -/
def spcRepResultFailTimeout : String := "DLMS ERROR TIMEOUT"
/-- `spc_rep_result_fail_invalid`. -/
def spcRepResultFailInvalid : String := "DLMS ERROR INVALID"
/-- `spc_rep_result_fail`. -/
def spcRepResultFail : String := "DLMS ERROR"
/-- `spc_rep_result_success`. -/
def spcRepResultSuccess : String := "DLMS SUCCESS"
/-- `pc_rep_cmd_get`. -/
def pcRepCmdGet : String := "GET"

/-- The current step of the current node is reported. -/
def reportNode (pcResult : String) (s : State) : State :=
  s.emit [.reportNodeCycle ⟨s.sucCurrentNodeDlmsStep.elementId,
    serialText s.sxListNodes s.susCurrentNode.toNat, pcResult, pcRepCmdGet⟩]

/-- `_st_machine` for `CMD_TIMEOUT`, which is all that `_timeout` does. -/
def timeout (s : State) : State := cycleNextNode (reportNode spcRepResultFailTimeout s)

/-- `_start_cycle`. -/
def startCycle (s : State) : State :=
  let r := getNumberNodesConnected s
  if r.1 ≠ 0 then
    let s := { r.2 with susCurrentNode := getNextNodeToCycle 0 r.2 }
    if s.susCurrentNode < dlmsEmuMaxNumNodesConnected then
      let s :=
        { (s.emit [.reportStartCycle]) with
          sulTotalCycleNumber := s.sulTotalCycleNumber + 1
          sucCurrentNodeDlmsStep := .associationRequest }
      stMachineSend s.susCurrentNode s.sucCurrentNodeDlmsStep s
    else s
  else r.2

/-- `_stop_cycles`. -/
def stopCycles (s : State) : State :=
  let s := stopTimer .nextStep (stopTimer .nextNode (stopTimer .nextCycle (stopTimer .timeout s)))
  { s with sulTotalCycleNumber := 0, sucCurrentNodeDlmsStep := .associationRequest }

/-- `_next_step`. -/
def nextStep (s : State) : State :=
  let s := reportNode spcRepResultSuccess s
  match s.sucCurrentNodeDlmsStep with
  | .associationRequest =>
      stMachineSend s.susCurrentNode .dateRequest
        { s with sucCurrentNodeDlmsStep := .dateRequest, sucBlocknumber := 0 }
  | .dateRequest =>
      stMachineSend s.susCurrentNode .so2Request { s with sucCurrentNodeDlmsStep := .so2Request }
  | .so2Request =>
      stMachineSend s.susCurrentNode .nextblockRequest
        { s with sucCurrentNodeDlmsStep := .nextblockRequest, sucBlocknumber := 0 }
  | .nextblockRequest =>
      let s := { s with sucBlocknumber := s.sucBlocknumber + 1 }
      let s :=
        if dlmsSo2NumberOfBlocks < s.sucBlocknumber then
          { s with sucCurrentNodeDlmsStep := .releaseRequest, sucBlocknumber := 0 }
        else s
      stMachineSend s.susCurrentNode s.sucCurrentNodeDlmsStep s
  | .releaseRequest =>
      let s := { s with susCurrentNode := getNextNodeToCycle s.susCurrentNode s }
      -- the node is advanced here, and once more by the handler of the timer
      if s.susCurrentNode < dlmsEmuMaxNumNodesConnected then startTimer .nextNode s
      else startTimer .nextCycle (s.emit [.reportEndCycle])

/-- `_timer_handler`. -/
def timerHandler : Timer → State → State
  | .timeout => timeout
  | .nextCycle => startCycle
  | .nextNode => cycleNextNode
  | .nextStep => nextStep

/-! ## Management responses -/

/-- `(p[0] << 8) + p[1]`. -/
def bigEndian (msg : Mem UInt8) (p : ℕ) : UInt16 :=
  ((msg.cell p).toUInt16 <<< 8) + (msg.cell (p + 1)).toUInt16

/-- `sus_max_index_connected_node` is raised to hold an address. -/
def updateMaxIndex (usAddress : UInt16) (s : State) : State :=
  if s.susMaxIndexConnectedNode ≤ usAddress then
    { s with susMaxIndexConnectedNode := usAddress + 1 }
  else s

/-- One record of a list response, from `puc_pib_value` on. -/
def listRecord (msg : Mem UInt8) (pucPibValue : ℕ) (s : State) : State :=
  let usAddress := bigEndian msg (pucPibValue + 2)
  if 0x0fff - 1 ≤ usAddress then s
  else
    let s := updateMaxIndex usAddress s
    let p := sizeofNode * usAddress.toNat
    let len := msg.cell (pucPibValue + 4 + dlmsEmuSn432MacSize)
    let nodes := storeDstAddress usAddress.toNat usAddress s.sxListNodes
    let nodes := nodes.storeList (p + offsetSerialNumber)
      (msg.slice (pucPibValue + 4) dlmsEmuSn432MacSize)
    let nodes := nodes.store (p + offsetLenSerialNumber) len
    -- the end of the string, wherever the length byte puts it
    let nodes := nodes.store (p + offsetSerialNumber + len.toNat) 0
    let nodes := nodes.storeList (p + offsetMac)
      (msg.slice (pucPibValue + 4 + dlmsEmuSn432MacSize + 1) 6)
    { s with sxListNodes := nodes }

/-- Where record `i` of a list response starts. -/
def recordAt (ucRecordLen : UInt8) (i : ℕ) : ℕ := 7 + i * (ucRecordLen.toNat + 2)

/-- The records of a list response. -/
def listRecords (msg : Mem UInt8) (s : State) : State :=
  forRange 0 (msg.cell 5).toNat (fun i s => listRecord msg (recordAt (msg.cell 6) i) s) s

/-- The response is a page of the list of connected nodes. -/
def IsListPage (ptrMsg : Mem UInt8) (len : UInt16) : Prop :=
  4 ≤ len ∧ ptrMsg.cell 2 = mngpPrimeListrsp ∧ bigEndian ptrMsg 3 = pibAtml432NodeList

instance (msg : Mem UInt8) (len : UInt16) : Decidable (IsListPage msg len) :=
  inferInstanceAs (Decidable (_ ∧ _))

/-- The page is the last one. -/
def IsLastPage (ptrMsg : Mem UInt8) (len : UInt16) : Prop :=
  IsListPage ptrMsg len ∧ (ptrMsg.cell 5).toNat < mngpPrimeEnhancedListMaxRecords

instance (msg : Mem UInt8) (len : UInt16) : Decidable (IsLastPage msg len) :=
  inferInstanceAs (Decidable (_ ∧ _))

/-- The query for the list of connected nodes from an iterator on. -/
def queryNodesList (usBigendianIterator : UInt16) (s : State) : State :=
  s.emit [.newMsg mngpPrimeEnPibqry,
    .addGetPibListEnQuery pibAtml432NodeList mngpPrimeEnhancedListMaxRecords usBigendianIterator,
    .sendMsg s.siDlmsEmuAppId]

/-- `_dlms_mngp_rsp_cb`. -/
def dlmsMngpRspCb (ptrMsg : Mem UInt8) (len : UInt16) (s : State) : State :=
  if len < 4 then s
  else if ptrMsg.cell 2 ≠ mngpPrimeListrsp then s
  else if bigEndian ptrMsg 3 = pibAtml432NodeList then
    let ucRecords := (ptrMsg.cell 5).toNat
    let s := listRecords ptrMsg s
    if ucRecords = 0 ∨ ucRecords < mngpPrimeEnhancedListMaxRecords then startCycle s
    else
      let usLastIterator := bigEndian ptrMsg (recordAt (ptrMsg.cell 6) (ucRecords - 1))
      if usLastIterator = 0xffff then s
      else if usLastIterator &&& 0x8000 ≠ 0 then s
      else
        let next := usLastIterator + 1
        queryNodesList (((next &&& 0xff) <<< 8) + ((next >>> 8) &&& 0xff)) s
  else s

/-- `_update_nodes_list`. -/
def updateNodesList (s : State) : State := queryNodesList 0 s

/-! ## Responses of the nodes -/

/-- What the message has to start with to be valid for a step. -/
def responseVal : DlmsStatusTag → List UInt8
  | .associationRequest => assocResponseVal.take 16
  | .dateRequest => getRequestDateVal.take 5
  | .so2Request => getRequestS02val.take 2
  | .nextblockRequest => getRequestS02val.take 2
  | .releaseRequest => releaseResponseVal.take 5

/-- `_check_dlms_message` returns `DLMS_VALID_MESSAGE`. -/
def CheckDlmsMessage (ucStep : DlmsStatusTag) (pucData : Mem UInt8) : Prop :=
  pucData.slice 0 (responseVal ucStep).length = responseVal ucStep

instance (t : DlmsStatusTag) (d : Mem UInt8) : Decidable (CheckDlmsMessage t d) :=
  inferInstanceAs (Decidable (_ = _))

/-- `_dlms_emu_cl_432_dl_data_ind_cb`.  Neither the addresses nor the length is looked at. -/
def dlmsEmuCl432DlDataIndCb (_ucDstLsap _ucSrcLsap : UInt8) (_usDstAddress _srcAddress : UInt16)
    (pucData : Mem UInt8) (_ucLsduLen : UInt16) (_ucLinkClass : UInt8) (s : State) : State :=
  let s := stopTimer .timeout s
  if CheckDlmsMessage s.sucCurrentNodeDlmsStep pucData then startTimer .nextStep s
  else startTimer .nextNode (reportNode spcRepResultFailInvalid s)

/-- The confirm statuses that end a step. -/
def IsNegativeStatus (ucTxStatus : UInt8) : Prop :=
  ucTxStatus = cl432TxStatusPreviousComm ∨ ucTxStatus = cl432TxStatusTimeout
    ∨ ucTxStatus = cl432TxStatusErrorBadAddress ∨ ucTxStatus = cl432TxStatusErrorBadHanlder

instance (c : UInt8) : Decidable (IsNegativeStatus c) := inferInstanceAs (Decidable (_ ∨ _))

/-- `_dlms_emu_cl_432_dl_data_cfm_cb`. -/
def dlmsEmuCl432DlDataCfmCb (_ucDstLsap _ucSrcLsap : UInt8) (_usDstAddress : UInt16)
    (ucTxStatus : UInt8) (s : State) : State :=
  if ucTxStatus = cl432TxStatusSuccess then startTimer .timeout s
  else if IsNegativeStatus ucTxStatus then startTimer .nextNode (reportNode spcRepResultFail s)
  else s

/-! ## Joins and leaves -/

/-- `_dlms_emul_cl_432_join_ind_cb`. -/
def dlmsEmulCl432JoinIndCb (pucDeviceId : Mem UInt8) (ucDeviceIdLen : UInt8)
    (usDstAddress : UInt16) (pucMac : Mem UInt8) (s : State) : State :=
  let s := updateMaxIndex usDstAddress s
  let p := sizeofNode * usDstAddress.toNat
  let nodes := storeDstAddress usDstAddress.toNat usDstAddress s.sxListNodes
  let ucLength : UInt8 := if 16 < ucDeviceIdLen then 16 else ucDeviceIdLen
  let nodes := nodes.storeList (p + offsetSerialNumber) (pucDeviceId.slice 0 ucLength.toNat)
  let nodes := nodes.store (p + offsetSerialNumber + ucLength.toNat) 0
  let nodes := nodes.store (p + offsetLenSerialNumber) ucLength
  { s with sxListNodes := nodes.storeList (p + offsetMac) (pucMac.slice 0 6) }

/-- `_dlms_emul_cl_432_leave_ind_cb`. -/
def dlmsEmulCl432LeaveIndCb (usDstAddress : UInt16) (s : State) : State :=
  { s with sxListNodes := storeDstAddress usDstAddress.toNat cl432InvalidAddress s.sxListNodes }

/-! ## The system -/

/-- `_dlms_emu_rcv_cmd` of the bytes that `dlms_emu_callback` has read. -/
def dlmsEmuRcvCmd (buf : List UInt8) (s : State) : State :=
  match buf with
  | [] => s
  | cmd :: _ =>
      if cmd = dlmsEmuCmdStartCycles then updateNodesList s
      else if cmd = dlmsEmuCmdStopCycles then stopCycles s
      else s

/-- The static variables before `dlms_emu_init`, with anything in the memory behind the
list of nodes. -/
def State.static (behind : ℕ → UInt8) : State where
  sxListNodes := Mem.init fun i =>
    if i < sizeofNode * dlmsEmuMaxNumNodesConnected.toNat then 0 else behind i
  susMaxIndexConnectedNode := 0
  sulTotalCycleNumber := 0
  susCurrentNode := 0
  sucCurrentNodeDlmsStep := .associationRequest
  sucBlocknumber := 0
  sxCmdTx432 := Mem.init fun _ => 0
  siDlmsEmuAppId := 0
  timerIds := fun _ => 0
  timers := ⟨false, false, false, false⟩
  trace := []

/-- `dlms_emu_init`, with the ids of the timers it creates. -/
def dlmsEmuInit (appId : ℤ) (ids : TimerIds) (s : State) : State :=
  let nodes := forRange 0 dlmsEmuMaxNumNodesConnected.toNat
    (fun usIndex nodes => storeDstAddress usIndex cl432InvalidAddress nodes) s.sxListNodes
  State.emit
    { s with
      siDlmsEmuAppId := appId
      sxListNodes := nodes
      susMaxIndexConnectedNode := 1
      timerIds := ids.id }
    [.setCl432Callbacks appId, .setRspCallback appId, .reportInit]

/-- The emulator when it has been started. -/
def started (appId : ℤ) (ids : TimerIds) (behind : ℕ → UInt8) : State :=
  dlmsEmuInit appId ids (State.static behind)

/-- What happens to the emulator. -/
inductive Event where
  | command (buf : List UInt8)
  | response (ptrMsg : Mem UInt8) (len : UInt16)
  | dataCfm (ucDstLsap ucSrcLsap : UInt8) (usDstAddress : UInt16) (ucTxStatus : UInt8)
  | dataInd (ucDstLsap ucSrcLsap : UInt8) (usDstAddress srcAddress : UInt16)
      (pucData : Mem UInt8) (ucLsduLen : UInt16) (ucLinkClass : UInt8)
  | joinInd (pucDeviceId : Mem UInt8) (ucDeviceIdLen : UInt8) (usDstAddress : UInt16)
      (pucMac : Mem UInt8)
  | leaveInd (usDstAddress : UInt16)
  | expire (t : Timer)

/-- The reaction to an event. -/
def step : Event → State → Option State
  | .command buf, s => some (dlmsEmuRcvCmd buf s)
  | .response ptrMsg len, s => some (dlmsMngpRspCb ptrMsg len s)
  | .dataCfm ucDstLsap ucSrcLsap usDstAddress ucTxStatus, s =>
      some (dlmsEmuCl432DlDataCfmCb ucDstLsap ucSrcLsap usDstAddress ucTxStatus s)
  | .dataInd ucDstLsap ucSrcLsap usDstAddress srcAddress pucData ucLsduLen ucLinkClass, s =>
      some (dlmsEmuCl432DlDataIndCb ucDstLsap ucSrcLsap usDstAddress srcAddress pucData ucLsduLen
        ucLinkClass s)
  | .joinInd pucDeviceId ucDeviceIdLen usDstAddress pucMac, s =>
      some (dlmsEmulCl432JoinIndCb pucDeviceId ucDeviceIdLen usDstAddress pucMac s)
  | .leaveInd usDstAddress, s => some (dlmsEmulCl432LeaveIndCb usDstAddress s)
  | .expire t, s =>
      if s.timers.armed t then some (timerHandler t (s.disarm t)) else none

end DlmsEmu
