/-
# DLMS over TCP

Embeds the part of `dlmsotcp.c` that takes messages from the concentrator and hands
them to the base node: the two lists of message buffers, `dlmsotcp_RxProcess`, the
data confirm callback and `dlmsotcp_init`.

The buffers that `dlmsotcp_init` allocates are the cells `0`, `1`, … of a heap, and a
pointer is `none` where it is NULL.  A step that would follow a NULL pointer has no
result.  What the code asks of its surroundings is logged in `trace`; `clock` are the
values that the successive calls of `time` return.
-/
import PlcManager.FlatMemory

namespace Dlmsotcp

/-! ## Constants -/

/-- `MAX_NUM_NODES_CONNECTED`. -/
def maxNumNodesConnected : ℕ := 2000
/-- `CL_432_INVALID_ADDRESS`. -/
def cl432InvalidAddress : UInt16 := 0xffff
/-- `SERIAL_NUMBER_432_MAC`. -/
def serialNumber432Mac : ℕ := 16
/-- `MAX_MSG_LIST`. -/
def maxMsgList : ℕ := 5
/-- `MAX_432_SEND_RETRY`. -/
def max432SendRetry : UInt16 := 2
/-- `MAX_LENGTH_432_DATA`: 1024 bytes less `LPDU_HEADER`. -/
def maxLength432Data : ℕ := 1024 - 3
/-- `MNGP_PRIME_EN_PIBQRY`. -/
def mngpPrimeEnPibqry : UInt8 := 0x06
/-- `PIB_ATML_432_NODE_LIST`. -/
def pibAtml432NodeList : UInt16 := 0x8250
/-- `MNGP_PRIME_ENHANCED_LIST_MAX_RECORDS`. -/
def mngpPrimeEnhancedListMaxRecords : ℕ := 30

/-! ## Data -/

/-- `struct x_dlms_msg`. -/
structure XDlmsMsg where
  uiTimestamp : UInt32
  usRetries : UInt16
  usDst : UInt16
  usLsap : UInt16
  usLength : UInt16
  data : Mem UInt8
  pxLink : Option ℕ

/-- `struct x_dlms_msg_list`. -/
structure XDlmsMsgList where
  pxHead : Option ℕ
  pxTail : Option ℕ
  usCount : UInt16

/-- An entry of `x_list_nodes_connected`. -/
structure ConnectedNode where
  dstAddress : UInt16
  serialNumber : Vector UInt8 serialNumber432Mac
  lenSerialNumber : UInt8
  mac : Vector UInt8 6
  autocloseEnabled : UInt8

/-- The fields of `dl_432_buffer_t` that are used here. -/
structure Dl432Buffer where
  lsap : UInt8
  buff : Mem UInt8

/-- The arguments of `prime_cl_432_dl_data_request`.  Of the buffer it is given it
reads the first `usLsduLen` bytes of `dl.buff`, here `lsdu`. -/
structure DataRequest where
  ucDstLsap : UInt8
  ucSrcLsap : UInt8
  usDstAddress : UInt16
  lsdu : List UInt8
  usLsduLen : UInt16
  ucLinkClass : UInt8
  deriving DecidableEq, Repr

/-- A call that leaves the module. -/
inductive Output where
  | selectApi (appId : ℤ)
  | dataRequest (r : DataRequest)
  | releaseRequest (usDstAddress : UInt16)
  | write (fd : ℤ) (bytes : List UInt8)
  | printf (format : String) (args : List ℕ)
  | setCl432Callbacks (appId : ℤ)
  | setRspCallback (appId : ℤ)
  | newMsg (cmd : UInt8)
  | addGetPibListEnQuery (pibAttrib : UInt16) (maxRecords : ℕ) (iterator : UInt16)
  | sendMsg (appId : ℤ)
  deriving DecidableEq, Repr

/-- The static variables of `dlmsotcp.c`, the allocated memory, the number of clock
readings so far and the calls that have left the module. -/
structure State where
  xListNodesConnected : Mem ConnectedNode
  iEnableNotifications : Bool
  dlms432Msg : Dl432Buffer
  heap : ℕ → XDlmsMsg
  xFreeMessagesList : XDlmsMsgList
  xPendingCfmMessagesList : XDlmsMsgList
  siDlmsoctpAppId : ℤ
  siDlmsoctpLinkFd : ℤ
  siDlmsoctpDataFd : ℤ
  ticks : ℕ
  trace : List Output

/-- Calls leave the module. -/
def State.emit (s : State) (outs : List Output) : State := { s with trace := s.trace ++ outs }

/-- What `time(NULL)` returns next, as `uint32_t`. -/
def State.time (clock : ℕ → ℕ) (s : State) : UInt32 := UInt32.ofNat (clock s.ticks)

/-- The clock has been read. -/
def State.tick (s : State) : State := { s with ticks := s.ticks + 1 }

/-! ## The message lists -/

/-- `_dlms_msg_list_init`. -/
def dlmsMsgListInit : XDlmsMsgList := ⟨none, none, 0⟩

/-- `_dlms_msg_put`. -/
def dlmsMsgPut (heap : ℕ → XDlmsMsg) (pxList : XDlmsMsgList) (pxBuf : Option ℕ) :
    Option ((ℕ → XDlmsMsg) × XDlmsMsgList) :=
  match pxBuf with
  | none => none
  | some p =>
      let heap := Function.update heap p { heap p with pxLink := none }
      match pxList.pxTail with
      -- the head is written only if the list was empty
      | some t =>
          some (Function.update heap t { heap t with pxLink := some p },
            { pxList with pxTail := some p, usCount := pxList.usCount + 1 })
      | none => some (heap, ⟨some p, some p, pxList.usCount + 1⟩)

/-- `_dlms_msg_get`. -/
def dlmsMsgGet (heap : ℕ → XDlmsMsg) (pxList : XDlmsMsgList) : Option ℕ × XDlmsMsgList :=
  let pxBuf := pxList.pxHead
  let pxList' : XDlmsMsgList :=
    match pxBuf with
    | some p => { pxList with pxHead := (heap p).pxLink, usCount := pxList.usCount - 1 }
    | none => pxList
  (pxBuf, if pxList'.pxHead.isNone then { pxList' with pxTail := none } else pxList')

/-- `_dlms_msg_put(&x_free_messages_list, px_buf)`. -/
def State.putFree (s : State) (pxBuf : Option ℕ) : Option State :=
  (dlmsMsgPut s.heap s.xFreeMessagesList pxBuf).map fun r =>
    { s with heap := r.1, xFreeMessagesList := r.2 }

/-- `_dlms_msg_put(&x_pending_cfm_messages_list, px_buf)`. -/
def State.putPending (s : State) (pxBuf : Option ℕ) : Option State :=
  (dlmsMsgPut s.heap s.xPendingCfmMessagesList pxBuf).map fun r =>
    { s with heap := r.1, xPendingCfmMessagesList := r.2 }

/-- `_dlms_msg_get(&x_free_messages_list)`. -/
def State.getFree (s : State) : Option ℕ × State :=
  let r := dlmsMsgGet s.heap s.xFreeMessagesList
  (r.1, { s with xFreeMessagesList := r.2 })

/-- `_dlms_msg_get(&x_pending_cfm_messages_list)`. -/
def State.getPending (s : State) : Option ℕ × State :=
  let r := dlmsMsgGet s.heap s.xPendingCfmMessagesList
  (r.1, { s with xPendingCfmMessagesList := r.2 })

/-- A buffer is written to. -/
def State.store (s : State) (p : ℕ) (m : XDlmsMsg) : State :=
  { s with heap := Function.update s.heap p m }

/-! ## Auto close -/

/-- `_add_device_auto_close`. -/
def addDeviceAutoClose (usDevice : UInt16) (s : State) : State :=
  let node := s.xListNodesConnected.cell usDevice.toNat
  { s with
    xListNodesConnected := s.xListNodesConnected.store usDevice.toNat
      { node with autocloseEnabled := node.autocloseEnabled + 1 } }

/-- `_remove_device_auto_close`. -/
def removeDeviceAutoClose (usDevice : UInt16) (s : State) : State :=
  let node := s.xListNodesConnected.cell usDevice.toNat
  { s with
    xListNodesConnected := s.xListNodesConnected.store usDevice.toNat
      { node with autocloseEnabled := 0 } }

/-! ## Notifications -/

/-- The memory image of an entry of the table, without padding, low byte first. -/
def ConnectedNode.image (node : ConnectedNode) : List UInt8 :=
  [node.dstAddress.toUInt8, (node.dstAddress >>> 8).toUInt8] ++ node.serialNumber.toList
    ++ [node.lenSerialNumber] ++ node.mac.toList ++ [node.autocloseEnabled]

/-- `n` bytes from the serial number of entry `i` on; a length beyond the array runs
on into the fields and entries behind it, of which ten hold more than 255 bytes. -/
def serialBytes (nodes : Mem ConnectedNode) (i n : ℕ) : List UInt8 :=
  (((nodes.slice i 11).flatMap ConnectedNode.image).drop 2).take n

/-- The NEW_DEVICE notification for entry `i` of the table. -/
def newDeviceNotification (nodes : Mem ConnectedNode) (i : ℕ) : List UInt8 :=
  let node := nodes.cell i
  let len := node.lenSerialNumber
  let pucDlmsMsg : List UInt8 :=
    -- version, custom message BN → DC, association, length, NEW_DEVICE_NOTIFICATION
    [0, 1, 0, 0, 0, 1, 0, 12 + len, 1,
      (node.dstAddress >>> 8).toUInt8, node.dstAddress.toUInt8, 0, 1, len]
    ++ serialBytes nodes i len.toNat ++ node.mac.toList
  pucDlmsMsg.take (20 + len).toNat

/-- `_send_list_432_connections`. -/
def sendList432Connections (s : State) : State :=
  if 0 < s.siDlmsoctpDataFd ∧ s.iEnableNotifications = true then
    forRange 0 maxNumNodesConnected
      (fun i s =>
        if (s.xListNodesConnected.cell i).dstAddress ≠ cl432InvalidAddress then
          s.emit [.write s.siDlmsoctpDataFd (newDeviceNotification s.xListNodesConnected i)]
        else s)
      s
  else s

/-! ## Requests and confirms -/

/-- `_send_queued_432_data`. -/
def sendQueued432Data (clock : ℕ → ℕ) (s : State) : Option State :=
  let now := s.time clock
  match s.xPendingCfmMessagesList.pxHead with
  | none => none
  | some p =>
      let head := { s.heap p with uiTimestamp := now, usRetries := max432SendRetry }
      let msg : Dl432Buffer :=
        ⟨head.usLsap.toUInt8,
          (Mem.init fun _ => 0).storeList 0 (head.data.slice 0 head.usLength.toNat)⟩
      some ((s.store p head).tick.emit
        [.selectApi s.siDlmsoctpAppId,
          .dataRequest ⟨1, head.usLsap.toUInt8, head.usDst, msg.buff.slice 0 head.usLength.toNat,
            head.usLength, 0⟩])

/-- `_dlmsotcp_cl_432_dl_data_cfm_cb`.  None of the arguments is looked at. -/
def dlmsotcpCl432DlDataCfmCb (clock : ℕ → ℕ) (_ucDstLsap _ucSrcLsap : UInt8)
    (_usDstAddress : UInt16) (_ucTxStatus : UInt8) (s : State) : Option State :=
  if s.xPendingCfmMessagesList.usCount ≤ 0 then some s
  else
    match s.getPending with
    | (none, _) => none
    | (some p, s) =>
        -- the buffer goes back to the free list, whatever the confirm says
        let pxMsg := { s.heap p with uiTimestamp := 0, usRetries := 0, pxLink := none }
        ((s.store p pxMsg).putFree (some p)).bind fun s =>
          if 0 < s.xPendingCfmMessagesList.usCount then sendQueued432Data clock s else some s

/-! ## Messages from the concentrator -/

/-- A byte of the packet; reading behind its end has no result. -/
def readByte (buf : List UInt8) (i : ℕ) : Option UInt8 := buf[i]?

/-- `n` bytes of the packet. -/
def readBytes (buf : List UInt8) (n : ℕ) : Option (List UInt8) :=
  if n ≤ buf.length then some (buf.take n) else none

/-- `(buf[i] << 8) + buf[i + 1]`. -/
def readWord (buf : List UInt8) (i : ℕ) : Option UInt16 :=
  (readByte buf i).bind fun hi =>
    (readByte buf (i + 1)).map fun lo => (hi.toUInt16 <<< 8) + lo.toUInt16

/-- The `switch` over the command of a custom message. -/
def customMessage (usDlmsLen : UInt16) (pcDlmsBuf : List UInt8) (s : State) : Option State :=
  (readByte pcDlmsBuf 0).bind fun cmd =>
    if cmd = 3 then some (sendList432Connections { s with iEnableNotifications := true })
    else if cmd = 4 then
      if usDlmsLen = 3 then
        (readWord pcDlmsBuf 1).map fun deviceId =>
          (removeDeviceAutoClose deviceId s).emit
            [.selectApi s.siDlmsoctpAppId, .releaseRequest deviceId]
      else some s
    else if cmd = 5 then
      if usDlmsLen = 3 then (readWord pcDlmsBuf 1).map fun deviceId => addDeviceAutoClose deviceId s
      else some s
    else if cmd = 6 then
      if usDlmsLen = 3 then
        (readWord pcDlmsBuf 1).map fun deviceId => removeDeviceAutoClose deviceId s
      else some s
    else some s

/-- The text printed when no buffer is free. -/
def noMoreBuffersText : String :=
  "DLMSoTCP:  ERROR, No more free message buffers %d-%d!!!!!\n"
@[inherit_doc noMoreBuffersText] def discardText : String :=
  "DLMSoTCP:  Discard message. This should never happen!!!!!\n"
/-- The text printed when a confirm is 40 seconds late. -/
def timeoutText : String :=
  "DLMSoTCP:  ERROR, QUEUE CONFRIM TIMEOUT  Time= %d, Queued= %d!!!!!\n"
/-- The text printed for a version other than 1. -/
def badVersionText : String := "DLMSoTCP: DLMSoTCP Bad version\n"

/-- The data of the message in `dlms_432_msg` is filled in the free buffer `p`. -/
def fillMessage (clock : ℕ → ℕ) (usDest usDlmsLen : UInt16) (p : ℕ) (s : State) : State :=
  let pxMsg : XDlmsMsg :=
    { s.heap p with
      usDst := usDest
      usLsap := s.dlms432Msg.lsap.toUInt16
      usLength := usDlmsLen
      data := (s.heap p).data.storeList 0 (s.dlms432Msg.buff.slice 0 usDlmsLen.toNat)
      uiTimestamp := s.time clock
      usRetries := 0 }
  (s.store p pxMsg).tick

/-- The message in `dlms_432_msg` is requested if no other one waits for its confirm. -/
def sendAtOnce (usDest usDlmsLen : UInt16) (s : State) : State :=
  if s.xPendingCfmMessagesList.usCount = 0 then
    s.emit [.selectApi s.siDlmsoctpAppId,
      .dataRequest ⟨1, s.dlms432Msg.lsap, usDest, s.dlms432Msg.buff.slice 0 usDlmsLen.toNat,
        usDlmsLen, 0⟩]
  else s

/-- A data message is copied to `dlms_432_msg`, from there to a free buffer, and put to
the pending list. -/
def queueMessage (clock : ℕ → ℕ) (usSource usDest usDlmsLen : UInt16) (pcDlmsBuf : List UInt8)
    (s : State) : Option State :=
  (readBytes pcDlmsBuf usDlmsLen.toNat).bind fun bytes =>
    let dlms432Msg : Dl432Buffer :=
      ⟨(usSource &&& 0xff).toUInt8, s.dlms432Msg.buff.storeList 0 bytes⟩
    match State.getFree { s with dlms432Msg := dlms432Msg } with
    | (some p, s) =>
        (sendAtOnce usDest usDlmsLen (fillMessage clock usDest usDlmsLen p s)).putPending (some p)
    | (none, s) =>
        -- the NULL pointer is put back
        (s.putFree none).map fun s =>
          s.emit [.printf noMoreBuffersText
              [s.xFreeMessagesList.usCount.toNat, s.xPendingCfmMessagesList.usCount.toNat],
            .printf discardText []]

/-- The check of the pending queue for an old message. -/
def checkPendingQueue (clock : ℕ → ℕ) (s : State) : Option State :=
  if 1 < s.xPendingCfmMessagesList.usCount then
    match s.xPendingCfmMessagesList.pxHead with
    | none => none
    | some head =>
        let uiNow := s.time clock
        let uiTimestamp := (s.heap head).uiTimestamp
        -- a difference of unsigned numbers: a clock set back looks like a late confirm
        if 40 < uiNow - uiTimestamp then
          let got := s.tick.getPending
          (got.2.putFree got.1).bind fun s =>
            sendQueued432Data clock (s.emit [.printf timeoutText
              [(uiNow - uiTimestamp).toNat, s.xPendingCfmMessagesList.usCount.toNat]])
        else some s.tick
  else some s

/-- What is done with one message. -/
def rxMessage (clock : ℕ → ℕ) (usSource usDest usDlmsLen : UInt16) (pcDlmsBuf : List UInt8)
    (s : State) : Option State :=
  if usSource = 1 ∧ usDest = 0 ∧ 1 ≤ usDlmsLen then customMessage usDlmsLen pcDlmsBuf s
  else (queueMessage clock usSource usDest usDlmsLen pcDlmsBuf s).bind (checkPendingQueue clock)

/-- One round from the label `__dlmsMsg`; the second component is what is left of the
packet when the round ends in the `goto`. -/
def rxRound (clock : ℕ → ℕ) (buf : List UInt8) (s : State) :
    Option (State × Option (List UInt8)) :=
  if buf.length < 8 then some (s, none)
  else
    (readWord buf 0).bind fun usVersion =>
    (readWord buf 2).bind fun usSource =>
    (readWord buf 4).bind fun usDest =>
    (readWord buf 6).bind fun usDlmsLen =>
      if usVersion ≠ 0x1 then some (s.emit [.printf badVersionText []], none)
      else if buf.length < usDlmsLen.toNat + 8 then some (s, none)
      -- a message that is too long ends the packet, what follows it included
      else if maxLength432Data ≤ usDlmsLen.toNat then some (s, none)
      else if buf.length < usDlmsLen.toNat then some (s, none)
      else
        (rxMessage clock usSource usDest usDlmsLen (buf.drop 8) s).map fun s' =>
          let buflen := buf.length - 8 - usDlmsLen.toNat
          if buflen ≤ 0 then (s', none) else (s', some (buf.drop (8 + usDlmsLen.toNat)))

/-- The rounds of `dlmsotcp_RxProcess`. -/
def rxRounds (clock : ℕ → ℕ) : ℕ → List UInt8 → State → Option State
  | 0, _, _ => none
  | fuel + 1, buf, s =>
      (rxRound clock buf s).bind fun r =>
        match r.2 with
        | none => some r.1
        | some rest => rxRounds clock fuel rest r.1

/-- `dlmsotcp_RxProcess` of the `buflen` bytes `buf`.  Every round but the last uses up
eight bytes, so there are fewer rounds than bytes. -/
def dlmsotcpRxProcess (clock : ℕ → ℕ) (buf : List UInt8) (s : State) : Option State :=
  rxRounds clock (buf.length + 1) buf s

/-! ## Initialization -/

/-- The static variables before `dlmsotcp_init`, with anything in the memory that is
going to be allocated and behind the node table. -/
def State.static (memory : ℕ → XDlmsMsg) (behind : ℕ → ConnectedNode) : State where
  xListNodesConnected := Mem.init fun i =>
    if i < maxNumNodesConnected then ⟨0, Vector.replicate _ 0, 0, Vector.replicate _ 0, 0⟩
    else behind i
  iEnableNotifications := false
  dlms432Msg := ⟨0, Mem.init fun _ => 0⟩
  heap := memory
  xFreeMessagesList := dlmsMsgListInit
  xPendingCfmMessagesList := dlmsMsgListInit
  siDlmsoctpAppId := 0
  siDlmsoctpLinkFd := 0
  siDlmsoctpDataFd := 0
  ticks := 0
  trace := []

/-- The loop that allocates the buffers from `i` on. -/
def reserveMemory : ℕ → ℕ → State → Option State
  | 0, _, s => some s
  | n + 1, i, s =>
      (s.putFree (some i)).bind (reserveMemory n (i + 1))

/-- `dlmsotcp_init`. -/
def dlmsotcpInit (appId : ℤ) (s : State) : Option State :=
  let s := { s with siDlmsoctpAppId := appId, siDlmsoctpDataFd := -1, siDlmsoctpLinkFd := -1 }
  let nodes := forRange 0 maxNumNodesConnected
    (fun i (t : Mem ConnectedNode) =>
      t.store i { t.cell i with dstAddress := cl432InvalidAddress, autocloseEnabled := 0 })
    s.xListNodesConnected
  let s :=
    { s with
      xListNodesConnected := nodes
      xFreeMessagesList := dlmsMsgListInit
      xPendingCfmMessagesList := dlmsMsgListInit }
  (reserveMemory maxMsgList 0 s).map fun s =>
    s.emit [.setCl432Callbacks appId, .setRspCallback appId, .newMsg mngpPrimeEnPibqry,
      .addGetPibListEnQuery pibAtml432NodeList mngpPrimeEnhancedListMaxRecords 0, .sendMsg appId]

/-! ## The system -/

/-- What happens to the module: a packet that `dlmsotcp_callback` has read from the
descriptor `fd`, or a data confirm. -/
inductive Event where
  | packet (fd : ℤ) (buf : List UInt8)
  | confirm (ucDstLsap ucSrcLsap : UInt8) (usDstAddress : UInt16) (ucTxStatus : UInt8)
  deriving DecidableEq, Repr

/-- The reaction to an event. -/
def step (clock : ℕ → ℕ) : Event → State → Option State
  | .packet fd buf, s => dlmsotcpRxProcess clock buf { s with siDlmsoctpDataFd := fd }
  | .confirm ucDstLsap ucSrcLsap usDstAddress ucTxStatus, s =>
      dlmsotcpCl432DlDataCfmCb clock ucDstLsap ucSrcLsap usDstAddress ucTxStatus s

end Dlmsotcp
