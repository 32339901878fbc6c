/-
# Sockets of the applications

Embeds the tables of `socket_handler.c`, the main loop of `main.c` and the callbacks of the
applications, as far as descriptors are concerned: which connections an application has,
and the descriptors that three modules remember in order to write to them later.

What the operating system answers in one round of the main loop is an input.  What the
bytes that are read lead to is recorded, and modelled elsewhere.
-/
import PlcManager.SlotTable

namespace SocketHandler

/-- `SOCKET_MAX_NUM`. -/
def socketMaxNum : ℕ := 16
/-- `SOCKET_MAX_CONN`. -/
def socketMaxConn : ℕ := 5
/-- `SOCKET_ERROR`. -/
def socketError : ℤ := -1
/-- `SOCKET_UNUSED`. -/
def socketUnused : ℤ := -1

/-- `PLC_MNG_SNIFFER_APP_ID`. -/
def snifferAppId : ℕ := 0
/-- `PLC_MNG_PRIMEMNG_APP_ID`. -/
def primemngAppId : ℕ := 1
/-- `PLC_MNG_CLI_APP_ID`. -/
def cliAppId : ℕ := 2
/-- `PLC_MNG_DLMSoTCP_APP_ID`. -/
def dlmsotcpAppId : ℕ := 3
/-- `PLC_MNG_DLMS_APP_ID`. -/
def dlmsAppId : ℕ := 4
/-- `PLC_MNG_USI_APP_ID`. -/
def usiAppId : ℕ := 6

/-! ## State -/

/-- `x_socket_t`: the socket an application listens on, and its connections. -/
structure XSocket where
  iSocketFd : ℤ
  iConnFd : List ℤ
  size : iConnFd.length = socketMaxConn

/-- What the applications do besides. -/
inductive Output where
  | close (fd : ℤ)
  | write (fd : ℤ) (bytes : List UInt8)
  | cliRcvCmd (bytes : List UInt8)
  | dlmsotcpRxProcess (bytes : List UInt8)
  | dlmsotcpClose432
  | dlmsEmuRcvCmd (bytes : List UInt8)
  | usiHostProcess
  | cliProcess
  deriving DecidableEq, Repr

/-- The tables of the socket handler and the descriptors that other modules remember. -/
structure State where
  sxSockets : ℕ → XSocket
  sxSocketListeners : Finset ℤ
  siMaxListener : ℤ
  siSerialPortFd : ℤ
  fdSocketLoopback : ℤ
  siCliDataFd : ℤ
  siDlmsoctpDataFd : ℤ
  trace : List Output

/-- `socket_event_type_t`. -/
inductive SocketEventType where
  | link
  | data
  deriving DecidableEq, Repr

/-- `socket_ev_info_t`. -/
structure SocketEvInfo where
  iAppId : ℕ
  iSocketFd : ℤ
  iEventType : SocketEventType
  deriving DecidableEq, Repr

/-- What the operating system answers in one round: the descriptors that `select` finds
ready, or that it fails; the descriptor that `accept` returns; the bytes that `read`
returns, none when it returns zero or fails; the bytes that can still be read. -/
structure Round where
  ready : Option (List ℤ)
  accepted : ℤ
  received : List UInt8
  available : ℤ
  deriving DecidableEq, Repr

def State.emit (s : State) (outs : List Output) : State := { s with trace := s.trace ++ outs }

/-- The connections of an application. -/
def State.conns (s : State) (appId : ℕ) : List ℤ := (s.sxSockets appId).iConnFd

/-! ## Connections -/

/-- A value is put in the first slot that is unused. -/
def XSocket.attach (x : XSocket) (fd : ℤ) : XSocket :=
  { x with
    iConnFd := SlotTable.put socketUnused fd x.iConnFd
    size := SlotTable.length_put.trans x.size }

/-- The first slot with the value becomes unused. -/
def XSocket.dettach (x : XSocket) (fd : ℤ) : XSocket :=
  { x with
    iConnFd := SlotTable.take socketUnused fd x.iConnFd
    size := SlotTable.length_take.trans x.size }

/-- `socket_attach_connection`. -/
def socketAttachConnection (appId : ℕ) (fd : ℤ) (s : State) : Bool × State :=
  if socketUnused ∈ s.conns appId then
    (true,
      { s with
        sxSockets := Function.update s.sxSockets appId ((s.sxSockets appId).attach fd)
        sxSocketListeners := insert fd s.sxSocketListeners
        siMaxListener := if s.siMaxListener < fd then fd else s.siMaxListener })
  else (false, s)

/-- `socket_dettach_connection`. -/
def socketDettachConnection (appId : ℕ) (fd : ℤ) (s : State) : State :=
  if fd ∈ s.conns appId then
    { s.emit [.close fd] with
      sxSockets := Function.update s.sxSockets appId ((s.sxSockets appId).dettach fd)
      sxSocketListeners := s.sxSocketListeners.erase fd
      siMaxListener := if fd = s.siMaxListener then s.siMaxListener - 1 else s.siMaxListener }
  else s

/-- `socket_check_connection`. -/
def socketCheckConnection (available : ℤ) (appId : ℕ) (fd : ℤ) (s : State) : State :=
  if available = 0 then socketDettachConnection appId fd s else s

/-- `socket_accept_conn`. -/
def socketAcceptConn (accepted : ℤ) (evInfo : SocketEvInfo) (s : State) : State :=
  match socketAttachConnection evInfo.iAppId accepted s with
  | (true, s) => s
  | (false, s) => s.emit [.close accepted]

/-- The number that `socket_get_connections_fds` returns. -/
def socketGetConnectionsFds (appId : ℕ) (s : State) : ℕ := (s.conns appId).countP (0 < ·)

/-- `usi_host_loopback`. -/
def usiHostLoopback (fdRedirect : ℤ) (s : State) : State :=
  { s with fdSocketLoopback := fdRedirect }

/-! ## Applications -/

/-- `sniffer_callback`. -/
def snifferCallback (r : Round) (evInfo : SocketEvInfo) (s : State) : State :=
  if 0 ≤ evInfo.iSocketFd then
    match evInfo.iEventType with
    | .link => socketAcceptConn r.accepted evInfo s
    | .data =>
        if r.received ≠ [] then
          if 0 < s.siSerialPortFd then s.emit [.write s.siSerialPortFd r.received] else s
        else socketCheckConnection r.available evInfo.iAppId evInfo.iSocketFd s
  else s

/-- The second connection of an application is closed if there is more than one. -/
def closeSecond (appId : ℕ) (s : State) : State :=
  if 1 < socketGetConnectionsFds appId s then
    match (s.conns appId)[1]? with
    | some fd => socketDettachConnection appId fd s
    | none => s
  else s

/-- `prime_manager_callback`. -/
def primeManagerCallback (r : Round) (evInfo : SocketEvInfo) (s : State) : State :=
  if 0 ≤ evInfo.iSocketFd then
    match evInfo.iEventType with
    | .link => closeSecond primemngAppId (socketAcceptConn r.accepted evInfo s)
    | .data =>
        if r.received ≠ [] then
          (usiHostLoopback evInfo.iSocketFd s).emit [.write s.siSerialPortFd r.received]
        else socketCheckConnection r.available evInfo.iAppId evInfo.iSocketFd s
  else s

/-- `cli_callback`. -/
def cliCallback (r : Round) (evInfo : SocketEvInfo) (s : State) : State :=
  if 0 ≤ evInfo.iSocketFd then
    match evInfo.iEventType with
    | .link => socketAcceptConn r.accepted evInfo s
    | .data =>
        let s := { s with siCliDataFd := evInfo.iSocketFd }
        if r.received ≠ [] then s.emit [.cliRcvCmd r.received]
        else socketCheckConnection r.available evInfo.iAppId evInfo.iSocketFd s
  else s

/-- The last part of `dlmsotcp_callback`: no connection is left. -/
def closeData (s : State) : State :=
  if socketGetConnectionsFds dlmsotcpAppId s = 0 then
    { s with siDlmsoctpDataFd := -1 }.emit [.dlmsotcpClose432]
  else s

/-- `dlmsotcp_callback`. -/
def dlmsotcpCallback (r : Round) (evInfo : SocketEvInfo) (s : State) : State :=
  if 0 ≤ evInfo.iSocketFd then
    match evInfo.iEventType with
    | .link => closeSecond dlmsotcpAppId (socketAcceptConn r.accepted evInfo s)
    | .data =>
        let s := { s with siDlmsoctpDataFd := evInfo.iSocketFd }
        if r.received ≠ [] then s.emit [.dlmsotcpRxProcess r.received]
        else closeData (socketCheckConnection r.available evInfo.iAppId evInfo.iSocketFd s)
  else s

/-- `dlms_emu_callback`. -/
def dlmsEmuCallback (r : Round) (evInfo : SocketEvInfo) (s : State) : State :=
  if 0 ≤ evInfo.iSocketFd then
    match evInfo.iEventType with
    | .link => socketAcceptConn r.accepted evInfo s
    | .data =>
        if r.received ≠ [] then s.emit [.dlmsEmuRcvCmd r.received]
        else socketCheckConnection r.available evInfo.iAppId evInfo.iSocketFd s
  else s

/-- `app_cbs`; an application without a callback is passed over. -/
def appCbs (r : Round) (evInfo : SocketEvInfo) (s : State) : State :=
  if evInfo.iAppId = snifferAppId then snifferCallback r evInfo s
  else if evInfo.iAppId = primemngAppId then primeManagerCallback r evInfo s
  else if evInfo.iAppId = cliAppId then cliCallback r evInfo s
  else if evInfo.iAppId = dlmsotcpAppId then dlmsotcpCallback r evInfo s
  else if evInfo.iAppId = dlmsAppId then dlmsEmuCallback r evInfo s
  else s

/-! ## The main loop -/

/-- What `socket_select` returns. -/
inductive SelectRes where
  | success (evInfo : SocketEvInfo)
  | timeout
  | error
  deriving DecidableEq, Repr

/-- The event for a descriptor that is ready, if it is one of the application's. -/
def eventOf (s : State) (fd : ℤ) (i : ℕ) : Option SocketEvInfo :=
  if (s.sxSockets i).iSocketFd = fd then some ⟨i, fd, .link⟩
  else if fd ∈ s.conns i then some ⟨i, fd, .data⟩
  else none

/-- The first descriptor, from 0 on, that is ready and listened to. -/
def firstReady (s : State) (ready : List ℤ) : Option ℤ :=
  ((List.range (s.siMaxListener + 1).toNat).map Int.ofNat).find? fun fd =>
    decide (fd ∈ ready ∧ fd ∈ s.sxSocketListeners)

/-- `socket_select`. -/
def socketSelect (ready : Option (List ℤ)) (s : State) : SelectRes :=
  match ready with
  | none => .error
  | some [] => .timeout
  | some ready =>
      match firstReady s ready with
      | none => .error
      | some iFdReady =>
          match (List.range socketMaxNum).findSome? (eventOf s iFdReady) with
          | some evInfo => .success evInfo
          | none => .error

/-- One round of the loop in `main`. -/
def mainLoop (r : Round) (s : State) : State :=
  match socketSelect r.ready s with
  | .timeout => s.emit [.usiHostProcess, .cliProcess]
  | .error => s
  | .success evInfo =>
      if evInfo.iAppId = usiAppId then s.emit [.usiHostProcess, .cliProcess]
      else appCbs r evInfo s

/-! ## The start -/

/-- An application that has no sockets. -/
def XSocket.empty : XSocket :=
  ⟨socketError, List.replicate socketMaxConn socketUnused, List.length_replicate⟩

/-- `socket_create_server`, with the descriptor that `socket` returns. -/
def socketCreateServer (appId : ℕ) (iListenSd : ℤ) (s : State) : State :=
  { s with
    sxSockets := Function.update s.sxSockets appId { s.sxSockets appId with iSocketFd := iListenSd }
    sxSocketListeners := insert iListenSd s.sxSocketListeners
    siMaxListener := if s.siMaxListener < iListenSd then iListenSd else s.siMaxListener }

/-- After `socket_init`, with the static variables as they are at the start. -/
def socketInit : State where
  sxSockets := fun _ => .empty
  sxSocketListeners := ∅
  siMaxListener := 0
  siSerialPortFd := 0
  fdSocketLoopback := 0
  siCliDataFd := 0
  siDlmsoctpDataFd := 0
  trace := []

/-- What `main` does before the loop: a server for each of the first five applications, the
serial port, and the initialisation of the applications. -/
def started (listenSds : ℕ → ℤ) (usiFd : ℤ) : State :=
  let s := (List.range 5).foldl (fun s i => socketCreateServer i (listenSds i) s) socketInit
  let s := (socketAttachConnection usiAppId usiFd s).2
  { s with
    siSerialPortFd := usiFd
    fdSocketLoopback := -1
    siDlmsoctpDataFd := -1 }

end SocketHandler
