/-
# The DLMS gateway

The DLMS module as a layer above the serial line.  Below it stand the PRIME API and the
management layer: their callbacks are called when a message is delivered, the DLMS module
answers with requests, and each request becomes a command for `hal_usi_send_cmd`.

The other applications use the same three modules.  What they do, in answer to a message too,
is theirs to choose: it happens as an act of its own, except for the calls of the management
layer that a response callback of theirs makes.
-/
import PlcManager.DlmsotcpPaging
import PlcManager.DlmsotcpSendable
import PlcManager.PrimeApiPort
import PlcManager.SocketHandler
import PlcManager.UsiHost

namespace Gateway

open Dlmsotcp (ServerEvent serverStep appIdByte)
open SocketHandler (dlmsotcpAppId)
open Usi (Happening Upper XUsiCmd)

/-! ## The modules below -/

/-- The PRIME API, the management layer, and `uc_serial_buf` with the descriptor of
`prime_api_msg`. -/
structure Board where
  api : PrimeApi.State
  mng : MngLayer.State
  port : PrimeApi.Port

/-- A request of the PRIME API. -/
def Board.request (r : PrimeApi.ApiRequest) (b : Board) : Board × List XUsiCmd :=
  let q := r.run b.port
  ({ b with port := q.1 }, [q.2])

/-- The command that the management layer hands over. -/
def sendCmd? : MngLayer.Output → Option XUsiCmd
  | .sendCmd fd ucPType pucBuf =>
      if h : pucBuf.length < 65536 then some ⟨fd, ucPType, pucBuf, h⟩ else none
  | .callback .. => none

/-- The commands of the management layer between two of its states. -/
def mngCmds (m m' : MngLayer.State) : List XUsiCmd :=
  (m'.trace.drop m.trace.length).filterMap sendCmd?

/-- Calls of the management layer. -/
def Board.manage (calls : List MngLayer.Call) (b : Board) : Board × List XUsiCmd :=
  let mng := MngLayer.runCalls calls b.mng
  ({ b with mng := mng }, mngCmds b.mng mng)

/-- The callbacks of the 4-32 layer that `dlmsotcp_init` sets. -/
def clCallbacks : PrimeApi.Cb → Bool
  | .cl432DlDataCfm | .cl432DlDataInd | .cl432DlLeaveInd | .cl432DlJoinInd => true
  | _ => false

/-- A call that leaves the DLMS module. -/
def Board.perform (b : Board) : Dlmsotcp.Output → Board × List XUsiCmd
  | .selectApi appId =>
      ({ b with api := PrimeApi.ifacePrimeSelectApi (appIdByte appId) b.api }, [])
  | .dataRequest r =>
      let pucMsg := r.write b.port.ucSerialBuf
      ({ b with port := ⟨pucMsg.mem, -1⟩ }, [PrimeApi.primeApiMsg pucMsg])
  | .releaseRequest usDstAddress => b.request (.cl432ReleaseRequest usDstAddress)
  | .setCl432Callbacks appId =>
      ({ b with api := PrimeApi.primeCl432SetCallbacks (appIdByte appId) clCallbacks b.api }, [])
  | out => b.manage out.mngCall.toList

/-- One call after the other. -/
def Board.performAll : List Dlmsotcp.Output → Board → Board × List XUsiCmd
  | [], b => (b, [])
  | out :: outs, b =>
      let r := b.perform out
      let t := performAll outs r.1
      (t.1, r.2 ++ t.2)

/-- The modules below after their initialization. -/
def board : Board :=
  ⟨PrimeApi.ifacePrimeApiInit, MngLayer.mngLayInit (fun _ => 0) fun _ => false,
    PrimeApi.Port.started fun _ => 0⟩

/-! ## The gateway -/

/-- The DLMS module, what it stands on, and the number of messages that have come. -/
structure State where
  server : Dlmsotcp.Server
  board : Board
  count : ℕ

/-- `dlmsotcp_init`, whatever the modules below have been used for before. -/
def started (memory : ℕ → Dlmsotcp.XDlmsMsg) (behind : ℕ → Dlmsotcp.ConnectedNode) (b : Board) :
    State × List XUsiCmd :=
  let server := Dlmsotcp.serverStarted dlmsotcpAppId memory behind
  let r := b.performAll server.core.trace
  (⟨server, r.1, 0⟩, r.2)

/-- An event of the DLMS module, with the calls that leave it. -/
def serve (clock : ℕ → ℕ) (e : ServerEvent) (g : State) : Option (State × List XUsiCmd) :=
  (serverStep clock e g.server).map fun w =>
    let r := g.board.performAll (w.core.trace.drop g.server.core.trace.length)
    ({ g with server := w, board := r.1 }, r.2)

/-- One event after the other. -/
def serveAll (clock : ℕ → ℕ) : List ServerEvent → State → Option (State × List XUsiCmd)
  | [], g => some (g, [])
  | e :: es, g =>
      (serve clock e g).bind fun r => (serveAll clock es r.1).map fun t => (t.1, r.2 ++ t.2)

/-- The call of a callback of the DLMS module. -/
def serverEvent : PrimeApi.Cb → List PrimeApi.Arg → Option ServerEvent
  | .cl432DlDataCfm, [.u8 ucDstLsap, .u8 ucSrcLsap, .u16 usDstAddress, .u8 ucTxStatus] =>
      some (.core (.confirm ucDstLsap ucSrcLsap usDstAddress ucTxStatus))
  | .cl432DlDataInd, [.u8 ucDstLsap, .u8 ucSrcLsap, .u16 usDstAddress, .u16 srcAddress,
      .bytes pucData, .u16 usLsduLen, .u8 ucLinkClass] =>
      some (.dataInd ucDstLsap ucSrcLsap usDstAddress srcAddress (messageOf pucData) usLsduLen
        ucLinkClass)
  | .cl432DlLeaveInd, [.u16 usDstAddress] => some (.leaveInd usDstAddress)
  | .cl432DlJoinInd, [.bytes pucDeviceId, .u8 ucDeviceIdLen, .u16 usDstAddress, .bytes pucMac] =>
      some (.joinInd (messageOf pucDeviceId) ucDeviceIdLen usDstAddress (messageOf pucMac))
  | _, _ => none

/-- `ifacePrime_api_ReceivedCmd` calls the callbacks. -/
def apiReceived (clock : ℕ → ℕ) (ptrMsg : Mem UInt8) (len : UInt16) (g : State) :
    Option (State × List XUsiCmd) :=
  let api := (PrimeApi.ifacePrimeApiReceivedCmd ptrMsg len g.board.api).2
  let calls := (api.calls.drop g.board.api.calls.length).filter fun c => c.appId = dlmsotcpAppId
  serveAll clock (calls.filterMap fun c => serverEvent c.cb c.args)
    { g with board := { g.board with api := api } }

/-- The response callback of the DLMS module is the one that is called. -/
def Answers (m : MngLayer.State) : Prop :=
  MngLayer.Finds m ∧ m.sucMngpIdReq.toNat = dlmsotcpAppId

instance (m : MngLayer.State) : Decidable (Answers m) := inferInstanceAs (Decidable (_ ∧ _))

/-- `mngLay_receivedCmd` calls the callback; `nested` are the calls that it makes if it is that
of another application. -/
def mngReceived (ptrMsg : Mem UInt8) (len : UInt16) (bytes : List UInt8)
    (nested : List MngLayer.Call) (g : State) : State × List XUsiCmd :=
  let server :=
    if Answers g.board.mng then Dlmsotcp.dlmsotcpMngpRspCb ptrMsg len g.server else g.server
  let calls :=
    if Answers g.board.mng then
      (server.mngCalls.drop g.server.mngCalls.length).map Dlmsotcp.MngCall.call
    else nested
  let mng := MngLayer.mngLayReceivedCmd bytes calls g.board.mng
  ({ g with server := server, board := { g.board with mng := mng } }, mngCmds g.board.mng mng)

/-- A message is delivered.  Message `n` lies in front of the bytes `memory n`. -/
def received (clock : ℕ → ℕ) (memory : ℕ → ℕ → UInt8) (nested : ℕ → List MngLayer.Call)
    (msg : ℕ × List UInt8) (g : State) : Option (State × List XUsiCmd) :=
  let ptrMsg := (Mem.init (memory g.count)).storeList 0 msg.2
  let len := UInt16.ofNat msg.2.length
  let g' := { g with count := g.count + 1 }
  if msg.1 = Usi.usiProtId2idx Usi.protocolPrimeApi then apiReceived clock ptrMsg len g'
  else if msg.1 = Usi.usiProtId2idx Usi.protocolMngpPrime then
    some (mngReceived ptrMsg len msg.2 (nested g.count) g')
  else some (g', [])

/-- What happens without a message: `dlmsotcp_callback` has read a packet or has closed the
last connection, or another application selects itself, uses the PRIME API or the management
layer, or has a command of its own.  The bytes that `prime_manager_callback` and
`sniffer_callback` pass on to the serial port as they are, without a command, are no acts. -/
inductive Act where
  | packet (fd : ℤ) (buf : List UInt8)
  | closed
  | select (primeAppId : UInt8)
  | request (r : PrimeApi.ApiRequest)
  | manage (c : MngLayer.Call)
  | send (cmd : XUsiCmd)

/-- It happens. -/
def doing (clock : ℕ → ℕ) (a : Act) (g : State) : Option (State × List XUsiCmd) :=
  match a with
  | .packet fd buf => serve clock (.core (.packet fd buf)) g
  | .closed => serve clock .closed g
  | .select primeAppId =>
      some ({ g with
        board := { g.board with api := PrimeApi.ifacePrimeSelectApi primeAppId g.board.api } }, [])
  | .request r => some ({ g with board := (g.board.request r).1 }, (g.board.request r).2)
  | .manage c => some ({ g with board := (g.board.manage [c]).1 }, (g.board.manage [c]).2)
  | .send cmd => some (g, [cmd])

/-- Once the program has followed a NULL pointer, nothing happens any more. -/
def orStopped (r : Option (State × List XUsiCmd)) : Option State × List XUsiCmd :=
  (r.map Prod.fst, (r.map Prod.snd).getD [])

/-- The gateway, and all that uses what it uses, above the line. -/
def gateway (clock : ℕ → ℕ) (memory : ℕ → ℕ → UInt8) (nested : ℕ → List MngLayer.Call) :
    Upper Act (Option State) where
  deliver msg u := orStopped (u.bind (received clock memory nested msg))
  act a u := orStopped (u.bind (doing clock a))

/-- A line that delivers the messages for the PRIME API. -/
def apiReceiver : Usi.State :=
  Usi.opened 3 (fun _ => 0) (fun _ => 0) [(Usi.protocolPrimeApi, some fun _ => 0)]

theorem protocolPrimeApi_mem : Usi.protocolPrimeApi ∈ Usi.receivedProtocols := by decide

/-- A stopped program does not come back. -/
theorem run_none {clock : ℕ → ℕ} {memory : ℕ → ℕ → UInt8} {nested : ℕ → List MngLayer.Call}
    {hs : List (Happening Act)} : ((gateway clock memory nested).run hs none).1 = none := by
  induction hs with
  | nil => rfl
  | cons h hs ih => cases h <;> exact ih

end Gateway
