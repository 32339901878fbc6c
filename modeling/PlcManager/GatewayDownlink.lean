/-
# From the concentrator to the line

What becomes of the data messages in the packets of the concentrator.  On the serial line they
are the data requests for association 1; the other application that requests data, the
emulator, asks for association 0.  As long as what is read fits the receive buffer, and whatever
the base node sends, whichever commands others send and whichever application is selected when a
confirm comes: the requests for association 1 are the messages of the packets, in order and each
once, up to those that still wait.
-/
import PlcManager.DlmsotcpOutputs
import PlcManager.Gateway
import PlcManager.MngLayerMessages
import PlcManager.PrimeApiCommands
import PlcManager.UsiBufferBound

namespace Gateway

open Dlmsotcp (DataRequest FitsLine Output Message Server ServerEvent serverStep appIdByte)
open SocketHandler (dlmsotcpAppId)
open Usi (XUsiCmd Upper Happening HostEvent wireTo writtenTo)

/-! ## Requests for association 1 -/

/-- A data request for association 1 on the serial line. -/
def IsDlms (cmd : XUsiCmd) : Prop :=
  cmd.fd < 0 ∧ cmd.ucPType = Usi.protocolPrimeApi ∧ cmd.pucBuf.take 2 = [0x37, 1]

instance (cmd : XUsiCmd) : Decidable (IsDlms cmd) := inferInstanceAs (Decidable (_ ∧ _))

/-- The data requests for association 1 among commands. -/
def dlmsCmds (cmds : List XUsiCmd) : List XUsiCmd := cmds.filter fun cmd => IsDlms cmd

/-- What they consist of. -/
def dlmsData (cmds : List XUsiCmd) : List (List UInt8) := (dlmsCmds cmds).map XUsiCmd.pucBuf

/-- What a request is, but one for association 1. -/
def ApartRequest (r : PrimeApi.ApiRequest) : Prop :=
  ∀ a : PrimeApi.Primitive.cl432DlDataRequest.Args,
    r = .primitive .cl432DlDataRequest a → a.1 ≠ 1

/-- A call of the management layer begins no message of the type of the PRIME API. -/
def ApartCall (c : MngLayer.Call) : Prop := ∀ cmd, c = .newMsg cmd → cmd ≠ Usi.protocolPrimeApi

/-- What the other applications do: they request no data for association 1. -/
def Act.Apart : Act → Prop
  | .packet .. | .closed | .select _ => True
  | .request r => ApartRequest r
  | .manage c => ApartCall c
  | .send cmd => ¬ IsDlms cmd

section Commands

variable {cmd : XUsiCmd} {cmds cmds' : List XUsiCmd} {r : PrimeApi.ApiRequest}

theorem dlmsData_append : dlmsData (cmds ++ cmds') = dlmsData cmds ++ dlmsData cmds' := by
  rw [dlmsData, dlmsCmds, List.filter_append, List.map_append]
  rfl

theorem dlmsData_eq_nil (h : ∀ cmd ∈ cmds, ¬ IsDlms cmd) : dlmsData cmds = [] := by
  have hnone : dlmsCmds cmds = [] := by
    apply List.filter_eq_nil_iff.mpr
    intro cmd hcmd
    rw [decide_eq_true_eq]
    exact h cmd hcmd
  rw [dlmsData, hnone]
  rfl

theorem dlmsData_singleton (h : ¬ IsDlms cmd) : dlmsData [cmd] = [] := by
  apply dlmsData_eq_nil
  intro c hc
  rwa [List.mem_singleton.mp hc]

/-- Only the data request has the command of a data request. -/
theorem exists_of_cmd (h : r.cmd = 0x37) :
    ∃ a, r = .primitive PrimeApi.Primitive.cl432DlDataRequest a := by
  cases r with
  | primitive p a =>
      obtain rfl : p = .cl432DlDataRequest := PrimeApi.Primitive.cmd_injective h
      exact ⟨a, rfl⟩
  | _ => exact absurd h (by simp only [PrimeApi.ApiRequest.cmd]; decide)

/-- The command and the association that a data request begins with. -/
theorem take_dataRequest (a : PrimeApi.Primitive.cl432DlDataRequest.Args) (s : PrimeApi.Port) :
    ((PrimeApi.ApiRequest.primitive .cl432DlDataRequest a).run s).2.pucBuf.take 2
      = [0x37, a.1].take ((PrimeApi.ApiRequest.primitive .cl432DlDataRequest a).run s).2.usLen := by
  have h := (((Pen.start s.ucSerialBuf).byte 0x37).byte a.1).begins_text
  rw [Pen.text_byte, Pen.text_byte, Pen.text_start] at h
  have hall : (PrimeApi.Primitive.write (.start s.ucSerialBuf) .cl432DlDataRequest a).Begins
      [0x37, a.1] :=
    (PrimeApi.Serial.begins_block (PrimeApi.Serial.begins_word
      (PrimeApi.Serial.begins_word h.byte _) _)).byte
  have htake := hall.take_slice (n := (UInt16.ofNat
    (PrimeApi.Primitive.write (.start s.ucSerialBuf) .cl432DlDataRequest a).pos).toNat)
  rw [XUsiCmd.usLen]
  show (Mem.slice _ 0 _).take 2 = [0x37, a.1].take (Mem.slice _ 0 _).length
  rw [Mem.length_slice]
  exact htake

/-- The requests of the other applications are none for association 1. -/
theorem not_isDlms_request (hr : ApartRequest r) (s : PrimeApi.Port) : ¬ IsDlms (r.run s).2 := by
  rintro ⟨-, -, htake⟩
  have hcmd : r.cmd = 0x37 := by
    have hone := r.take_run s
    have hhead := congrArg (List.take 1) htake
    rw [List.take_take, show min 1 2 = 1 from rfl, hone] at hhead
    cases hlen : (r.run s).2.pucBuf.length with
    | zero =>
        rw [hlen] at hhead
        cases hhead
    | succ n =>
        rw [hlen] at hhead
        exact (List.cons.inj hhead).1
  obtain ⟨a, rfl⟩ := exists_of_cmd hcmd
  rw [take_dataRequest] at htake
  apply hr a rfl
  rcases hlen : ((PrimeApi.ApiRequest.primitive .cl432DlDataRequest a).run s).2.usLen with
    _ | _ | n
  · rw [hlen] at htake
    cases htake
  · rw [hlen] at htake
    cases htake
  · rw [hlen] at htake
    exact (List.cons.inj (List.cons.inj htake).2).1

end Commands

/-! ## The management layer -/

/-- Between the two states the layer has handed over no message of the type of the PRIME API,
and the one that it is building is not of that type either. -/
structure Apart (m m' : MngLayer.State) : Prop where
  adds : ∃ outs, m'.trace = m.trace ++ outs
    ∧ ∀ out ∈ outs, ∀ cmd ∈ sendCmd? out, cmd.ucPType ≠ Usi.protocolPrimeApi
  type : m'.sxTxMsgUcPType ≠ Usi.protocolPrimeApi

section Management

variable {m m' m'' : MngLayer.State} {c : MngLayer.Call} {calls : List MngLayer.Call}

theorem Apart.of_trace (htrace : m'.trace = m.trace)
    (htype : m'.sxTxMsgUcPType ≠ Usi.protocolPrimeApi) : Apart m m' :=
  ⟨⟨[], by rw [htrace, List.append_nil], List.forall_mem_nil _⟩, htype⟩

theorem Apart.trans (h : Apart m m') (h' : Apart m' m'') : Apart m m'' := by
  obtain ⟨xs, hxs, hx⟩ := h.adds
  obtain ⟨ys, hys, hy⟩ := h'.adds
  refine ⟨⟨xs ++ ys, by rw [hys, hxs, List.append_assoc], ?_⟩, h'.type⟩
  rw [List.forall_mem_append]
  exact ⟨hx, hy⟩

theorem addItem_type (cmd : UInt8) (item : List UInt8) :
    (MngLayer.addItem cmd item m).2.sxTxMsgUcPType = m.sxTxMsgUcPType := by
  unfold MngLayer.addItem
  split_ifs <;> rfl

/-- One call. -/
theorem apart_run (hm : m.sxTxMsgUcPType ≠ Usi.protocolPrimeApi) (hc : ApartCall c) :
    Apart m (c.run m) := by
  have hitem (cmd : UInt8) (item : List UInt8) : Apart m (MngLayer.addItem cmd item m).2 :=
    .of_trace (MngLayer.addItem_trace cmd item m) (by rwa [addItem_type])
  cases c with
  | newMsg cmd => exact .of_trace rfl (hc cmd rfl)
  | addGetPibQuery => exact hitem _ _
  | addSetPib => exact hitem _ _
  | addResetStats => exact hitem _ _
  | addFUMsg => exact hitem _ _
  | addGetPibListEnQuery => exact hitem _ _
  | sendMsg appId status =>
      have hsent := congrArg Prod.snd (MngLayer.mngLaySendMsg_eq appId status m)
      show Apart m (MngLayer.mngLaySendMsg appId status m).2
      rw [hsent]
      refine ⟨⟨_, rfl, ?_⟩, hm⟩
      intro out hout cmd hcmd
      rw [List.mem_singleton.mp hout, sendCmd?] at hcmd
      split_ifs at hcmd with hlen
      · obtain rfl := Option.mem_some.mp hcmd
        exact hm
      · cases hcmd
  | setRspCallback => exact .of_trace rfl hm

theorem apart_runCalls (hm : m.sxTxMsgUcPType ≠ Usi.protocolPrimeApi)
    (hcalls : ∀ c ∈ calls, ApartCall c) : Apart m (MngLayer.runCalls calls m) := by
  induction calls generalizing m with
  | nil => exact .of_trace rfl hm
  | cons c calls ih =>
      rw [List.forall_mem_cons] at hcalls
      have hfirst := apart_run hm hcalls.1
      exact hfirst.trans (ih hfirst.type hcalls.2)

/-- A response. -/
theorem apart_received (hm : m.sxTxMsgUcPType ≠ Usi.protocolPrimeApi)
    (hcalls : ∀ c ∈ calls, ApartCall c) (bytes : List UInt8) :
    Apart m (MngLayer.mngLayReceivedCmd bytes calls m) := by
  unfold MngLayer.mngLayReceivedCmd
  split_ifs
  · have hcallback : Apart m (m.emit [.callback m.sucMngpIdReq bytes]) := by
      refine ⟨⟨_, rfl, ?_⟩, hm⟩
      intro out hout cmd hcmd
      rw [List.mem_singleton.mp hout] at hcmd
      cases hcmd
    have hcalled := hcallback.trans (apart_runCalls hcallback.type hcalls)
    exact ⟨hcalled.adds, hcalled.type⟩
  · exact .of_trace rfl hm

theorem Apart.dlmsData_eq_nil (h : Apart m m') : dlmsData (mngCmds m m') = [] := by
  obtain ⟨outs, htrace, houts⟩ := h.adds
  apply Gateway.dlmsData_eq_nil
  intro cmd hcmd hdlms
  rw [mngCmds, htrace, List.drop_left] at hcmd
  obtain ⟨out, hout, hsent⟩ := List.mem_filterMap.mp hcmd
  exact houts out hout cmd hsent hdlms.2.1

end Management

/-! ## The calls of the DLMS module -/

/-- The data requests among the calls that leave the module. -/
def requested (outs : List Output) : List DataRequest :=
  outs.filterMap fun
    | .dataRequest r => some r
    | _ => none

section Performed

variable {b : Board} {out : Output} {outs : List Output} {r : DataRequest}

/-- The request of a message as it is handed over. -/
theorem isDlms_request (hr : ∃ m : Message, m.request = r) (contents : Mem UInt8) :
    IsDlms (PrimeApi.primeApiMsg (r.write contents))
      ∧ (PrimeApi.primeApiMsg (r.write contents)).pucBuf = r.serialised := by
  obtain ⟨m, rfl⟩ := hr
  have hbuf := Dlmsotcp.pucBuf_primeApiMsg m contents
  refine ⟨⟨show (-1 : ℤ) < 0 by decide, rfl, ?_⟩, hbuf⟩
  rw [hbuf]
  rfl

/-- A call that leaves the module is one command at most, and one for association 1 exactly if
it is a data request. -/
theorem perform_plain (hout : out.Plain)
    (hr : ∀ r ∈ requested [out], ∃ m : Message, m.request = r) :
    dlmsData (b.perform out).2 = (requested [out]).map DataRequest.serialised
      ∧ (b.perform out).1.mng = b.mng := by
  cases out with
  | selectApi appId => exact ⟨rfl, rfl⟩
  | dataRequest r =>
      obtain ⟨hdlms, hbuf⟩ := isDlms_request (hr r (List.mem_singleton_self r)) b.port.ucSerialBuf
      refine ⟨?_, rfl⟩
      show dlmsData [PrimeApi.primeApiMsg (r.write b.port.ucSerialBuf)] = [r.serialised]
      rw [dlmsData, dlmsCmds, List.filter_cons_of_pos (by rwa [decide_eq_true_eq])]
      exact congrArg (fun x => [x]) hbuf
  | releaseRequest usDstAddress =>
      refine ⟨dlmsData_singleton (not_isDlms_request ?_ b.port), rfl⟩
      intro a ha
      cases ha
  | write fd bytes => exact ⟨dlmsData_eq_nil (by simp [Board.perform, Board.manage, mngCmds,
      Output.mngCall, MngLayer.runCalls]), rfl⟩
  | printf format args => exact ⟨dlmsData_eq_nil (by simp [Board.perform, Board.manage, mngCmds,
      Output.mngCall, MngLayer.runCalls]), rfl⟩
  | _ => exact hout.elim

theorem performAll_plain (houts : ∀ out ∈ outs, out.Plain)
    (hr : ∀ r ∈ requested outs, ∃ m : Message, m.request = r) :
    dlmsData (b.performAll outs).2 = (requested outs).map DataRequest.serialised
      ∧ (b.performAll outs).1.mng = b.mng := by
  induction outs generalizing b with
  | nil => exact ⟨rfl, rfl⟩
  | cons out outs ih =>
      have hsplit : requested (out :: outs) = requested [out] ++ requested outs := by
        rw [← List.singleton_append]
        exact List.filterMap_append
      rw [List.forall_mem_cons] at houts
      rw [hsplit, List.forall_mem_append] at hr
      obtain ⟨hfirst, hmng⟩ := perform_plain (b := b) houts.1 hr.1
      obtain ⟨hrest, hmng'⟩ := ih (b := (b.perform out).1) houts.2 hr.2
      rw [Board.performAll, dlmsData_append, hfirst, hrest, hsplit, List.map_append]
      exact ⟨rfl, hmng'.trans hmng⟩

end Performed

/-! ## The gateway step by step -/

/-- The data messages of a packet. -/
def Act.requests : Act → List DataRequest
  | .packet _ buf => (Dlmsotcp.messages buf).flatMap Message.requests
  | .closed | .select _ | .request _ | .manage _ | .send _ => []

/-- The data messages of the packets of a run. -/
def downlink (as : List Act) : List DataRequest := as.flatMap Act.requests

@[inherit_doc Act.requests] def eventRequests : ServerEvent → List DataRequest
  | .core e => e.requests
  | _ => []

/-- What every step keeps: the messages `accepted` are requested one after the other, and
nobody has begun a message of the management layer that is one of the PRIME API. -/
structure Keeps (accepted : List DataRequest) (g : State) : Prop where
  ordered : g.server.core.Ordered accepted
  messages : ∀ r ∈ accepted, ∃ m : Message, m.request = r
  type : g.board.mng.sxTxMsgUcPType ≠ Usi.protocolPrimeApi

/-- What a step adds to the requests is what its commands carry. -/
def Carries (g g' : State) (cmds : List XUsiCmd) : Prop :=
  ∃ rs, g'.server.core.requests = g.server.core.requests ++ rs
    ∧ dlmsData cmds = rs.map DataRequest.serialised

section Steps

variable {clock : ℕ → ℕ} {g g' g'' : State} {cmds cmds' : List XUsiCmd} {e : ServerEvent}
  {es : List ServerEvent} {accepted : List DataRequest} {w w' : Server}

theorem Carries.of_same (h : g'.server.core.requests = g.server.core.requests)
    (hcmds : dlmsData cmds = []) : Carries g g' cmds :=
  ⟨[], by rw [h, List.append_nil], hcmds⟩

theorem Carries.trans (h : Carries g g' cmds) (h' : Carries g' g'' cmds') :
    Carries g g'' (cmds ++ cmds') := by
  obtain ⟨xs, hxs, hx⟩ := h
  obtain ⟨ys, hys, hy⟩ := h'
  refine ⟨xs ++ ys, ?_, ?_⟩
  · rw [hys, hxs, List.append_assoc]
  · rw [dlmsData_append, hx, hy, List.map_append]

/-- The DLMS module keeps the order, whatever happens to it. -/
theorem ordered_serverStep (h : w.core.Ordered accepted) (hw : serverStep clock e w = some w') :
    w'.core.Ordered (accepted ++ eventRequests e) := by
  by_cases hcore : ∀ e', e ≠ .core e'
  · have hnone : eventRequests e = [] := by
      cases e with
      | core e => exact absurd rfl (hcore e)
      | _ => rfl
    rw [hnone, List.append_nil]
    exact h.of_sameLists (Dlmsotcp.serverStep_sameLists hcore hw)
  · push Not at hcore
    obtain ⟨e, rfl⟩ := hcore
    obtain ⟨t, ht, rfl⟩ := Option.map_eq_some_iff.mp hw
    obtain ⟨t', ht', horder⟩ := h.step clock (Dlmsotcp.findsBuffers_of_step h.conserved ht)
    obtain rfl : t = t' := Option.some.inj (ht.symm.trans ht')
    exact horder

theorem exists_message_of_event (e : ServerEvent) :
    ∀ r ∈ eventRequests e, ∃ m : Message, m.request = r := by
  intro r hr
  cases e with
  | core e => exact Dlmsotcp.exists_message_of_mem_requests ⟨e, hr⟩
  | _ => cases hr

/-- **An event of the DLMS module.** -/
theorem serve_keeps (h : Keeps accepted g) (hs : serve clock e g = some (g', cmds)) :
    Keeps (accepted ++ eventRequests e) g' ∧ Carries g g' cmds := by
  obtain ⟨w, hw, heq⟩ := Option.map_eq_some_iff.mp hs
  obtain ⟨rfl, rfl⟩ := Prod.mk.inj heq
  have hordered := ordered_serverStep h.ordered hw
  have hmessages : ∀ r ∈ accepted ++ eventRequests e, ∃ m : Message, m.request = r := by
    rw [List.forall_mem_append]
    exact ⟨h.messages, exists_message_of_event e⟩
  obtain ⟨outs, htrace, houts⟩ := Dlmsotcp.exists_plain_outputs hw
  have hrequests : w.core.requests = g.server.core.requests ++ requested outs := by
    rw [Dlmsotcp.State.requests, htrace, List.filterMap_append]
    rfl
  -- what is requested has been accepted
  have hr : ∀ r ∈ requested outs, ∃ m : Message, m.request = r := by
    intro r hr
    apply hmessages r
    rw [← hordered.mem_iff, hrequests]
    exact List.mem_append_left _ (List.mem_append_right _ hr)
  obtain ⟨hdata, hmng⟩ := performAll_plain (b := g.board) houts hr
  rw [htrace, List.drop_left]
  exact ⟨⟨hordered, hmessages, by rw [hmng]; exact h.type⟩, requested outs, hrequests, hdata⟩

/-- Events that bring no message. -/
theorem serveAll_keeps (h : Keeps accepted g) (hes : ∀ e ∈ es, eventRequests e = [])
    (hs : serveAll clock es g = some (g', cmds)) : Keeps accepted g' ∧ Carries g g' cmds := by
  induction es generalizing g g' cmds with
  | nil =>
      obtain ⟨rfl, rfl⟩ := Prod.mk.inj (Option.some.inj hs)
      exact ⟨h, .of_same rfl rfl⟩
  | cons e es ih =>
      rw [List.forall_mem_cons] at hes
      obtain ⟨⟨g1, cmds1⟩, hfirst, hrest⟩ := Option.bind_eq_some_iff.mp hs
      obtain ⟨⟨g2, cmds2⟩, hlater, heq⟩ := Option.map_eq_some_iff.mp hrest
      obtain ⟨rfl, rfl⟩ := Prod.mk.inj heq
      obtain ⟨hkeeps, hcarries⟩ := serve_keeps h hfirst
      rw [hes.1, List.append_nil] at hkeeps
      obtain ⟨hkeeps', hcarries'⟩ := ih hkeeps hes.2 hlater
      exact ⟨hkeeps', hcarries.trans hcarries'⟩

/-- No callback brings a message. -/
theorem eventRequests_serverEvent {cb : PrimeApi.Cb} {args : List PrimeApi.Arg}
    (h : serverEvent cb args = some e) : eventRequests e = [] := by
  unfold serverEvent at h
  split at h
  · obtain rfl := Option.some.inj h
    rfl
  · obtain rfl := Option.some.inj h
    rfl
  · obtain rfl := Option.some.inj h
    rfl
  · obtain rfl := Option.some.inj h
    rfl
  · cases h

theorem apiReceived_keeps {ptrMsg : Mem UInt8} {len : UInt16} (h : Keeps accepted g)
    (hs : apiReceived clock ptrMsg len g = some (g', cmds)) :
    Keeps accepted g' ∧ Carries g g' cmds := by
  unfold apiReceived at hs
  dsimp only at hs
  set api := (PrimeApi.ifacePrimeApiReceivedCmd ptrMsg len g.board.api).2
  have hapi : Keeps accepted { g with board := { g.board with api := api } } :=
    ⟨h.ordered, h.messages, h.type⟩
  obtain ⟨hkeeps, hcarries⟩ := serveAll_keeps hapi (fun e he => by
    obtain ⟨c, -, hc⟩ := List.mem_filterMap.mp he
    exact eventRequests_serverEvent hc) hs
  exact ⟨hkeeps, hcarries⟩

/-- What the response callback asks of the management layer. -/
theorem apartCall_response (ptrMsg : Mem UInt8) (len : UInt16) (w : Server) :
    ∀ c ∈ ((Dlmsotcp.dlmsotcpMngpRspCb ptrMsg len w).mngCalls.drop w.mngCalls.length).map
      Dlmsotcp.MngCall.call, ApartCall c := by
  have hmanage : ∀ (u : Server) (calls : List Dlmsotcp.MngCall), u.mngCalls = w.mngCalls →
      (∀ c ∈ calls.map Dlmsotcp.MngCall.call, ApartCall c) →
      ∀ c ∈ ((u.manage calls).mngCalls.drop w.mngCalls.length).map Dlmsotcp.MngCall.call,
        ApartCall c := by
    intro u calls hu hcalls
    rw [Dlmsotcp.Server.manage, hu, List.drop_left]
    exact hcalls
  have hnone : ∀ u : Server, u.mngCalls = w.mngCalls →
      ∀ c ∈ (u.mngCalls.drop w.mngCalls.length).map Dlmsotcp.MngCall.call, ApartCall c := by
    intro u hu
    rw [hu, List.drop_length]
    exact List.forall_mem_nil _
  unfold Dlmsotcp.dlmsotcpMngpRspCb Dlmsotcp.afterRecords
  dsimp only
  split_ifs
  · exact hnone w rfl
  · exact hnone _ rfl
  · exact hnone w rfl
  · refine hmanage _ _ rfl ?_
    rintro c hc cmd rfl
    simp only [List.map_cons, List.map_nil, List.mem_cons, List.not_mem_nil, or_false,
      Dlmsotcp.MngCall.call, MngLayer.Call.newMsg.injEq, reduceCtorEq] at hc
    rw [hc]
    decide
  · exact hnone _ rfl
  · exact hnone _ rfl
  · exact hnone _ rfl
  · refine hmanage _ _ rfl ?_
    rintro c hc cmd rfl
    simp only [List.map_cons, List.map_nil, List.mem_cons, List.not_mem_nil, or_false,
      Dlmsotcp.MngCall.call, MngLayer.Call.newMsg.injEq, reduceCtorEq] at hc
    rw [hc]
    decide
  · exact hnone w rfl

theorem mngReceived_keeps (ptrMsg : Mem UInt8) (len : UInt16) (bytes : List UInt8)
    {nested : List MngLayer.Call} (h : Keeps accepted g) (hnested : ∀ c ∈ nested, ApartCall c) :
    Keeps accepted (mngReceived ptrMsg len bytes nested g).1
      ∧ Carries g (mngReceived ptrMsg len bytes nested g).1
        (mngReceived ptrMsg len bytes nested g).2 := by
  unfold mngReceived
  dsimp only
  split_ifs with hmine
  · have hstep : serverStep (fun _ => 0) (.response ptrMsg len) g.server
        = some (Dlmsotcp.dlmsotcpMngpRspCb ptrMsg len g.server) := rfl
    have hsame := Dlmsotcp.serverStep_sameLists (fun _ h => by cases h) hstep
    have hapart := apart_received h.type (apartCall_response ptrMsg len g.server) bytes
    exact ⟨⟨h.ordered.of_sameLists hsame, h.messages, hapart.type⟩,
      .of_same hsame.requests hapart.dlmsData_eq_nil⟩
  · have hapart := apart_received h.type hnested bytes
    exact ⟨⟨h.ordered, h.messages, hapart.type⟩, .of_same rfl hapart.dlmsData_eq_nil⟩

/-- A message is delivered. -/
theorem received_keeps {memory : ℕ → ℕ → UInt8} {nested : ℕ → List MngLayer.Call}
    {msg : ℕ × List UInt8} (h : Keeps accepted g) (hnested : ∀ n, ∀ c ∈ nested n, ApartCall c)
    (hs : received clock memory nested msg g = some (g', cmds)) :
    Keeps accepted g' ∧ Carries g g' cmds := by
  have hcount : Keeps accepted { g with count := g.count + 1 } :=
    ⟨h.ordered, h.messages, h.type⟩
  unfold received at hs
  dsimp only at hs
  split_ifs at hs
  · obtain ⟨hkeeps, hcarries⟩ := apiReceived_keeps hcount hs
    exact ⟨hkeeps, hcarries⟩
  · obtain ⟨hkeeps, hcarries⟩ := mngReceived_keeps ((Mem.init (memory g.count)).storeList 0 msg.2)
      (UInt16.ofNat msg.2.length) msg.2 hcount (hnested g.count)
    rw [Option.some.inj hs] at hkeeps hcarries
    exact ⟨hkeeps, hcarries⟩
  · obtain ⟨rfl, rfl⟩ := Prod.mk.inj (Option.some.inj hs)
    exact ⟨hcount, .of_same rfl rfl⟩

/-- Something else happens. -/
theorem doing_keeps {a : Act} (h : Keeps accepted g) (ha : a.Apart)
    (hs : doing clock a g = some (g', cmds)) :
    Keeps (accepted ++ a.requests) g' ∧ Carries g g' cmds := by
  cases a with
  | packet fd buf => exact serve_keeps h hs
  | closed => exact serve_keeps h hs
  | select primeAppId =>
      obtain ⟨rfl, rfl⟩ := Prod.mk.inj (Option.some.inj hs)
      rw [Act.requests, List.append_nil]
      exact ⟨⟨h.ordered, h.messages, h.type⟩, .of_same rfl rfl⟩
  | request r =>
      obtain ⟨rfl, rfl⟩ := Prod.mk.inj (Option.some.inj hs)
      rw [Act.requests, List.append_nil]
      exact ⟨⟨h.ordered, h.messages, h.type⟩,
        .of_same rfl (dlmsData_singleton (not_isDlms_request ha g.board.port))⟩
  | manage c =>
      obtain ⟨rfl, rfl⟩ := Prod.mk.inj (Option.some.inj hs)
      have hapart := apart_run h.type ha
      rw [Act.requests, List.append_nil]
      exact ⟨⟨h.ordered, h.messages, hapart.type⟩, .of_same rfl hapart.dlmsData_eq_nil⟩
  | send cmd =>
      obtain ⟨rfl, rfl⟩ := Prod.mk.inj (Option.some.inj hs)
      rw [Act.requests, List.append_nil]
      exact ⟨h, .of_same rfl (dlmsData_singleton ha)⟩

/-- **The whole run.** -/
theorem run_keeps {memory : ℕ → ℕ → UInt8} {nested : ℕ → List MngLayer.Call}
    {hs : List (Happening Act)} (h : Keeps accepted g)
    (hnested : ∀ n, ∀ c ∈ nested n, ApartCall c)
    (hacts : ∀ a ∈ hs.filterMap Happening.act?, a.Apart)
    (hrun : ((gateway clock memory nested).run hs (some g)).1 = some g') :
    Keeps (accepted ++ downlink (hs.filterMap Happening.act?)) g'
      ∧ Carries g g' ((gateway clock memory nested).run hs (some g)).2 := by
  induction hs generalizing g accepted with
  | nil =>
      obtain rfl := Option.some.inj hrun
      exact ⟨by rwa [List.filterMap_nil, downlink, List.flatMap_nil, List.append_nil],
        .of_same rfl rfl⟩
  | cons x hs ih =>
      cases x with
      | delivered msg =>
          rw [Upper.run] at hrun ⊢
          dsimp only [gateway, Option.bind_some] at hrun ⊢
          cases hstep : received clock memory nested msg g with
          | none =>
              rw [hstep] at hrun
              exact absurd (run_none.symm.trans hrun) (Option.some_ne_none _).symm
          | some r =>
              rw [hstep] at hrun
              obtain ⟨hkeeps, hcarries⟩ := received_keeps h hnested hstep
              obtain ⟨hkeeps', hcarries'⟩ := ih hkeeps hacts hrun
              exact ⟨hkeeps', hcarries.trans hcarries'⟩
      | acted a =>
          rw [List.filterMap_cons_some (show Happening.act? (.acted a) = some a from rfl),
            List.forall_mem_cons] at hacts
          rw [Upper.run] at hrun ⊢
          dsimp only [gateway, Option.bind_some] at hrun ⊢
          cases hstep : doing clock a g with
          | none =>
              rw [hstep] at hrun
              exact absurd (run_none.symm.trans hrun) (Option.some_ne_none _).symm
          | some r =>
              rw [hstep] at hrun
              obtain ⟨hkeeps, hcarries⟩ := doing_keeps h hacts.1 hstep
              obtain ⟨hkeeps', hcarries'⟩ := ih hkeeps hacts.2 hrun
              rw [List.append_assoc] at hkeeps'
              exact ⟨hkeeps', hcarries.trans hcarries'⟩

end Steps

/-! ## On the line -/

/-- What a data request puts on the line: its frame, if the transmit buffer holds it. -/
def lineFrame (r : DataRequest) : List UInt8 :=
  if FitsLine r then Usi.frame Usi.protocolPrimeApi r.serialised else []

section Line

variable {cmd : XUsiCmd} {cmds : List XUsiCmd} {rs : List DataRequest}

theorem wire_request (m : Message) (htype : cmd.ucPType = Usi.protocolPrimeApi)
    (hbuf : cmd.pucBuf = m.request.serialised) : cmd.wire = lineFrame m.request := by
  have hbuf' := Dlmsotcp.pucBuf_command m fun _ => 0
  have hsame : cmd.frame = (m.request.command fun _ => 0).frame := by
    rw [XUsiCmd.frame, XUsiCmd.frame, XUsiCmd.wirePayload, XUsiCmd.wirePayload, XUsiCmd.usLen,
      XUsiCmd.usLen, hbuf, hbuf', htype]
    rfl
  have hlen : cmd.usLen = m.payload.length + 8 := by
    rw [XUsiCmd.usLen, hbuf, Dlmsotcp.length_serialised]
    rfl
  have hne : cmd.usLen ≠ 0 := by omega
  have hknown : Usi.usiProtId2idx cmd.ucPType ≠ Usi.usiInvalidProtocolIdx := by
    rw [htype]
    decide
  have hlength := Dlmsotcp.length_frame_serialised m.request
  rw [XUsiCmd.wire, lineFrame]
  by_cases hshort : m.payload.length + 8 < 1024
  · rw [hsame, Dlmsotcp.frame_command m _ hshort]
    refine if_congr ?_ rfl rfl
    rw [hlength]
    exact ⟨fun h => h.2.2, fun h => ⟨hne, hknown, h⟩⟩
  · have hmin : cmd.usLen + 4 + Usi.crcLen cmd.ucPType ≤ cmd.frame.length :=
      XUsiCmd.le_length_frame fun hnil => hne (congrArg List.length hnil)
    rw [if_neg, if_neg]
    · intro hfits
      have hdata : m.payload.length + 13 ≤ 1000 := le_trans (Nat.le_add_right _ _) hfits
      omega
    · rintro ⟨-, -, hfits⟩
      unfold Usi.txauxSize at hfits
      omega

theorem flatMap_wire (hcmds : ∀ cmd ∈ cmds, cmd.ucPType = Usi.protocolPrimeApi)
    (hrs : ∀ r ∈ rs, ∃ m : Message, m.request = r)
    (h : cmds.map XUsiCmd.pucBuf = rs.map DataRequest.serialised) :
    cmds.flatMap XUsiCmd.wire = rs.flatMap lineFrame := by
  induction cmds generalizing rs with
  | nil =>
      obtain rfl := List.map_eq_nil_iff.mp h.symm
      rfl
  | cons cmd cmds ih =>
      cases rs with
      | nil => cases h
      | cons r rs =>
          rw [List.map_cons, List.map_cons, List.cons.injEq] at h
          rw [List.forall_mem_cons] at hcmds hrs
          obtain ⟨m, rfl⟩ := hrs.1
          rw [List.flatMap_cons, List.flatMap_cons, wire_request m hcmds.1 h.1,
            ih hcmds.2 hrs.2 h.2]

end Line

/-! ## The run -/

/-- What waits behind the request that is open. -/
theorem requests_append_tail {s : Dlmsotcp.State} {accepted : List DataRequest}
    (h : s.Ordered accepted) : s.requests ++ s.pendingRequests.tail = accepted := by
  obtain ⟨fs, ps, h, gone, hacc, hreq⟩ := h
  have hpending : s.pendingRequests = (s.outbox ps).waiting := h.pendingRequests_eq
  have hrequests : s.requests = (s.outbox ps).requested := rfl
  rw [hpending, hrequests, hacc, hreq, List.append_assoc]
  cases (s.outbox ps).waiting <;> rfl

theorem keeps_started (memory : ℕ → Dlmsotcp.XDlmsMsg) (behind : ℕ → Dlmsotcp.ConnectedNode)
    (b : Board) : Keeps [] (started memory behind b).1
      ∧ (started memory behind b).1.server.core.requests = [] := by
  refine ⟨⟨Dlmsotcp.ordered_started _ memory behind, List.forall_mem_nil _, ?_⟩,
    Dlmsotcp.requests_started _ memory behind⟩
  have htrace : (Dlmsotcp.serverStarted dlmsotcpAppId memory behind).core.trace = _ :=
    Dlmsotcp.trace_started _ memory behind
  show (b.performAll _).1.mng.sxTxMsgUcPType ≠ _
  rw [htrace]
  -- the query for the list of the nodes has been begun
  set m := MngLayer.mngLayNewMsg Dlmsotcp.mngpPrimeEnPibqry
    (MngLayer.mngLaySetRspCallback (appIdByte dlmsotcpAppId) true b.mng)
  have hm : m.sxTxMsgUcPType ≠ Usi.protocolPrimeApi :=
    show Dlmsotcp.mngpPrimeEnPibqry ≠ _ by decide
  have hapart : Apart m (MngLayer.runCalls
      [.addGetPibListEnQuery Dlmsotcp.pibAtml432NodeList
        (UInt8.ofNat Dlmsotcp.mngpPrimeEnhancedListMaxRecords) (Dlmsotcp.wordImage 0),
        .sendMsg (appIdByte dlmsotcpAppId) .ok] m) := by
    apply apart_runCalls hm
    rintro c hc cmd rfl
    simp at hc
  exact hapart.type

/-- **The downlink.**  In every run of the host that stays in the receive buffer and does not end
in a NULL pointer, the line carries commands whose data requests for association 1 are those that
the DLMS module has made; with the messages that wait behind the open request, these are the data
messages of the packets, in order and each once.  The frames of the requests are on the line as
far as the transmit buffer holds them. -/
theorem dlms_downlink {clock : ℕ → ℕ} {memory : ℕ → ℕ → UInt8}
    {nested : ℕ → List MngLayer.Call} (hnested : ∀ n, ∀ c ∈ nested n, ApartCall c)
    (heap : ℕ → Dlmsotcp.XDlmsMsg) (behind : ℕ → Dlmsotcp.ConnectedNode) (b : Board)
    {s s' : Usi.State} {p : List UInt8} {f : Bool} (htr : Usi.Tracks s p f)
    (hoff : s.fdSocketLoopback ≤ 0) (hidx : s.usIdxIn = 0) (hsize : s.txUsSize = Usi.txauxSize)
    {es : List (HostEvent Act)}
    (hfits : Usi.Along (fun _ => Usi.FitsBuffer) (Usi.inputs es) s)
    (hacts : ∀ a ∈ Usi.acts es, a.Apart) {g : State} {evs : List Usi.Event}
    (hrun : Usi.hostRun (gateway clock memory nested) es (s, some (started heap behind b).1)
      = some ((s', some g), evs)) :
    ∃ cmds, writtenTo s.portFd evs = wireTo s.portFd s.portFd cmds
      ∧ dlmsData cmds = g.server.core.requests.map DataRequest.serialised
      ∧ g.server.core.requests ++ g.server.core.pendingRequests.tail = downlink (Usi.acts es)
      ∧ (dlmsCmds cmds).flatMap XUsiCmd.wire = g.server.core.requests.flatMap lineFrame
      ∧ Usi.InBuffer s' := by
  obtain ⟨hs, hhs, hend, hwire, s1, log, m, hreceived, rfl⟩ :=
    Usi.hostRun_order hoff hidx hsize hrun
  obtain ⟨hkeeps, hnone⟩ := keeps_started heap behind b
  obtain ⟨hkeeps, rs, hrs, hdata⟩ := run_keeps hkeeps hnested (by rwa [hhs]) hend.symm
  rw [List.nil_append, hhs] at hkeeps
  rw [hnone, List.nil_append] at hrs
  rw [← hrs] at hdata
  have hinside : Usi.InBuffer s1 := Usi.inBuffer_usiRun htr hoff hfits hreceived
  refine ⟨_, hwire s.portFd, hdata, requests_append_tail hkeeps.ordered, ?_, hinside⟩
  refine flatMap_wire (fun cmd hcmd => ?_) (fun r hr => ?_) hdata
  · exact (of_decide_eq_true (List.mem_filter.mp hcmd).2).2.1
  · apply hkeeps.messages r
    rw [← hkeeps.ordered.mem_iff]
    exact List.mem_append_left _ hr

/-- The base node confirms a message for node 3. -/
def confirmed : Usi.UsiMsg where
  ucType := Usi.protocolPrimeApi
  payload := [0x39, 1, 16, 0, 3, 0]
  type_mem := protocolPrimeApi_mem
  length_lt := by decide
  eq_of_nil := by decide
  head_lt := by decide

/-- Three messages, for two nodes. -/
def threeMessages : List Message :=
  [⟨1, 3, [0xc0], by decide⟩, ⟨1, 5, [0xc1], by decide⟩, ⟨1, 3, [0xc2, 0xc3], by decide⟩]

/-- A packet with the three messages, and the confirm of the first one in two reads. -/
def downlinkEvents : List (HostEvent Act) :=
  .act (.packet 7 (Dlmsotcp.encodeAll threeMessages))
    :: (Usi.cutReads 4 (Usi.streamOf [confirmed])).map .process

/-- Two of the messages are on the line, and the third one waits. -/
theorem dlms_downlink_three : ∃ (s' : Usi.State) (g : State) (evs : List Usi.Event)
    (cmds : List XUsiCmd), Usi.hostRun (gateway (fun _ => 0) (fun _ _ => 0) fun _ => [])
        downlinkEvents (apiReceiver, some (started Dlmsotcp.zeroMemory Dlmsotcp.zeroNodes board).1)
          = some ((s', some g), evs)
      ∧ g.server.core.requests.length = 2
      ∧ writtenTo 3 evs = wireTo 3 3 cmds
      ∧ dlmsData cmds = g.server.core.requests.map DataRequest.serialised
      ∧ g.server.core.requests ++ g.server.core.pendingRequests.tail
        = threeMessages.map Message.request
      ∧ (dlmsCmds cmds).flatMap XUsiCmd.wire = g.server.core.requests.flatMap lineFrame
      ∧ Usi.InBuffer s' := by
  have htr : Usi.Tracks apiReceiver [] false := Usi.tracks_opened _ _ _ _
  have hends : ((Usi.hostRun (gateway (fun _ => 0) (fun _ _ => 0) fun _ => []) downlinkEvents
      (apiReceiver, some (started Dlmsotcp.zeroMemory Dlmsotcp.zeroNodes board).1)).bind fun r =>
        r.1.2.map fun g => g.server.core.requests.length) = some 2 := by
    decide +kernel
  obtain ⟨⟨⟨s', u⟩, evs⟩, hrun, hu⟩ := Option.bind_eq_some_iff.mp hends
  obtain ⟨g, rfl, htwo⟩ := Option.map_eq_some_iff.mp hu
  have hfits : Usi.Along (fun _ => Usi.FitsBuffer) (Usi.inputs downlinkEvents) apiReceiver :=
    (Usi.along_of_short _ htr (by decide +kernel)).mono fun _ _ _ h => ⟨Nat.le_of_lt h.1, h.2⟩
  obtain ⟨cmds, hline, hdata, hrequests, hframes, hinside⟩ := dlms_downlink
    (fun _ => List.forall_mem_nil _) Dlmsotcp.zeroMemory Dlmsotcp.zeroNodes board htr
    (by decide) rfl rfl hfits (List.forall_mem_singleton.mpr trivial) hrun
  have hthree : downlink (Usi.acts downlinkEvents) = threeMessages.map Message.request := by
    decide +kernel
  rw [hthree] at hrequests
  exact ⟨s', g, evs, cmds, hrun, htwo, hline, hdata, hrequests, hframes, hinside⟩

end Gateway
