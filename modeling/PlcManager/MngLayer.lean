/-
# The management layer

Embeds `ifaceMngLayer.c`: the functions by which an application builds one management
message and sends it, and the dispatch of the responses.  `hal_usi_send_cmd` is a
parameter: a call of `mngLay_SendMsg` carries the status it returns.

The response of the base node does not say who asked.  The layer keeps the application
that called `mngLay_SendMsg` last, and forgets it when a response callback returns.  A
callback that sends the next request itself, as both applications do to page through a
list, is forgotten in the same way: the response to its request is lost.
-/
import PlcManager.Runs
import PlcManager.UsiProtocol

namespace MngLayer

/-! ## Constants -/

/-- `MAX_LENGTH_TX_BUFFER`. -/
def maxLengthTxBuffer : ℕ := 512
/-- `LENGTH_PIB`. -/
def lengthPib : ℕ := 2
/-- `LENGTH_GET_PIB_QUERY`. -/
def lengthGetPibQuery : ℕ := lengthPib + 1
/-- `MNGP_API_MAX_NUM`. -/
def mngpApiMaxNum : UInt8 := 8
/-- `MNGP_API_INVALID`. -/
def mngpApiInvalid : UInt8 := 0xff
/-- `MNGP_PRIME_GETQRY`. -/
def mngpPrimeGetqry : UInt8 := 0x00
/-- `MNGP_PRIME_SET`. -/
def mngpPrimeSet : UInt8 := 0x02
/-- `MNGP_PRIME_RESET`. -/
def mngpPrimeReset : UInt8 := 0x03
/-- `MNGP_PRIME_FU`. -/
def mngpPrimeFu : UInt8 := 0x05
/-- `MNGP_PRIME_EN_PIBQRY`. -/
def mngpPrimeEnPibqry : UInt8 := 0x06
/-- `MNGP_PRIME_LISTQRY`. -/
def mngpPrimeListqry : UInt8 := 0x0e

/-! ## State -/

/-- A call that leaves the layer. -/
inductive Output where
  /-- The response callback of `appId` is called with these bytes. -/
  | callback (appId : UInt8) (ptrMsg : List UInt8)
  | sendCmd (fd : ℤ) (ucPType : UInt8) (pucBuf : List UInt8)
  deriving DecidableEq, Repr

/-- The static variables of `ifaceMngLayer.c`; of a callback only whether it is set. -/
structure State where
  /-- `sx_tx_msg.uc_p_type` -/
  sxTxMsgUcPType : UInt8
  sulNumCharsTxBuff : UInt16
  pucBuffTx : Mem UInt8
  pfMngpRspCb : Mem Bool
  sucMngpIdReq : UInt8
  trace : List Output

/-- Calls leave the layer. -/
def State.emit (s : State) (outs : List Output) : State := { s with trace := s.trace ++ outs }

/-! ## Building a message -/

/-- `mngLay_NewMsg`. -/
def mngLayNewMsg (cmd : UInt8) (s : State) : State :=
  { s with sulNumCharsTxBuff := 0, sxTxMsgUcPType := cmd }

/-- An item for messages of type `cmd` is put in the buffer. -/
def addItem (cmd : UInt8) (item : List UInt8) (s : State) : Bool × State :=
  -- there is another message without send
  if s.sxTxMsgUcPType ≠ cmd then (false, s)
  -- there is no room in the buffer
  else if maxLengthTxBuffer ≤ s.sulNumCharsTxBuff.toNat + item.length then (false, s)
  else
    (true,
      { s with
        pucBuffTx := s.pucBuffTx.storeList s.sulNumCharsTxBuff.toNat item
        sulNumCharsTxBuff := s.sulNumCharsTxBuff + UInt16.ofNat item.length })

/-- The two bytes of an attribute. -/
def pibBytes (pib : UInt16) : List UInt8 := [(pib >>> 8).toUInt8, pib.toUInt8]

/-- `mngLay_AddGetPibQuery`. -/
def mngLayAddGetPibQuery (pib : UInt16) (index : UInt8) : State → Bool × State :=
  addItem mngpPrimeGetqry (pibBytes pib ++ [index])

/-- `mngLay_AddSetPib`. -/
def mngLayAddSetPib (pib length : UInt16) (msg : Mem UInt8) : State → Bool × State :=
  addItem mngpPrimeSet (pibBytes pib ++ msg.slice 0 length.toNat)

/-- `mngLay_AddResetStats`. -/
def mngLayAddResetStats (pib : UInt16) (index : UInt8) : State → Bool × State :=
  addItem mngpPrimeReset (pibBytes pib ++ [index])

/-- `mngLay_AddFUMsg`. -/
def mngLayAddFUMsg (length : UInt16) (msg : Mem UInt8) : State → Bool × State :=
  addItem mngpPrimeFu (msg.slice 0 length.toNat)

/-- `_gePibListEnLength`: six bytes with a short iterator, else four and the iterator. -/
def gePibListEnLength (iter : Mem UInt8) : ℕ :=
  if (iter.cell 0 >>> 7) &&& 0x01 = 0 then 6 else (iter.cell 0 &&& 0x7f).toNat + 4

/-- `mngLay_AddGetPibListEnQuery`. -/
def mngLayAddGetPibListEnQuery (pib : UInt16) (maxRecords : UInt8) (iterator : Mem UInt8) :
    State → Bool × State :=
  addItem mngpPrimeEnPibqry ([mngpPrimeListqry] ++ pibBytes pib ++ [maxRecords]
    ++ iterator.slice 0 (gePibListEnLength iterator - 4))

/-! ## Sending and receiving -/

/-- `mngLay_SendMsg`, with the status that `hal_usi_send_cmd` returns.  The requester is
changed before anything has been sent, and kept when sending fails. -/
def mngLaySendMsg (appId : UInt8) (status : Usi.Status) (s : State) : Bool × State :=
  let s := { s with sucMngpIdReq := appId }
  let s := s.emit [.sendCmd (-1) s.sxTxMsgUcPType
    (s.pucBuffTx.slice 0 s.sulNumCharsTxBuff.toNat)]
  -- the first status of the enumeration is zero
  if status = .protocolNotFound then (false, s)
  else (true, { s with sulNumCharsTxBuff := 0 })

/-- `mngLay_SetRspCallback`; `sapHandler` says whether the pointer is set. -/
def mngLaySetRspCallback (appId : UInt8) (sapHandler : Bool) (s : State) : State :=
  { s with pfMngpRspCb := s.pfMngpRspCb.store appId.toNat sapHandler }

/-- A call of the layer by an application. -/
inductive Call where
  | newMsg (cmd : UInt8)
  | addGetPibQuery (pib : UInt16) (index : UInt8)
  | addSetPib (pib length : UInt16) (msg : Mem UInt8)
  | addResetStats (pib : UInt16) (index : UInt8)
  | addFUMsg (length : UInt16) (msg : Mem UInt8)
  | addGetPibListEnQuery (pib : UInt16) (maxRecords : UInt8) (iterator : Mem UInt8)
  | sendMsg (appId : UInt8) (status : Usi.Status)
  | setRspCallback (appId : UInt8) (sapHandler : Bool)

/-- What a call does. -/
def Call.run : Call → State → State
  | newMsg cmd, s => mngLayNewMsg cmd s
  | addGetPibQuery pib index, s => (mngLayAddGetPibQuery pib index s).2
  | addSetPib pib length msg, s => (mngLayAddSetPib pib length msg s).2
  | addResetStats pib index, s => (mngLayAddResetStats pib index s).2
  | addFUMsg length msg, s => (mngLayAddFUMsg length msg s).2
  | addGetPibListEnQuery pib maxRecords iterator, s =>
      (mngLayAddGetPibListEnQuery pib maxRecords iterator s).2
  | sendMsg appId status, s => (mngLaySendMsg appId status s).2
  | setRspCallback appId sapHandler, s => mngLaySetRspCallback appId sapHandler s

/-- One call after the other. -/
def runCalls (calls : List Call) (s : State) : State := calls.foldl (fun s c => c.run s) s

/-- `mngLay_receivedCmd` finds a callback to call. -/
def Finds (s : State) : Prop :=
  s.pfMngpRspCb.cell s.sucMngpIdReq.toNat = true ∧ s.sucMngpIdReq < mngpApiMaxNum

instance (s : State) : Decidable (Finds s) := inferInstanceAs (Decidable (_ ∧ _))

/-- `mngLay_receivedCmd`; `nested` are the calls that the callback makes. -/
def mngLayReceivedCmd (ptrMsg : List UInt8) (nested : List Call) (s : State) : State :=
  if Finds s then
    let s := runCalls nested (s.emit [.callback s.sucMngpIdReq ptrMsg])
    { s with sucMngpIdReq := mngpApiInvalid }
  else s

/-- `mngLay_Init` on the static variables, with anything in the memory behind the two
arrays.  The `memset` has the size of one pointer; the others are zero as statics. -/
def mngLayInit (behindBuff : ℕ → UInt8) (behindCb : ℕ → Bool) : State where
  sxTxMsgUcPType := 0
  sulNumCharsTxBuff := 0
  pucBuffTx := Mem.init fun i => if i < maxLengthTxBuffer then 0 else behindBuff i
  pfMngpRspCb :=
    (Mem.init fun i => if i < mngpApiMaxNum.toNat then false else behindCb i).store 0 false
  sucMngpIdReq := mngpApiInvalid
  trace := []

/-! ## Runs -/

/-- An application calls the layer, or a response arrives. -/
inductive Event where
  | call (c : Call)
  | received (ptrMsg : List UInt8) (nested : List Call)

/-- The reaction to an event. -/
def step : Event → State → State
  | .call c, s => c.run s
  | .received ptrMsg nested, s => mngLayReceivedCmd ptrMsg nested s

/-- What is known of the requests of a run. -/
structure Requests where
  /-- Who issued the request that has been sent and not been answered. -/
  outstanding : Option UInt8
  /-- Who called `mngLay_SendMsg` last outside a response callback, since the last
  response. -/
  caller : Option UInt8

/-- The requests after a call. -/
def Requests.call (r : Requests) : Call → Requests
  | .sendMsg appId status => ⟨if status = .ok then some appId else r.outstanding, some appId⟩
  | _ => r

/-- The requests after an event that meets the state `s`. -/
def Requests.update (r : Requests) (e : Event) (s : State) : Requests :=
  match e with
  | .call c => r.call c
  | .received _ nested =>
      ⟨if Finds s then (nested.foldl Requests.call ⟨none, none⟩).outstanding else none, none⟩

/-- A step of the layer with its requests. -/
def stepRequests (e : Event) (x : State × Requests) : Option (State × Requests) :=
  some (step e x.1, x.2.update e x.1)

/-- The layer when it has been started. -/
def started (behindBuff : ℕ → UInt8) (behindCb : ℕ → Bool) : State × Requests :=
  (mngLayInit behindBuff behindCb, ⟨none, none⟩)

/-- A call that sends a request. -/
def Call.Sends : Call → Prop
  | .sendMsg _ status => status = .ok
  | _ => False

instance : DecidablePred Call.Sends := fun c =>
  match c with
  | .sendMsg _ status => inferInstanceAs (Decidable (status = .ok))
  | .newMsg .. | .addGetPibQuery .. | .addSetPib .. | .addResetStats .. | .addFUMsg ..
  | .addGetPibListEnQuery .. | .setRspCallback .. => isFalse id

/-- At most one request is outstanding at a time, one sent by a callback included, and a
response answers it; its application has registered a callback. -/
def OneAtATime (e : Event) (x : State × Requests) : Prop :=
  match e with
  | .call c => c.Sends → x.2.outstanding = none
  | .received _ nested =>
      (∃ a ∈ x.2.outstanding, a < mngpApiMaxNum ∧ x.1.pfMngpRspCb.cell a.toNat = true)
        ∧ (nested.filter fun c => decide c.Sends).length ≤ 1

instance (e : Event) (x : State × Requests) : Decidable (OneAtATime e x) :=
  match e with
  | .call c => inferInstanceAs (Decidable (c.Sends → x.2.outstanding = none))
  | .received _ _ => inferInstanceAs (Decidable (_ ∧ _))

/-- The callbacks called so far, with their messages. -/
def State.deliveries (s : State) : List (UInt8 × List UInt8) :=
  s.trace.filterMap fun
    | .callback appId ptrMsg => some (appId, ptrMsg)
    | _ => none

/-- A response goes to the callback of the application whose request it answers, once,
and to no other. -/
def Routed (e : Event) (x : State × Requests) : Prop :=
  match e with
  | .call _ => True
  | .received ptrMsg _ =>
      ∃ a ∈ x.2.outstanding, (step e x.1).deliveries = x.1.deliveries ++ [(a, ptrMsg)]

instance (e : Event) (x : State × Requests) : Decidable (Routed e x) :=
  match e with
  | .call _ => isTrue trivial
  | .received ptrMsg nested =>
      inferInstanceAs (Decidable (∃ a ∈ x.2.outstanding,
        (step (.received ptrMsg nested) x.1).deliveries = x.1.deliveries ++ [(a, ptrMsg)]))

/-- A response answers the application that called `mngLay_SendMsg` last, outside a
callback. -/
def AnswersCaller (e : Event) (x : State × Requests) : Prop :=
  match e with
  | .call _ => True
  | .received .. => x.2.caller = x.2.outstanding

instance (e : Event) (x : State × Requests) : Decidable (AnswersCaller e x) :=
  match e with
  | .call _ => isTrue trivial
  | .received .. => inferInstanceAs (Decidable (x.2.caller = x.2.outstanding))

section Routing

variable {s : State} {e : Event} {x x' : State × Requests} {c : Call}

/-! ### What the calls leave alone -/

theorem addItem_sucMngpIdReq (cmd : UInt8) (item : List UInt8) (s : State) :
    (addItem cmd item s).2.sucMngpIdReq = s.sucMngpIdReq := by
  unfold addItem
  split_ifs <;> rfl

theorem addItem_trace (cmd : UInt8) (item : List UInt8) (s : State) :
    (addItem cmd item s).2.trace = s.trace := by
  unfold addItem
  split_ifs <;> rfl

/-- Only `mngLay_SendMsg` changes the requester. -/
theorem Call.run_sucMngpIdReq (c : Call) (s : State) (r : Requests)
    (h : s.sucMngpIdReq = r.caller.getD mngpApiInvalid) :
    (c.run s).sucMngpIdReq = (r.call c).caller.getD mngpApiInvalid := by
  cases c with
  | newMsg => exact h
  | addGetPibQuery => exact (addItem_sucMngpIdReq _ _ s).trans h
  | addSetPib => exact (addItem_sucMngpIdReq _ _ s).trans h
  | addResetStats => exact (addItem_sucMngpIdReq _ _ s).trans h
  | addFUMsg => exact (addItem_sucMngpIdReq _ _ s).trans h
  | addGetPibListEnQuery => exact (addItem_sucMngpIdReq _ _ s).trans h
  | sendMsg appId status =>
      unfold Call.run mngLaySendMsg
      dsimp only
      split_ifs <;> rfl
  | setRspCallback => exact h

/-- No call of the layer calls a callback. -/
theorem Call.run_deliveries (c : Call) (s : State) : (c.run s).deliveries = s.deliveries := by
  have hitem (cmd : UInt8) (item : List UInt8) :
      (addItem cmd item s).2.deliveries = s.deliveries := by
    unfold State.deliveries
    rw [addItem_trace]
  cases c with
  | newMsg => rfl
  | addGetPibQuery => exact hitem _ _
  | addSetPib => exact hitem _ _
  | addResetStats => exact hitem _ _
  | addFUMsg => exact hitem _ _
  | addGetPibListEnQuery => exact hitem _ _
  | sendMsg appId status =>
      unfold Call.run mngLaySendMsg
      dsimp only
      split_ifs <;> simp [State.deliveries, State.emit]
  | setRspCallback => rfl

theorem runCalls_deliveries (calls : List Call) (s : State) :
    (runCalls calls s).deliveries = s.deliveries := by
  unfold runCalls
  induction calls generalizing s with
  | nil => rfl
  | cons c calls ih =>
      rw [List.foldl_cons, ih, c.run_deliveries]

/-! ### Routing -/

theorem mngLayReceivedCmd_deliveries (ptrMsg : List UInt8) (nested : List Call) (s : State) :
    (mngLayReceivedCmd ptrMsg nested s).deliveries =
      s.deliveries ++ if Finds s then [(s.sucMngpIdReq, ptrMsg)] else [] := by
  unfold mngLayReceivedCmd
  split_ifs with hfinds
  · show (runCalls nested (s.emit [.callback s.sucMngpIdReq ptrMsg])).deliveries = _
    rw [runCalls_deliveries]
    simp [State.deliveries, State.emit]
  · rw [List.append_nil]

/-- The requester kept by the layer is the last caller. -/
def Remembers (x : State × Requests) : Prop :=
  x.1.sucMngpIdReq = x.2.caller.getD mngpApiInvalid

/-- **One step.**  A response is routed exactly when it answers the last caller. -/
theorem routed_iff (h : Remembers x) (hone : OneAtATime e x) : Routed e x ↔ AnswersCaller e x := by
  cases e with
  | call c => exact Iff.rfl
  | received ptrMsg nested =>
      obtain ⟨⟨a, ha, hlt, hcb⟩, -⟩ := hone
      have houtstanding : x.2.outstanding = some a := ha
      unfold Routed AnswersCaller step
      dsimp only
      rw [mngLayReceivedCmd_deliveries, houtstanding]
      constructor
      · rintro ⟨b, hb, hdelivered⟩
        obtain rfl : a = b := Option.some.inj hb
        have hfound := List.append_cancel_left hdelivered
        split_ifs at hfound with hfinds
        · have hid : x.1.sucMngpIdReq = a := by
            have := (List.cons.inj hfound).1
            exact congrArg Prod.fst this
          unfold Remembers at h
          rw [hid] at h
          cases hcaller : x.2.caller with
          | none =>
              rw [hcaller] at h
              subst h
              exact absurd hlt (by decide)
          | some b =>
              rw [hcaller] at h
              rw [h]
              rfl
      · intro hcaller
        have hid : x.1.sucMngpIdReq = a := by
          unfold Remembers at h
          rw [h, hcaller]
          rfl
        have hfinds : Finds x.1 := ⟨by rwa [hid], by rwa [hid]⟩
        refine ⟨a, rfl, ?_⟩
        rw [if_pos hfinds, hid]

/-- **One step.**  A routed response leaves the layer without a requester. -/
theorem Remembers.step (h : Remembers x) (hrouted : Routed e x)
    (hx : stepRequests e x = some x') : Remembers x' := by
  obtain rfl := Option.some.inj hx
  cases e with
  | call c => exact c.run_sucMngpIdReq x.1 x.2 h
  | received ptrMsg nested =>
      obtain ⟨a, -, hdelivered⟩ := hrouted
      have hfinds : Finds x.1 := by
        by_contra hnot
        unfold MngLayer.step at hdelivered
        dsimp only at hdelivered
        rw [mngLayReceivedCmd_deliveries, if_neg hnot] at hdelivered
        exact absurd (List.append_cancel_left hdelivered) (by simp)
      unfold Remembers MngLayer.step mngLayReceivedCmd
      dsimp only
      rw [if_pos hfinds]
      rfl

/-- **Response routing.**  In every run with at most one request outstanding at a time,
every response goes to the callback of the application whose request it answers exactly
when this application called `mngLay_SendMsg` last since the previous response, and not
from inside a response callback. -/
theorem mng_responses_routed_iff (behindBuff : ℕ → UInt8) (behindCb : ℕ → Bool) (es : List Event)
    (hone : AlongSteps stepRequests OneAtATime es (started behindBuff behindCb)) :
    AlongSteps stepRequests Routed es (started behindBuff behindCb)
      ↔ AlongSteps stepRequests AnswersCaller es (started behindBuff behindCb) := by
  apply alongSteps_congr_of (I := Remembers) hone
  · exact fun e x hx h => routed_iff hx h
  · exact fun e x x' hx _ hrouted hx' => hx.step hrouted hx'
  · rfl

end Routing

/-- The calls by which an application asks for the next page of the node list. -/
def queryPage (appId : UInt8) : List Call :=
  [.newMsg mngpPrimeEnPibqry, .addGetPibListEnQuery 0x8250 30 (Mem.init fun _ => 0),
    .sendMsg appId .ok]

/-- Two applications ask one after the other, each before a response callback is called. -/
theorem mng_responses_routed_two :
    AlongSteps stepRequests Routed
      ([.call (.setRspCallback 3 true), .call (.setRspCallback 4 true)]
        ++ (queryPage 3).map .call ++ [.received [0, 0, 1] []]
        ++ (queryPage 4).map .call ++ [.received [0, 0, 2] []])
      (started (fun _ => 0) fun _ => false) := by
  apply (mng_responses_routed_iff _ _ _ _).mpr
  · decide +kernel
  · decide +kernel

/-- Application 3 asks for the next page from inside its callback: the requester is
forgotten, and no callback is called for the second page. -/
theorem mng_response_lost :
    ¬ ∀ (behindBuff : ℕ → UInt8) (behindCb : ℕ → Bool) (es : List Event),
      AlongSteps stepRequests OneAtATime es (started behindBuff behindCb) →
        AlongSteps stepRequests Routed es (started behindBuff behindCb) := by
  intro hclaim
  have hrouted := hclaim (fun _ => 0) (fun _ => false)
    ([.call (.setRspCallback 3 true)] ++ (queryPage 3).map .call
      ++ [.received [0, 0, 1] (queryPage 3), .received [0, 0, 2] []]) (by decide +kernel)
  revert hrouted
  decide +kernel

end MngLayer
