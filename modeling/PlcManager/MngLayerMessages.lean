/-
# The messages that are built and sent

An application builds a message in `puc_buffTx`, one item after the other, and sends it.
Every item is tested for its type of message and for room before it is stored, so the
buffer holds the items accepted since the message was begun, and nothing behind its end.
The type of the first message need not be set: it is zero, that of a query.

`mngLay_SendMsg` takes the status of `hal_usi_send_cmd` for a truth value.  The one status
that is zero is that of an unknown protocol, and no message of an unknown protocol ever
holds an item.  So every message counts as sent, and is deleted, whatever has become of it.
-/
import PlcManager.MngLayer
import PlcManager.UsiOutcome

namespace MngLayer

/-! ## Items -/

/-- The type of message that an item is for, and the bytes that encode it. -/
def Call.item? : Call → Option (UInt8 × List UInt8)
  | .addGetPibQuery pib index => some (mngpPrimeGetqry, pibBytes pib ++ [index])
  | .addSetPib pib length msg => some (mngpPrimeSet, pibBytes pib ++ msg.slice 0 length.toNat)
  | .addResetStats pib index => some (mngpPrimeReset, pibBytes pib ++ [index])
  | .addFUMsg length msg => some (mngpPrimeFu, msg.slice 0 length.toNat)
  | .addGetPibListEnQuery pib maxRecords iterator =>
      some (mngpPrimeEnPibqry, [mngpPrimeListqry] ++ pibBytes pib ++ [maxRecords]
        ++ iterator.slice 0 (gePibListEnLength iterator - 4))
  | .newMsg _ | .sendMsg .. | .setRspCallback .. => none

/-- What a call returns; `false` for the functions that return nothing. -/
def Call.returned : Call → State → Bool
  | .addGetPibQuery pib index, s => (mngLayAddGetPibQuery pib index s).1
  | .addSetPib pib length msg, s => (mngLayAddSetPib pib length msg s).1
  | .addResetStats pib index, s => (mngLayAddResetStats pib index s).1
  | .addFUMsg length msg, s => (mngLayAddFUMsg length msg s).1
  | .addGetPibListEnQuery pib maxRecords iterator, s =>
      (mngLayAddGetPibListEnQuery pib maxRecords iterator s).1
  | .sendMsg appId status, s => (mngLaySendMsg appId status s).1
  | .newMsg _, _ | .setRspCallback .., _ => false

/-- `sx_tx_msg` as `mngLay_SendMsg` hands it over. -/
def sxTxMsg (s : State) : Usi.XUsiCmd where
  fd := -1
  ucPType := s.sxTxMsgUcPType
  pucBuf := s.pucBuffTx.slice 0 s.sulNumCharsTxBuff.toNat
  usLen_lt := by
    rw [Mem.length_slice]
    exact s.sulNumCharsTxBuff.toNat_lt

/-- What is known of the message that is being built. -/
structure Message where
  /-- The type that the last `mngLay_NewMsg` has set. -/
  cmd : Option UInt8
  /-- The encodings of the items accepted since then and since the last message sent. -/
  items : List (List UInt8)

/-- The message after a call that has returned `returned`. -/
def Message.call (m : Message) (c : Call) (returned : Bool) : Message :=
  match c with
  | .newMsg cmd => ⟨some cmd, []⟩
  | .sendMsg .. => if returned then { m with items := [] } else m
  | c =>
      match c.item? with
      | some (_, item) => if returned then { m with items := m.items ++ [item] } else m
      | none => m

/-- The layer and the message after some calls. -/
def build (calls : List Call) (x : State × Message) : State × Message :=
  calls.foldl (fun x c => (c.run x.1, x.2.call c (c.returned x.1))) x

/-- The layer when it has been started, and no message has been begun. -/
def noMessage (behindBuff : ℕ → UInt8) (behindCb : ℕ → Bool) : State × Message :=
  (mngLayInit behindBuff behindCb, ⟨none, []⟩)

/-- The buffer holds the items that have been accepted, and is not exceeded. -/
structure Built (x : State × Message) : Prop where
  room : x.1.sulNumCharsTxBuff.toNat < maxLengthTxBuffer
  inside : x.1.pucBuffTx.top ≤ maxLengthTxBuffer
  contents : x.1.pucBuffTx.slice 0 x.1.sulNumCharsTxBuff.toNat = x.2.items.flatten

/-- An item is accepted only if the message is one for it, and changes nothing if it is
not; `fits` tells whether a message with this type set is for this type of item. -/
def AddLaw (fits : Option UInt8 → UInt8 → Prop) (c : Call) (x : State × Message) : Prop :=
  ∀ cmd item, c.item? = some (cmd, item) →
    (c.returned x.1 = true → fits x.2.cmd cmd) ∧ (c.returned x.1 = false → c.run x.1 = x.1)

/-- The type set by `mngLay_NewMsg`. -/
def TypeSet (set : Option UInt8) (cmd : UInt8) : Prop := set = some cmd

/-- The type set by `mngLay_NewMsg`; at first it is that of a query. -/
def TypeSetOrQuery (set : Option UInt8) (cmd : UInt8) : Prop := set.getD mngpPrimeGetqry = cmd

section Items

variable {s : State} {x : State × Message} {c : Call} {cmd : UInt8} {item : List UInt8}

/-- All five functions add an item. -/
theorem Call.addItem (h : c.item? = some (cmd, item)) :
    (c.returned s, c.run s) = MngLayer.addItem cmd item s := by
  cases c <;> cases h <;> rfl

theorem Call.returned_eq (h : c.item? = some (cmd, item)) :
    c.returned s = (MngLayer.addItem cmd item s).1 :=
  congrArg Prod.fst (Call.addItem h)

theorem Call.run_eq (h : c.item? = some (cmd, item)) : c.run s = (MngLayer.addItem cmd item s).2 :=
  congrArg Prod.snd (Call.addItem h)

/-- When an item is accepted, and what becomes of it. -/
theorem addItem_accepted (h : (addItem cmd item s).1 = true) :
    s.sxTxMsgUcPType = cmd ∧ s.sulNumCharsTxBuff.toNat + item.length < maxLengthTxBuffer
      ∧ (addItem cmd item s).2 = { s with
        pucBuffTx := s.pucBuffTx.storeList s.sulNumCharsTxBuff.toNat item
        sulNumCharsTxBuff := s.sulNumCharsTxBuff + UInt16.ofNat item.length } := by
  unfold addItem at h ⊢
  split_ifs at h ⊢ with htype hroom
  exact ⟨not_not.mp htype, not_le.mp hroom, rfl⟩

/-- An item that is refused changes nothing. -/
theorem addItem_refused (h : (addItem cmd item s).1 = false) : (addItem cmd item s).2 = s := by
  unfold addItem at h ⊢
  split_ifs at h ⊢
  · rfl
  · rfl

/-- What `mngLay_SendMsg` returns, and what becomes of the message. -/
theorem mngLaySendMsg_eq (appId : UInt8) (status : Usi.Status) (s : State) :
    mngLaySendMsg appId status s = (decide (status ≠ .protocolNotFound), { s with
      sucMngpIdReq := appId
      sulNumCharsTxBuff := if status = .protocolNotFound then s.sulNumCharsTxBuff else 0
      trace := s.trace
        ++ [.sendCmd (sxTxMsg s).fd (sxTxMsg s).ucPType (sxTxMsg s).pucBuf] }) := by
  unfold mngLaySendMsg
  by_cases h : status = .protocolNotFound
  · subst h
    rfl
  · rw [if_neg h, if_neg h, decide_eq_true h]
    rfl

/-! ## Along the calls -/

/-- What the calls keep, besides: the type, and that items have known types. -/
structure Building (x : State × Message) : Prop extends Built x where
  type : x.1.sxTxMsgUcPType = x.2.cmd.getD mngpPrimeGetqry
  known : x.1.sulNumCharsTxBuff ≠ 0 →
    Usi.usiProtId2idx x.1.sxTxMsgUcPType ≠ Usi.usiInvalidProtocolIdx

/-- The types of the items are known protocols. -/
theorem known_item (h : c.item? = some (cmd, item)) :
    Usi.usiProtId2idx cmd ≠ Usi.usiInvalidProtocolIdx := by
  cases c <;> cases h <;> decide

/-- An item behind the others. -/
theorem Building.addItem (h : Building x)
    (hknown : Usi.usiProtId2idx cmd ≠ Usi.usiInvalidProtocolIdx)
    (hacc : (MngLayer.addItem cmd item x.1).1 = true) :
    Building ((MngLayer.addItem cmd item x.1).2, { x.2 with items := x.2.items ++ [item] }) := by
  obtain ⟨htype, hroom, hrun⟩ := addItem_accepted hacc
  have hcount : (x.1.sulNumCharsTxBuff + UInt16.ofNat item.length).toNat
      = x.1.sulNumCharsTxBuff.toNat + item.length := by
    unfold maxLengthTxBuffer at hroom
    rw [UInt16.toNat_add, UInt16.toNat_ofNat']
    omega
  rw [hrun]
  refine ⟨⟨?_, ?_, ?_⟩, h.type, fun _ => ?_⟩
  · show (_ + _ : UInt16).toNat < _
    rwa [hcount]
  · exact Mem.top_storeList_le h.inside hroom.le
  · show Mem.slice _ 0 (_ + _ : UInt16).toNat = _
    have happend : (x.1.pucBuffTx.storeList (0 + x.1.sulNumCharsTxBuff.toNat) item).slice 0
        (x.1.sulNumCharsTxBuff.toNat + item.length) = x.2.items.flatten ++ item :=
      Mem.slice_storeList_append h.contents
    rw [Nat.zero_add] at happend
    rw [hcount, happend, List.flatten_append, List.flatten_singleton]
  · show Usi.usiProtId2idx x.1.sxTxMsgUcPType ≠ _
    rwa [htype]

/-- A message without items. -/
theorem Building.clear {s : State} {set : Option UInt8} (hcount : s.sulNumCharsTxBuff = 0)
    (hinside : s.pucBuffTx.top ≤ maxLengthTxBuffer)
    (htype : s.sxTxMsgUcPType = set.getD mngpPrimeGetqry) : Building (s, ⟨set, []⟩) := by
  refine ⟨⟨?_, hinside, ?_⟩, htype, fun hne => absurd hcount hne⟩
  · show s.sulNumCharsTxBuff.toNat < maxLengthTxBuffer
    rw [hcount]
    decide
  · show s.pucBuffTx.slice 0 s.sulNumCharsTxBuff.toNat = []
    rw [hcount]
    rfl

/-- **One call.** -/
theorem Building.call (h : Building x) (c : Call) :
    Building (c.run x.1, x.2.call c (c.returned x.1)) := by
  have hadd (cmd : UInt8) (item : List UInt8) (hitem : c.item? = some (cmd, item))
      (hcall : x.2.call c (c.returned x.1)
        = if c.returned x.1 then { x.2 with items := x.2.items ++ [item] } else x.2) :
      Building (c.run x.1, x.2.call c (c.returned x.1)) := by
    rw [hcall, Call.run_eq hitem, Call.returned_eq hitem]
    cases hacc : (MngLayer.addItem cmd item x.1).1 with
    | true => exact h.addItem (known_item hitem) hacc
    | false =>
        rw [addItem_refused hacc]
        exact h
  cases c with
  | newMsg cmd => exact .clear rfl h.inside rfl
  | addGetPibQuery => exact hadd _ _ rfl rfl
  | addSetPib => exact hadd _ _ rfl rfl
  | addResetStats => exact hadd _ _ rfl rfl
  | addFUMsg => exact hadd _ _ rfl rfl
  | addGetPibListEnQuery => exact hadd _ _ rfl rfl
  | sendMsg appId status =>
      show Building ((mngLaySendMsg appId status x.1).2,
        if (mngLaySendMsg appId status x.1).1 = true then { x.2 with items := [] } else x.2)
      rw [mngLaySendMsg_eq]
      dsimp only
      by_cases hstatus : status = .protocolNotFound
      · rw [if_pos hstatus, if_neg (by simpa using hstatus)]
        exact ⟨⟨h.room, h.inside, h.contents⟩, h.type, h.known⟩
      · rw [if_neg hstatus, if_pos (by simpa using hstatus)]
        exact .clear rfl h.inside h.type
  | setRspCallback => exact ⟨⟨h.room, h.inside, h.contents⟩, h.type, h.known⟩

theorem building_build (calls : List Call) (h : Building x) : Building (build calls x) := by
  induction calls generalizing x with
  | nil => exact h
  | cons c calls ih => exact ih (h.call c)

theorem building_noMessage (behindBuff : ℕ → UInt8) (behindCb : ℕ → Bool) :
    Building (noMessage behindBuff behindCb) :=
  .clear rfl (Nat.zero_le _) rfl

/-- An item is accepted by a message of its type. -/
theorem Building.addLaw (h : Building x) (c : Call) : AddLaw TypeSetOrQuery c x := by
  intro cmd item hitem
  rw [Call.returned_eq hitem, Call.run_eq hitem]
  constructor
  · intro hacc
    exact h.type.symm.trans (addItem_accepted hacc).1
  · exact addItem_refused

end Items

/-- **Building messages.**  After all calls, with all arguments: the buffer holds the items
accepted and is not exceeded, and the next item is accepted only by a message of its type,
where a message before the first `mngLay_NewMsg` is a query. -/
theorem mng_message_built (behindBuff : ℕ → UInt8) (behindCb : ℕ → Bool) (calls : List Call)
    (c : Call) :
    Built (build calls (noMessage behindBuff behindCb))
      ∧ AddLaw TypeSetOrQuery c (build calls (noMessage behindBuff behindCb)) := by
  have h := building_build calls (building_noMessage behindBuff behindCb)
  exact ⟨h.toBuilt, h.addLaw c⟩

/-- A query is accepted before any message has been begun. -/
theorem mng_query_without_message :
    ¬ ∀ (behindBuff : ℕ → UInt8) (behindCb : ℕ → Bool) (calls : List Call) (c : Call),
      Built (build calls (noMessage behindBuff behindCb))
        ∧ AddLaw TypeSet c (build calls (noMessage behindBuff behindCb)) := by
  intro hclaim
  have hset := ((hclaim (fun _ => 0) (fun _ => false) [] (.addGetPibQuery 0x0050 0)).2
    mngpPrimeGetqry [0x00, 0x50, 0x00] rfl).1 (by decide)
  exact absurd hset (by unfold TypeSet; decide)

/-! ## Sending -/

/-- `mngLay_SendMsg` tells whether the message has been sent, and keeps one that has not. -/
structure SendLaw (appId : UInt8) (status : Usi.Status) (s : State) : Prop where
  sent : (mngLaySendMsg appId status s).1 = true ↔ status = .ok
  kept : (mngLaySendMsg appId status s).1 = false →
    (mngLaySendMsg appId status s).2.sxTxMsgUcPType = s.sxTxMsgUcPType
      ∧ (mngLaySendMsg appId status s).2.pucBuffTx = s.pucBuffTx
      ∧ (mngLaySendMsg appId status s).2.sulNumCharsTxBuff = s.sulNumCharsTxBuff

section Sending

variable {appId : UInt8} {status : Usi.Status} {s : State} {w : Usi.Writes} {u u' : Usi.State}
  {ev : List Usi.Event}

/-- Two statuses are told apart, zero and the others. -/
theorem sendLaw_iff : SendLaw appId status s ↔ status = .ok ∨ status = .protocolNotFound := by
  have heq := mngLaySendMsg_eq appId status s
  constructor
  · intro h
    by_cases hzero : status = .protocolNotFound
    · exact Or.inr hzero
    · refine Or.inl (h.sent.mp ?_)
      rw [heq]
      exact decide_eq_true hzero
  · intro h
    refine ⟨?_, fun hfalse => ?_⟩
    · rw [heq, decide_eq_true_iff]
      rcases h with rfl | rfl <;> decide
    · rw [heq, decide_eq_false_iff_not, not_not] at hfalse
      rw [heq, if_pos hfalse]
      exact ⟨rfl, rfl, rfl⟩

theorem build_fst (calls : List Call) (x : State × Message) :
    (build calls x).1 = runCalls calls x.1 := by
  induction calls generalizing x with
  | nil => rfl
  | cons c calls ih => exact ih _

/-- A message that has been built is of a known protocol, or it is empty. -/
theorem status_ne_protocolNotFound {behindBuff : ℕ → UInt8} {behindCb : ℕ → Bool}
    {calls : List Call} (h : Usi.halUsiSendCmd w u
      (sxTxMsg (runCalls calls (mngLayInit behindBuff behindCb))) = some (u', status, ev)) :
    status ≠ .protocolNotFound := by
  have hknown := (building_build calls (building_noMessage behindBuff behindCb)).known
  rw [build_fst] at hknown
  intro hstatus
  obtain ⟨hlen, hunknown⟩ := (Usi.halUsiSendCmd_outcome h).2.1.mp hstatus
  refine hknown (fun hzero => hlen ?_) hunknown
  show (Mem.slice _ 0 _).length = 0
  rw [Mem.length_slice]
  exact congrArg UInt16.toNat hzero

/-- **Sending messages.**  For every message that has been built and every way in which
`hal_usi_send_cmd` ends: `mngLay_SendMsg` tells it right, and keeps the message if it has not
been sent, exactly if the message can be sent. -/
theorem mng_send_kept_iff {behindBuff : ℕ → UInt8} {behindCb : ℕ → Bool} {calls : List Call}
    (h : Usi.halUsiSendCmd w u (sxTxMsg (runCalls calls (mngLayInit behindBuff behindCb)))
      = some (u', status, ev)) :
    SendLaw appId status (runCalls calls (mngLayInit behindBuff behindCb))
      ↔ Usi.CanSend w u (sxTxMsg (runCalls calls (mngLayInit behindBuff behindCb))) := by
  rw [sendLaw_iff, ← Usi.halUsiSendCmd_ok_iff h]
  exact or_iff_left (status_ne_protocolNotFound h)

end Sending

/-- A query for one attribute. -/
def oneQuery : State :=
  runCalls [.newMsg mngpPrimeGetqry, .addGetPibQuery 0x0050 0]
    (mngLayInit (fun _ => 0) fun _ => false)

/-- The query is sent through the opened port, and the message is treated as it should be. -/
theorem mng_send_kept_query : ∃ u' ev,
    Usi.halUsiSendCmd .acceptAll (Usi.halUsiOpen 3 (.static (fun _ => 0) fun _ => 0))
      (sxTxMsg oneQuery) = some (u', .ok, ev)
      ∧ (SendLaw 3 .ok oneQuery ↔ Usi.CanSend .acceptAll
        (Usi.halUsiOpen 3 (.static (fun _ => 0) fun _ => 0)) (sxTxMsg oneQuery)) := by
  have hsent : (Usi.halUsiSendCmd .acceptAll (Usi.halUsiOpen 3 (.static (fun _ => 0) fun _ => 0))
      (sxTxMsg oneQuery)).map (fun r => r.2.1) = some .ok := by decide +kernel
  obtain ⟨⟨u', status, ev⟩, hrun, rfl⟩ := Option.map_eq_some_iff.mp hsent
  exact ⟨u', ev, hrun, mng_send_kept_iff hrun⟩

/-- A message without items is not sent, and counts as sent. -/
theorem mng_send_failure_lost :
    ¬ ∀ (behindBuff : ℕ → UInt8) (behindCb : ℕ → Bool) (calls : List Call) (appId : UInt8)
      (w : Usi.Writes) (u u' : Usi.State) (status : Usi.Status) (ev : List Usi.Event),
      Usi.halUsiSendCmd w u (sxTxMsg (runCalls calls (mngLayInit behindBuff behindCb)))
          = some (u', status, ev) →
        SendLaw appId status (runCalls calls (mngLayInit behindBuff behindCb)) := by
  intro hclaim
  have hlaw := hclaim (fun _ => 0) (fun _ => false) [.newMsg mngpPrimeReset] 3 .acceptAll
    (.static (fun _ => 0) fun _ => 0) _ .formatError [] rfl
  exact absurd (sendLaw_iff.mp hlaw) (by decide)

end MngLayer
