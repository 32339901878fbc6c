/-
# The two message lists

The lists of `dlmsotcp.c` are linked queues with a counter.  `State.Holds s fs ps` says
that the free list consists of the buffers `fs` and the pending list of the buffers
`ps`, and that these are all the buffers there are, each once.

Seen from outside, the pending list and the requests made so far are an `Outbox`: a
data message is accepted by it, a confirm and the timeout remove its first message.
-/
import PlcManager.Dlmsotcp
import PlcManager.LinkedQueue
import PlcManager.StopAndWait

namespace Dlmsotcp

/-! ## One list -/

/-- The links of the buffers. -/
def links (heap : ℕ → XDlmsMsg) (p : ℕ) : Option ℕ := (heap p).pxLink

/-- The buffers with other links. -/
def relink (heap : ℕ → XDlmsMsg) (link : ℕ → Option ℕ) (p : ℕ) : XDlmsMsg :=
  { heap p with pxLink := link p }

/-- The list without its counter. -/
def XDlmsMsgList.queue (l : XDlmsMsgList) : LinkedQueue ℕ := ⟨l.pxHead, l.pxTail⟩

/-- The list `l` consists of the buffers `ps` and counts them. -/
structure XDlmsMsgList.Holds (link : ℕ → Option ℕ) (l : XDlmsMsgList) (ps : List ℕ) : Prop where
  queue : LinkedQueue.Holds link l.queue ps
  count : l.usCount.toNat = ps.length

section OneList

variable {heap : ℕ → XDlmsMsg} {link : ℕ → Option ℕ} {l : XDlmsMsgList} {p : ℕ} {ps : List ℕ}

theorem XDlmsMsgList.Holds.count_eq_zero_iff (h : l.Holds link ps) : l.usCount = 0 ↔ ps = [] := by
  rw [← UInt16.toNat_inj, h.count]
  exact List.length_eq_zero_iff

theorem XDlmsMsgList.Holds.count_le_zero_iff (h : l.Holds link ps) : l.usCount ≤ 0 ↔ ps = [] := by
  rw [UInt16.le_iff_toNat_le, h.count]
  exact Nat.le_zero.trans List.length_eq_zero_iff

theorem XDlmsMsgList.Holds.count_pos_iff (h : l.Holds link ps) : 0 < l.usCount ↔ ps ≠ [] := by
  rw [UInt16.lt_iff_toNat_lt, h.count]
  exact List.length_pos_iff

theorem XDlmsMsgList.Holds.one_lt_count_iff (h : l.Holds link ps) :
    1 < l.usCount ↔ 1 < ps.length := by
  rw [UInt16.lt_iff_toNat_lt, h.count]
  exact Iff.rfl

theorem XDlmsMsgList.Holds.pxHead_cons (h : l.Holds link (p :: ps)) : l.pxHead = some p :=
  h.queue.chain.1

theorem XDlmsMsgList.Holds.pxHead_eq_none_iff (h : l.Holds link ps) : l.pxHead = none ↔ ps = [] :=
  h.queue.head_eq_none_iff

/-- `_dlms_msg_put` is the operation of linked queues. -/
theorem dlmsMsgPut_eq : dlmsMsgPut heap l (some p) =
    some (relink heap (LinkedQueue.putLink (links heap) l.queue p),
      ⟨(l.queue.put p).head, (l.queue.put p).tail, l.usCount + 1⟩) := by
  obtain ⟨head, tail, count⟩ := l
  cases tail with
  | none =>
      refine congrArg some (Prod.ext ?_ rfl)
      funext x
      by_cases hx : x = p
      · subst hx
        simp [relink, LinkedQueue.putLink, XDlmsMsgList.queue]
      · simp [relink, LinkedQueue.putLink, XDlmsMsgList.queue, Function.update_of_ne hx, links]
  | some t =>
      refine congrArg some (Prod.ext ?_ rfl)
      funext x
      by_cases ht : x = t
      · subst ht
        by_cases hx : x = p
        · subst hx
          simp [relink, LinkedQueue.putLink, XDlmsMsgList.queue]
        · simp [relink, LinkedQueue.putLink, XDlmsMsgList.queue, Function.update_of_ne hx]
      · by_cases hx : x = p
        · subst hx
          simp [relink, LinkedQueue.putLink, XDlmsMsgList.queue, Function.update_of_ne ht]
        · simp [relink, LinkedQueue.putLink, XDlmsMsgList.queue, Function.update_of_ne ht,
            Function.update_of_ne hx, links]

/-- Putting a buffer at the end of a list. -/
theorem XDlmsMsgList.Holds.put (h : l.Holds (links heap) ps) (hnd : (ps ++ [p]).Nodup)
    (hlen : ps.length < 65535) :
    ∃ link' l', dlmsMsgPut heap l (some p) = some (relink heap link', l')
      ∧ l'.Holds link' (ps ++ [p])
      ∧ ∀ (r : XDlmsMsgList) (qs : List ℕ), r.Holds (links heap) qs → p ∉ qs → (∀ x ∈ qs, x ∉ ps) →
        r.Holds link' qs := by
  refine ⟨_, _, dlmsMsgPut_eq, ⟨h.queue.put hnd, ?_⟩, ?_⟩
  · have hcount := h.count
    show (l.usCount + 1).toNat = (ps ++ [p]).length
    rw [UInt16.toNat_add, hcount, List.length_append]
    show (ps.length + 1) % 65536 = ps.length + 1
    omega
  · intro r qs hr hp hdisj
    exact ⟨hr.queue.frame_put h.queue hp hdisj, hr.count⟩

/-- Getting the first buffer of a list. -/
theorem XDlmsMsgList.Holds.get (h : l.Holds (links heap) (p :: ps)) :
    ∃ l', dlmsMsgGet heap l = (some p, l') ∧ l'.Holds (links heap) ps := by
  have hhead := h.pxHead_cons
  have hcount : (l.usCount - 1).toNat = ps.length := by
    have hc := h.count
    rw [List.length_cons] at hc
    have hpos : 1 ≤ l.usCount := by
      rw [UInt16.le_iff_toNat_le, hc]
      exact Nat.le_add_left 1 _
    rw [UInt16.toNat_sub_of_le _ _ hpos, hc]
    rfl
  have hq := h.queue.get
  simp only [LinkedQueue.get, XDlmsMsgList.queue, hhead] at hq
  unfold dlmsMsgGet
  simp only [hhead]
  cases hlink : (heap p).pxLink with
  | none =>
      simp only [links, hlink] at hq
      exact ⟨_, rfl, hq, hcount⟩
  | some x =>
      simp only [links, hlink] at hq
      exact ⟨_, rfl, hq, hcount⟩

/-- Getting from an empty list. -/
theorem XDlmsMsgList.Holds.get_nil (h : l.Holds (links heap) []) :
    dlmsMsgGet heap l = (none, l) := by
  have hhead := h.pxHead_eq_none_iff.mpr rfl
  have htail : l.pxTail = none := h.queue.tail_eq_none_iff.mpr rfl
  obtain ⟨head, tail, count⟩ := l
  obtain rfl : head = none := hhead
  obtain rfl : tail = none := htail
  rfl

end OneList

/-! ## Both lists -/

/-- The free list consists of the buffers `fs`, the pending list of the buffers `ps`. -/
structure State.Lists (s : State) (fs ps : List ℕ) : Prop where
  free : s.xFreeMessagesList.Holds (links s.heap) fs
  pending : s.xPendingCfmMessagesList.Holds (links s.heap) ps

/-- Every allocated buffer is in exactly one of the lists and once. -/
structure State.Holds (s : State) (fs ps : List ℕ) : Prop extends s.Lists fs ps where
  perm : (fs ++ ps).Perm (List.range maxMsgList)

section BothLists

variable {s s' : State} {f p : ℕ} {fs ps : List ℕ}

theorem State.Holds.nodup (h : s.Holds fs ps) : (fs ++ ps).Nodup :=
  h.perm.nodup_iff.mpr List.nodup_range

theorem State.Holds.length_add (h : s.Holds fs ps) : fs.length + ps.length = maxMsgList := by
  rw [← List.length_append, h.perm.length_eq, List.length_range]

/-- Only the lists and the links matter. -/
theorem State.Lists.congr (h : s.Lists fs ps) (hfree : s'.xFreeMessagesList = s.xFreeMessagesList)
    (hpending : s'.xPendingCfmMessagesList = s.xPendingCfmMessagesList)
    (hlinks : links s'.heap = links s.heap) : s'.Lists fs ps := by
  refine ⟨?_, ?_⟩
  · rw [hfree, hlinks]
    exact h.free
  · rw [hpending, hlinks]
    exact h.pending

theorem links_update {heap : ℕ → XDlmsMsg} {m : XDlmsMsg} (hm : m.pxLink = (heap p).pxLink) :
    links (Function.update heap p m) = links heap := by
  funext x
  by_cases hx : x = p
  · subst hx
    rw [links, Function.update_self, hm]
    rfl
  · rw [links, Function.update_of_ne hx]
    rfl

/-- A buffer in neither list may be written to. -/
theorem State.Lists.store (h : s.Lists fs ps) (hfs : p ∉ fs) (hps : p ∉ ps) (m : XDlmsMsg) :
    (s.store p m).Lists fs ps := by
  have hlinks : ∀ x, x ≠ p → links (Function.update s.heap p m) x = links s.heap x := by
    intro x hx
    rw [links, Function.update_of_ne hx]
    rfl
  exact ⟨⟨h.free.queue.congr fun x hx => hlinks x fun heq => hfs (heq ▸ hx), h.free.count⟩,
    ⟨h.pending.queue.congr fun x hx => hlinks x fun heq => hps (heq ▸ hx), h.pending.count⟩⟩

theorem State.Lists.getFree (h : s.Lists (f :: fs) ps) :
    ∃ l, s.getFree = (some f, { s with xFreeMessagesList := l })
      ∧ State.Lists { s with xFreeMessagesList := l } fs ps := by
  obtain ⟨l, hget, hl⟩ := h.free.get
  refine ⟨l, ?_, hl, h.pending⟩
  rw [State.getFree, hget]

theorem State.Lists.getFree_nil (h : s.Lists [] ps) : s.getFree = (none, s) := by
  rw [State.getFree, h.free.get_nil]

theorem State.Lists.getPending (h : s.Lists fs (p :: ps)) :
    ∃ l, s.getPending = (some p, { s with xPendingCfmMessagesList := l })
      ∧ State.Lists { s with xPendingCfmMessagesList := l } fs ps := by
  obtain ⟨l, hget, hl⟩ := h.pending.get
  refine ⟨l, ?_, h.free, hl⟩
  rw [State.getPending, hget]

theorem State.Lists.putFree (h : s.Lists fs ps) (hnd : (p :: (fs ++ ps)).Nodup)
    (hlen : fs.length < 65535) : ∃ link l,
      s.putFree (some p) = some { s with heap := relink s.heap link, xFreeMessagesList := l }
      ∧ State.Lists { s with heap := relink s.heap link, xFreeMessagesList := l }
          (fs ++ [p]) ps := by
  obtain ⟨hp, hrest⟩ := List.nodup_cons.mp hnd
  obtain ⟨hfs, -, hdisj⟩ := List.nodup_append.mp hrest
  obtain ⟨link, l, hput, hl, hframe⟩ := h.free.put (p := p)
    (List.nodup_append_comm.mp (List.nodup_cons.mpr
      ⟨fun hmem => hp (List.mem_append_left _ hmem), hfs⟩)) hlen
  refine ⟨link, l, ?_, hl, hframe _ ps h.pending (fun hmem => hp (List.mem_append_right _ hmem))
    fun x hx hxf => hdisj x hxf x hx rfl⟩
  rw [State.putFree, hput]
  rfl

theorem State.Lists.putPending (h : s.Lists fs ps) (hnd : (p :: (fs ++ ps)).Nodup)
    (hlen : ps.length < 65535) : ∃ link l,
      s.putPending (some p)
        = some { s with heap := relink s.heap link, xPendingCfmMessagesList := l }
      ∧ State.Lists { s with heap := relink s.heap link, xPendingCfmMessagesList := l }
          fs (ps ++ [p]) := by
  obtain ⟨hp, hrest⟩ := List.nodup_cons.mp hnd
  obtain ⟨-, hps, hdisj⟩ := List.nodup_append.mp hrest
  obtain ⟨link, l, hput, hl, hframe⟩ := h.pending.put (p := p)
    (List.nodup_append_comm.mp (List.nodup_cons.mpr
      ⟨fun hmem => hp (List.mem_append_right _ hmem), hps⟩)) hlen
  refine ⟨link, l, ?_, hframe _ fs h.free (fun hmem => hp (List.mem_append_left _ hmem))
    fun x hx hxp => hdisj x hx x hxp rfl, hl⟩
  rw [State.putPending, hput]
  rfl

end BothLists

/-! ## The module as a stop-and-wait sender -/

/-- The request that a buffer stands for. -/
def XDlmsMsg.request (m : XDlmsMsg) : DataRequest :=
  ⟨1, m.usLsap.toUInt8, m.usDst, m.data.slice 0 m.usLength.toNat, m.usLength, 0⟩

/-- The requests made so far. -/
def State.requests (s : State) : List DataRequest :=
  s.trace.filterMap fun
    | .dataRequest r => some r
    | _ => none

/-- The requests that the buffers `ps` stand for. -/
def State.requestsOf (s : State) (ps : List ℕ) : List DataRequest :=
  ps.map fun p => (s.heap p).request

/-- What the surroundings see of the lists, when the pending list consists of `ps`. -/
def State.outbox (s : State) (ps : List ℕ) : Outbox DataRequest := ⟨s.requestsOf ps, s.requests⟩

section Outbox

variable {s : State} {f p : ℕ} {fs ps : List ℕ} (clock : ℕ → ℕ)

theorem State.requests_emit (outs : List Output) :
    (s.emit outs).requests = s.requests ++ outs.filterMap fun
      | .dataRequest r => some r
      | _ => none := by
  rw [State.requests, State.emit, List.filterMap_append]
  rfl

@[simp] theorem State.emit_nil : s.emit [] = s := by
  rw [State.emit, List.append_nil]

/-- A change of a buffer that its request does not show. -/
theorem request_update {heap : ℕ → XDlmsMsg} {m : XDlmsMsg} (hm : m.request = (heap p).request)
    (x : ℕ) : (Function.update heap p m x).request = (heap x).request := by
  by_cases hx : x = p
  · subst hx
    rw [Function.update_self, hm]
  · rw [Function.update_of_ne hx]

theorem State.requestsOf_store {m : XDlmsMsg} (hm : m.request = (s.heap p).request) :
    (s.store p m).requestsOf ps = s.requestsOf ps :=
  List.map_congr_left fun x _ => request_update hm x

/-- Bytes copied to a buffer and read back. -/
theorem slice_storeList_slice {m m' : Mem UInt8} {n : ℕ} :
    (m.storeList 0 (m'.slice 0 n)).slice 0 n = m'.slice 0 n := by
  have h : (m.storeList 0 (m'.slice 0 n)).slice 0 (m'.slice 0 n).length = m'.slice 0 n :=
    Mem.slice_storeList
  rwa [Mem.length_slice] at h

theorem storeList_take_slice {m : Mem UInt8} {buf : List UInt8} {n : ℕ} (hlen : n ≤ buf.length) :
    (m.storeList 0 (buf.take n)).slice 0 n = buf.take n := by
  have h : (m.storeList 0 (buf.take n)).slice 0 (buf.take n).length = buf.take n :=
    Mem.slice_storeList
  rwa [List.length_take, Nat.min_eq_left hlen] at h

/-- `_send_queued_432_data` requests the first pending message. -/
theorem State.Lists.sendQueued (h : s.Lists fs (p :: ps)) :
    ∃ s', sendQueued432Data clock s = some s' ∧ s'.Lists fs (p :: ps)
      ∧ s'.outbox (p :: ps)
        = ⟨s.requestsOf (p :: ps), s.requests ++ (s.requestsOf (p :: ps)).head?.toList⟩ := by
  unfold sendQueued432Data
  simp only [h.pending.pxHead_cons]
  refine ⟨_, rfl, h.congr rfl rfl (links_update rfl), ?_⟩
  rw [State.outbox, State.requests_emit, slice_storeList_slice]
  refine congrArg₂ Outbox.mk ?_ rfl
  show (s.store p _).requestsOf (p :: ps) = s.requestsOf (p :: ps)
  exact State.requestsOf_store rfl

@[simp] theorem heap_sendAtOnce {usDest usDlmsLen : UInt16} :
    (sendAtOnce usDest usDlmsLen s).heap = s.heap := by
  unfold sendAtOnce
  split_ifs
  · rfl
  · rfl

theorem requests_sendAtOnce (h : s.Lists fs ps) {usDest usDlmsLen : UInt16} :
    (sendAtOnce usDest usDlmsLen s).requests
      = if ps.isEmpty then s.requests ++ [⟨1, s.dlms432Msg.lsap, usDest,
          s.dlms432Msg.buff.slice 0 usDlmsLen.toNat, usDlmsLen, 0⟩] else s.requests := by
  unfold sendAtOnce
  by_cases hps : ps = []
  · rw [if_pos (h.pending.count_eq_zero_iff.mpr hps), State.requests_emit, hps]
    rfl
  · rw [if_neg (mt h.pending.count_eq_zero_iff.mp hps), if_neg (by simpa using hps)]

theorem request_fillMessage {usDest usDlmsLen : UInt16} :
    ((fillMessage clock usDest usDlmsLen f s).heap f).request = ⟨1, s.dlms432Msg.lsap, usDest,
      s.dlms432Msg.buff.slice 0 usDlmsLen.toNat, usDlmsLen, 0⟩ := by
  show (Function.update s.heap f _ f).request = _
  rw [Function.update_self, XDlmsMsg.request, slice_storeList_slice, UInt8.toUInt8_toUInt16]

/-- A data message that finds a free buffer is accepted. -/
theorem State.Holds.queueMessage (h : s.Holds (f :: fs) ps) (usSource usDest usDlmsLen : UInt16)
    {buf : List UInt8} (hlen : usDlmsLen.toNat ≤ buf.length) :
    ∃ s', Dlmsotcp.queueMessage clock usSource usDest usDlmsLen buf s = some s'
      ∧ s'.Holds fs (ps ++ [f])
      ∧ s'.outbox (ps ++ [f]) = (s.outbox ps).accept ⟨1, (usSource &&& 0xff).toUInt8, usDest,
          buf.take usDlmsLen.toNat, usDlmsLen, 0⟩ := by
  have hsize := h.length_add
  obtain ⟨hf, -⟩ := List.nodup_cons.mp h.nodup
  obtain ⟨hf_fs, hf_ps⟩ := not_or.mp (mt List.mem_append.mpr hf)
  set s1 : State :=
    { s with
      dlms432Msg := ⟨(usSource &&& 0xff).toUInt8,
        s.dlms432Msg.buff.storeList 0 (buf.take usDlmsLen.toNat)⟩ } with hs1
  have h1 : s1.Lists (f :: fs) ps := h.toLists.congr rfl rfl rfl
  obtain ⟨free, hget, h2⟩ := h1.getFree
  set s2 : State := { s1 with xFreeMessagesList := free } with hs2
  have hbuff : s2.dlms432Msg.buff.slice 0 usDlmsLen.toNat = buf.take usDlmsLen.toNat :=
    storeList_take_slice hlen
  -- the buffer is filled while it is in neither list
  have h3 : (fillMessage clock usDest usDlmsLen f s2).Lists fs ps :=
    (h2.store hf_fs hf_ps _).congr rfl rfl rfl
  set s3 : State := fillMessage clock usDest usDlmsLen f s2 with hs3
  have h4 : (sendAtOnce usDest usDlmsLen s3).Lists fs ps := by
    unfold sendAtOnce
    split_ifs
    · exact h3.congr rfl rfl rfl
    · exact h3
  set s4 : State := sendAtOnce usDest usDlmsLen s3 with hs4
  obtain ⟨link, pending, hput, h5⟩ := h4.putPending h.nodup (by rw [maxMsgList] at hsize; omega)
  refine ⟨_, ?_, ⟨h5, ?_⟩, ?_⟩
  · unfold Dlmsotcp.queueMessage readBytes
    rw [if_pos hlen, Option.bind_some]
    simp only [← hs1, hget]
    exact hput
  · rw [← List.append_assoc]
    exact (List.perm_append_singleton f (fs ++ ps)).trans h.perm
  · have hrequest : (s3.heap f).request = ⟨1, (usSource &&& 0xff).toUInt8, usDest,
        buf.take usDlmsLen.toNat, usDlmsLen, 0⟩ := by
      rw [hs3, request_fillMessage, hbuff]
    have hkeep : s3.requestsOf ps = s.requestsOf ps := by
      apply List.map_congr_left
      intro x hx
      show (Function.update s.heap f _ x).request = (s.heap x).request
      rw [Function.update_of_ne (fun heq => hf_ps (by rw [← heq]; exact hx))]
    have hwaiting : s4.requestsOf (ps ++ [f]) = s.requestsOf ps ++ [(s3.heap f).request] := by
      rw [← hkeep]
      simp [State.requestsOf, hs4]
    rw [← hrequest]
    apply congrArg₂ Outbox.mk hwaiting
    show s4.requests = if (s.requestsOf ps).isEmpty then _ else _
    rw [hs4, requests_sendAtOnce h3, hrequest, ← hbuff, State.requestsOf, List.isEmpty_map]
    rfl

/-- With no free buffer the NULL pointer is put to the free list. -/
theorem State.Holds.queueMessage_full (h : s.Holds [] ps) {usSource usDest usDlmsLen : UInt16}
    {buf : List UInt8} : Dlmsotcp.queueMessage clock usSource usDest usDlmsLen buf s = none := by
  unfold Dlmsotcp.queueMessage
  cases readBytes buf usDlmsLen.toNat with
  | none => rfl
  | some bytes =>
      have h1 : State.Lists
          { s with
            dlms432Msg := ⟨(usSource &&& 0xff).toUInt8, s.dlms432Msg.buff.storeList 0 bytes⟩ }
          [] ps := h.toLists.congr rfl rfl rfl
      simp only [Option.bind_some, h1.getFree_nil]
      rfl

/-- A confirm that finds nothing pending. -/
theorem State.Holds.confirm_nil (h : s.Holds fs []) {ucDstLsap ucSrcLsap ucTxStatus : UInt8}
    {usDstAddress : UInt16} :
    step clock (.confirm ucDstLsap ucSrcLsap usDstAddress ucTxStatus) s = some s := by
  rw [step, dlmsotcpCl432DlDataCfmCb, if_pos (h.pending.count_le_zero_iff.mpr rfl)]

/-- The first pending message goes to the end of the free list. -/
theorem State.Holds.perm_recycle (h : s.Holds fs (p :: ps)) :
    ((fs ++ [p]) ++ ps).Perm (List.range maxMsgList) := by
  rw [List.append_assoc]
  exact h.perm

/-- A confirm removes the first pending message. -/
theorem State.Holds.confirm_cons (h : s.Holds fs (p :: ps)) {ucDstLsap ucSrcLsap ucTxStatus : UInt8}
    {usDstAddress : UInt16} :
    ∃ s', step clock (.confirm ucDstLsap ucSrcLsap usDstAddress ucTxStatus) s = some s'
      ∧ s'.Holds (fs ++ [p]) ps ∧ s'.outbox ps = (s.outbox (p :: ps)).remove := by
  have hsize := h.length_add
  have hnd : (p :: (fs ++ ps)).Nodup := List.nodup_middle.mp h.nodup
  obtain ⟨hp, -⟩ := List.nodup_cons.mp hnd
  obtain ⟨hp_fs, hp_ps⟩ := not_or.mp (mt List.mem_append.mpr hp)
  obtain ⟨pending, hget, h1⟩ := h.getPending
  set s1 : State := { s with xPendingCfmMessagesList := pending }
  set pxMsg : XDlmsMsg := { s1.heap p with uiTimestamp := 0, usRetries := 0, pxLink := none }
  obtain ⟨link, free, hput, h2⟩ := (h1.store hp_fs hp_ps pxMsg).putFree hnd
    (by rw [maxMsgList] at hsize; omega)
  rw [step, dlmsotcpCl432DlDataCfmCb,
    if_neg (fun hle => List.cons_ne_nil p ps (h.pending.count_le_zero_iff.mp hle))]
  simp only [hget]
  change ∃ s', ((s1.store p pxMsg).putFree (some p)).bind _ = some s' ∧ _
  rw [hput, Option.bind_some]
  set s2 : State :=
    { s1.store p pxMsg with
      heap := relink (s1.store p pxMsg).heap link
      xFreeMessagesList := free }
  have hkeep : s2.requestsOf ps = s.requestsOf ps := by
    show (s1.store p pxMsg).requestsOf ps = s1.requestsOf ps
    exact State.requestsOf_store rfl
  -- the next message is requested if there is one
  by_cases hps : ps = []
  · subst hps
    rw [if_neg (fun hpos => (h2.pending.count_pos_iff.mp hpos) rfl)]
    refine ⟨s2, rfl, ⟨h2, h.perm_recycle⟩, ?_⟩
    apply congrArg₂ Outbox.mk rfl
    rw [State.outbox, State.requestsOf]
    simp
    rfl
  · rw [if_pos (h2.pending.count_pos_iff.mpr hps)]
    obtain ⟨q, qs, rfl⟩ := List.exists_cons_of_ne_nil hps
    obtain ⟨s3, hsend, h3, hout⟩ := h2.sendQueued clock
    refine ⟨s3, hsend, ⟨h3, h.perm_recycle⟩, ?_⟩
    rw [hout, hkeep]
    rfl

/-- The check of the pending queue removes the first message, or changes nothing that
can be seen. -/
theorem State.Holds.checkPendingQueue (h : s.Holds fs ps) :
    ∃ s', Dlmsotcp.checkPendingQueue clock s = some s' ∧
      ((s'.Holds fs ps ∧ s'.outbox ps = s.outbox ps) ∨
        ∃ p qs, ps = p :: qs ∧ qs ≠ [] ∧ s'.Holds (fs ++ [p]) qs
          ∧ s'.outbox qs = (s.outbox ps).remove) := by
  unfold Dlmsotcp.checkPendingQueue
  by_cases hone : 1 < s.xPendingCfmMessagesList.usCount
  swap
  · rw [if_neg hone]
    exact ⟨s, rfl, Or.inl ⟨h, rfl⟩⟩
  rw [if_pos hone]
  have hlong := h.pending.one_lt_count_iff.mp hone
  obtain ⟨p, qs, rfl⟩ := List.exists_cons_of_ne_nil
    (show ps ≠ [] from List.ne_nil_of_length_pos (by omega))
  have hqs : qs ≠ [] := by
    rintro rfl
    simp at hlong
  simp only [h.pending.pxHead_cons]
  split_ifs
  · have hsize := h.length_add
    have hnd : (p :: (fs ++ qs)).Nodup := List.nodup_middle.mp h.nodup
    have h1 : s.tick.Lists fs (p :: qs) := h.toLists.congr rfl rfl rfl
    obtain ⟨pending, hget, h2⟩ := h1.getPending
    set s2 : State := { s.tick with xPendingCfmMessagesList := pending }
    obtain ⟨link, free, hput, h3⟩ := h2.putFree hnd (by rw [maxMsgList] at hsize; omega)
    set s3 : State := { s2 with heap := relink s2.heap link, xFreeMessagesList := free }
    obtain ⟨q, qs, rfl⟩ := List.exists_cons_of_ne_nil hqs
    simp only [hget, hput, Option.bind_some]
    set text : Output := .printf timeoutText
      [(s.time clock - (s.heap p).uiTimestamp).toNat, s3.xPendingCfmMessagesList.usCount.toNat]
    obtain ⟨s4, hsend, h4, hout⟩ :=
      (show (s3.emit [text]).Lists (fs ++ [p]) (q :: qs) from h3.congr rfl rfl rfl).sendQueued
        clock
    refine ⟨s4, hsend, Or.inr ⟨p, q :: qs, rfl, hqs, ⟨h4, h.perm_recycle⟩, ?_⟩⟩
    have htext : (s3.emit [text]).requests = s.requests := by
      rw [State.requests_emit]
      exact List.append_nil _
    rw [hout, htext]
    rfl
  · exact ⟨s.tick, rfl, Or.inl ⟨⟨h.toLists.congr rfl rfl rfl, h.perm⟩, rfl⟩⟩

end Outbox

end Dlmsotcp
