/-
# What has been accepted can be sent

`dlmsotcp_RxProcess` accepts data messages of fewer than `MAX_LENGTH_432_DATA` bytes, and
its bound is also the size of `uc_serial_buf`.  The serialisation of a request has eight
bytes more, and its frame has a header, a CRC, two marks and the escapes besides, all of
which the transmit buffer of the serial line must hold.
-/
import PlcManager.DlmsotcpConfirm
import PlcManager.DlmsotcpParsing
import PlcManager.PrimeApiRequests
import PlcManager.UsiSend

namespace Dlmsotcp

/-! ## Requests on the serial line -/

/-- `prime_cl_432_dl_data_request` with the arguments of a request. -/
def DataRequest.write (r : DataRequest) (ucSerialBuf : Mem UInt8) : Pen :=
  PrimeApi.Serial.primeCl432DlDataRequest (.start ucSerialBuf) r.ucDstLsap r.ucSrcLsap
    r.usDstAddress r.lsdu r.usLsduLen r.ucLinkClass

/-- The command that it hands to `hal_usi_send_cmd`, when `contents` was in the buffer. -/
def DataRequest.command (r : DataRequest) (contents : ℕ → UInt8) : Usi.XUsiCmd :=
  PrimeApi.primeApiMsg (r.write (.init contents))

/-- The bytes that a request stands for. -/
def DataRequest.serialised (r : DataRequest) : List UInt8 :=
  0x37 :: r.ucDstLsap :: r.ucSrcLsap :: (Layout.wordBytes r.usDstAddress
    ++ Layout.wordBytes r.usLsduLen ++ r.lsdu ++ [r.ucLinkClass])

/-- The line is ready for a message: all of the transmit buffer is free. -/
structure Ready (u : Usi.State) : Prop where
  idle : u.usIdxIn = 0
  size : u.txUsSize = Usi.txauxSize

/-- A request is built inside `uc_serial_buf`, whatever was in it, and goes out as one frame
when `write` accepts all bytes. -/
structure Sendable (r : DataRequest) (contents : ℕ → UInt8) (u : Usi.State) : Prop where
  inside : (r.write (.init contents)).mem.top ≤ PrimeApi.maxLength432Data
  sent : ∃ u', Usi.halUsiSendCmd .acceptAll u (r.command contents)
    = some (u', .ok, [.write u.portFd (Usi.frame Usi.protocolPrimeApi r.serialised)])

/-- The transmit buffer holds the two marks, the header, the eight bytes around the data,
the CRC and one more byte for each that is escaped. -/
def FitsLine (r : DataRequest) : Prop :=
  r.lsdu.length + 13 + (Usi.body Usi.protocolPrimeApi r.serialised).countP
    (fun b => Usi.usiEscapes.Special b) ≤ Usi.txauxSize

instance (r : DataRequest) : Decidable (FitsLine r) := inferInstanceAs (Decidable (_ ≤ _))

/-- A line that is ready is ready again after each command, sent or refused. -/
theorem Ready.send {u u' : Usi.State} {msg : Usi.XUsiCmd} {st : Usi.Status}
    {ev : List Usi.Event} (hu : Ready u)
    (h : Usi.halUsiSendCmd .acceptAll u msg = some (u', st, ev)) : Ready u' := by
  have hsize := hu.size.le
  by_cases hne : msg.usLen = 0
  · unfold Usi.halUsiSendCmd at h
    rw [if_pos hne] at h
    cases h
    exact hu
  by_cases hknown : Usi.usiProtId2idx msg.ucPType = Usi.usiInvalidProtocolIdx
  · unfold Usi.halUsiSendCmd at h
    rw [if_neg hne, if_pos hknown] at h
    cases h
    exact hu
  have hbuf : msg.pucBuf ≠ [] := fun hnil => hne (congrArg List.length hnil)
  rw [Usi.halUsiSendCmd_eq hu.idle hsize hne hknown] at h
  split_ifs at h with hfirst
  · cases h
    exact hu
  · by_cases hfit : msg.frame.length ≤ u.txUsSize
    · obtain ⟨m', hsend⟩ := Usi.usiEncodeAndSend_acceptAll hu.idle hsize hbuf hfit
      rw [hsend] at h
      cases h
      exact ⟨rfl, hu.size⟩
    · have hlen : msg.usLen + 7 < 65536 := by
        unfold Usi.txauxSize at hsize
        unfold Usi.minOverhead at hfirst
        omega
      obtain ⟨m', hsend⟩ := Usi.usiEncodeAndSend_of_overflow (w := .acceptAll) hu.idle hsize hbuf
        hlen (not_le.mp hfit)
      rw [hsend] at h
      cases h
      exact ⟨hu.idle, hu.size⟩

/-! ## The serialisation -/

section Serialisation

variable {m : Message} {contents : ℕ → UInt8} {u : Usi.State}

theorem length_serialised (r : DataRequest) : r.serialised.length = r.lsdu.length + 8 := by
  simp [DataRequest.serialised, Layout.wordBytes]

theorem text_write (m : Message) (buf : Mem UInt8) :
    (m.request.write buf).text = m.request.serialised := by
  have hlen : m.payload.length = m.len.toNat := m.toNat_len.symm
  simp [DataRequest.write, PrimeApi.Serial.primeCl432DlDataRequest, DataRequest.serialised,
    Message.request, hlen]

theorem within_write (r : DataRequest) (contents : ℕ → UInt8) :
    (r.write (.init contents)).Within := by
  unfold DataRequest.write PrimeApi.Serial.primeCl432DlDataRequest PrimeApi.Serial.block
    PrimeApi.Serial.word
  exact Pen.within_start.byte.byte.byte.byte.byte.byte.byte.block.byte

/-- The serialisation reaches eight bytes further than the data is long. -/
theorem top_write (m : Message) (contents : ℕ → UInt8) :
    (m.request.write (.init contents)).mem.top = m.payload.length + 8 := by
  have hbehind : (m.request.write (.init contents)).Behind := Pen.behind_byte
  rw [(within_write _ _).top_eq hbehind, text_write, length_serialised]
  rfl

/-- What is handed over is the serialisation, whatever was in the buffer. -/
theorem pucBuf_primeApiMsg (m : Message) (buf : Mem UInt8) :
    (PrimeApi.primeApiMsg (m.request.write buf)).pucBuf = m.request.serialised := by
  have hpos : (m.request.write buf).pos = m.payload.length + 8 := by
    rw [← Pen.length_text, text_write, length_serialised]
    rfl
  have hlt := m.length_lt
  unfold maxLength432Data at hlt
  have hnat : (UInt16.ofNat (m.payload.length + 8)).toNat = m.payload.length + 8 :=
    UInt16.toNat_ofNat_of_lt' (lt_of_lt_of_le (by omega) (show 1029 ≤ UInt16.size by decide))
  change Mem.slice _ 0 (UInt16.ofNat _).toNat = _
  rw [hpos, hnat, ← hpos, ← text_write m buf]
  rfl

theorem pucBuf_command (m : Message) (contents : ℕ → UInt8) :
    (m.request.command contents).pucBuf = m.request.serialised := pucBuf_primeApiMsg m _

theorem usLen_command (m : Message) (contents : ℕ → UInt8) :
    (m.request.command contents).usLen = m.payload.length + 8 := by
  rw [Usi.XUsiCmd.usLen, pucBuf_command, length_serialised]
  rfl

/-! ## The frame -/

/-- The extended bit of the length is not needed for what the transmit buffer can hold. -/
theorem frame_command (m : Message) (contents : ℕ → UInt8) (hlen : m.payload.length + 8 < 1024) :
    (m.request.command contents).frame
      = Usi.frame Usi.protocolPrimeApi m.request.serialised := by
  have hcmd : 0 + Usi.cmdProtocol 0x37 = 0x37 := by decide
  have hpayload : (m.request.command contents).wirePayload = m.request.serialised := by
    unfold Usi.XUsiCmd.wirePayload
    rw [usLen_command, pucBuf_command, Usi.lenExProtocol_of_lt hlen, DataRequest.serialised,
      List.headD_cons, List.tail_cons, hcmd]
    exact if_pos rfl
  rw [Usi.XUsiCmd.frame, hpayload]
  rfl

theorem length_frame_serialised (r : DataRequest) :
    (Usi.frame Usi.protocolPrimeApi r.serialised).length = r.lsdu.length + 13
      + (Usi.body Usi.protocolPrimeApi r.serialised).countP
        (fun b => Usi.usiEscapes.Special b) := by
  have hcrc : Usi.crcLen Usi.protocolPrimeApi = 1 := rfl
  rw [Usi.frame, Usi.usiEscapes.length_delimit, Usi.usiEscapes.length_stuff, Usi.length_body,
    length_serialised, hcrc]
  omega

/-- The request of a message is sendable exactly if its frame fits the transmit buffer. -/
theorem sendable_request_iff (hu : Ready u) :
    Sendable m.request contents u ↔ FitsLine m.request := by
  have husLen := usLen_command m contents
  have hne : (m.request.command contents).usLen ≠ 0 := by omega
  have hbuf : (m.request.command contents).pucBuf ≠ [] := fun hnil =>
    hne (congrArg List.length hnil)
  have hlength := length_frame_serialised m.request
  have hsize := hu.size
  constructor
  · rintro ⟨-, u', hsent⟩
    obtain ⟨-, -, hfit, -⟩ := Usi.of_halUsiSendCmd_ok hu.idle hsize.le hsent
    have hmin := Usi.XUsiCmd.le_length_frame hbuf
    have hshort : m.payload.length + 8 < 1024 := by
      unfold Usi.txauxSize at hfit
      omega
    rw [frame_command m contents hshort, hlength] at hfit
    exact hfit
  · intro hfits
    have hdata : m.payload.length + 13 ≤ 1000 := le_trans (Nat.le_add_right _ _) hfits
    have hframe := frame_command m contents (by omega)
    constructor
    · rw [top_write]
      unfold PrimeApi.maxLength432Data
      omega
    · have hknown : Usi.usiProtId2idx (m.request.command contents).ucPType
          ≠ Usi.usiInvalidProtocolIdx :=
        show Usi.usiProtId2idx Usi.protocolPrimeApi ≠ Usi.usiInvalidProtocolIdx by decide
      obtain ⟨u', hsent⟩ := Usi.halUsiSendCmd_of_fits hu.idle hsize.le hne hknown
        (by rw [hframe, hlength, hsize]; exact hfits)
      have hfd : (m.request.command contents).fd < 0 := show (-1 : ℤ) < 0 by decide
      rw [if_pos hfd, hframe] at hsent
      exact ⟨u', hsent⟩

end Serialisation

/-! ## Accepted messages -/

/-- The requests made and to be made belong to messages that have been accepted. -/
def Accepts (s : State) : Prop :=
  ∃ accepted, s.Ordered accepted ∧ ∀ r ∈ accepted, ∃ m : Message, m.request = r

section Accepted

variable {clock : ℕ → ℕ} {s : State} {w w' : Server} {e : ServerEvent} {r : DataRequest}
  {accepted : List DataRequest}

theorem State.Ordered.conserved (h : s.Ordered accepted) : s.Conserved := by
  obtain ⟨fs, ps, h, -⟩ := h
  exact h.conserved

theorem State.Ordered.of_sameLists {t : State} (h : s.Ordered accepted) (hsame : s.SameLists t) :
    t.Ordered accepted := by
  obtain ⟨fs, ps, h, horder⟩ := h
  refine ⟨fs, ps, hsame.holds h, ?_⟩
  rwa [hsame.outbox]

/-- The requests made and to be made are those of the accepted messages. -/
theorem State.Ordered.mem_iff (h : s.Ordered accepted) :
    r ∈ s.requests ++ s.pendingRequests ↔ r ∈ accepted := by
  obtain ⟨fs, ps, h, horder⟩ := h
  rw [h.pendingRequests_eq, List.mem_append]
  exact horder.mem_iff

theorem exists_message_of_mem_requests (h : ∃ e : Event, r ∈ e.requests) :
    ∃ m : Message, m.request = r := by
  obtain ⟨e, hr⟩ := h
  cases e with
  | packet fd buf =>
      obtain ⟨m, -, hm⟩ := List.mem_flatMap.mp hr
      unfold Message.requests at hm
      split_ifs at hm
      · exact ⟨m, (List.mem_singleton.mp hm).symm⟩
      · cases hm
  | confirm ucDstLsap ucSrcLsap usDstAddress ucTxStatus => cases hr

/-- Every event that comes to its end keeps this. -/
theorem Accepts.step (h : Accepts w.core) (hw : serverStep clock e w = some w') :
    Accepts w'.core := by
  obtain ⟨accepted, horder, hmessages⟩ := h
  by_cases hcore : ∀ e', e ≠ .core e'
  · exact ⟨accepted, horder.of_sameLists (serverStep_sameLists hcore hw), hmessages⟩
  · push Not at hcore
    obtain ⟨e, rfl⟩ := hcore
    obtain ⟨t, ht, rfl⟩ := Option.map_eq_some_iff.mp hw
    have hbuffers := findsBuffers_of_step horder.conserved ht
    obtain ⟨t', ht', horder'⟩ := horder.step clock hbuffers
    obtain rfl : t = t' := Option.some.inj (ht.symm.trans ht')
    refine ⟨accepted ++ e.requests, horder', fun r hr => ?_⟩
    rcases List.mem_append.mp hr with hr | hr
    · exact hmessages r hr
    · exact exists_message_of_mem_requests ⟨e, hr⟩

theorem accepts_of_run {evs : List ServerEvent} (h : Accepts w.core)
    (hrun : runSteps (serverStep clock) evs w = some w') : Accepts w'.core := by
  induction evs generalizing w with
  | nil => rwa [← Option.some.inj hrun]
  | cons e evs ih =>
      obtain ⟨u, hu, hrest⟩ := Option.bind_eq_some_iff.mp hrun
      exact ih (h.step hu) hrest

theorem accepts_started (appId : ℤ) (memory : ℕ → XDlmsMsg) (behind : ℕ → ConnectedNode) :
    Accepts (serverStarted appId memory behind).core :=
  ⟨[], ordered_started appId memory behind, fun _ hr => absurd hr List.not_mem_nil⟩

end Accepted

/-- **Accepted means sendable.**  A message that has been accepted in some run can be sent on
a line that is ready exactly if its frame fits the transmit buffer. -/
theorem dlmsotcp_accepted_sendable_iff {clock : ℕ → ℕ} {appId : ℤ} {memory : ℕ → XDlmsMsg}
    {behind : ℕ → ConnectedNode} {evs : List ServerEvent} {w : Server}
    (hrun : runSteps (serverStep clock) evs (serverStarted appId memory behind) = some w)
    {r : DataRequest} (hr : r ∈ w.core.requests ++ w.core.pendingRequests)
    (contents : ℕ → UInt8) {u : Usi.State} (hu : Ready u) :
    Sendable r contents u ↔ FitsLine r := by
  obtain ⟨accepted, horder, hmessages⟩ :=
    accepts_of_run (accepts_started appId memory behind) hrun
  obtain ⟨m, rfl⟩ := hmessages r (horder.mem_iff.mp hr)
  exact sendable_request_iff hu

/-- A data message for node 3 of `n` zero bytes. -/
def zerosMessage (n : ℕ) (hn : n < maxLength432Data) : Message :=
  ⟨2, 3, List.replicate n 0, by rwa [List.length_replicate]⟩

theorem isData_zerosMessage (n : ℕ) (hn : n < maxLength432Data) : (zerosMessage n hn).IsData := by
  rintro ⟨-, hdest, -⟩
  exact absurd hdest (show ¬ (3 : UInt16) = 0 by decide)

/-- A data message is accepted when it comes first. -/
theorem accepted_first (clock : ℕ → ℕ) (appId fd : ℤ) (memory : ℕ → XDlmsMsg)
    (behind : ℕ → ConnectedNode) {m : Message} (hm : m.IsData) :
    ∃ w, runSteps (serverStep clock) [.core (.packet fd m.encode)]
        (serverStarted appId memory behind) = some w
      ∧ m.request ∈ w.core.requests ++ w.core.pendingRequests := by
  have hmessages : messages m.encode = [m] := by
    have hone : encodeAll [m] = m.encode := by rw [encodeAll_cons, encodeAll_nil, List.append_nil]
    rw [← hone]
    exact messages_encodeAll
  have hbuffers : EachMessage clock FindsBuffer (.packet fd m.encode)
      (started appId memory behind) := by
    change AlongSteps _ _ (messages m.encode) _
    rw [hmessages]
    refine ⟨fun _ hnone => ?_, fun _ _ => trivial⟩
    have hempty := (holds_started appId memory behind).free.pxHead_eq_none_iff.mp hnone
    cases hempty
  obtain ⟨t, ht, horder⟩ := (ordered_started appId memory behind).step clock hbuffers
  refine ⟨{ serverStarted appId memory behind with core := t }, ?_, ?_⟩
  · rw [runSteps_cons, serverStep, serverStarted, ht]
    rfl
  · rw [horder.mem_iff, List.nil_append, Event.requests, hmessages, List.flatMap_singleton,
      Message.requests, if_pos hm]
    exact List.mem_singleton.mpr rfl

theorem ready_opened (fd : ℤ) : Ready (Usi.opened fd (fun _ => 0) (fun _ => 0) []) := ⟨rfl, rfl⟩

/-- A message of 1020 bytes is accepted, and neither buffer holds it. -/
theorem dlmsotcp_accepted_not_sendable :
    ¬ ∀ (clock : ℕ → ℕ) (appId : ℤ) (memory : ℕ → XDlmsMsg) (behind : ℕ → ConnectedNode)
      (evs : List ServerEvent) (w : Server),
      runSteps (serverStep clock) evs (serverStarted appId memory behind) = some w →
      ∀ r ∈ w.core.requests ++ w.core.pendingRequests, ∀ (contents : ℕ → UInt8) (u : Usi.State),
        Ready u → Sendable r contents u := by
  intro hclaim
  have hlen : 1020 < maxLength432Data := by decide
  obtain ⟨w, hrun, hr⟩ := accepted_first (fun _ => 0) 3 7 zeroMemory zeroNodes
    (isData_zerosMessage 1020 hlen)
  have hinside := (hclaim _ _ _ _ _ w hrun _ hr (fun _ => 0) _ (ready_opened 3)).inside
  rw [top_write] at hinside
  change (List.replicate 1020 (0 : UInt8)).length + 8 ≤ 1021 at hinside
  rw [List.length_replicate] at hinside
  omega

theorem one_lt_maxLength432Data : 1 < maxLength432Data := by decide

/-- A message of one byte is sendable. -/
theorem dlmsotcp_accepted_sendable_one : ∃ w,
    runSteps (serverStep fun _ => 0)
        [.core (.packet 7 (zerosMessage 1 one_lt_maxLength432Data).encode)]
        (serverStarted 3 zeroMemory zeroNodes) = some w
      ∧ Sendable (zerosMessage 1 one_lt_maxLength432Data).request (fun _ => 0)
        (Usi.opened 3 (fun _ => 0) (fun _ => 0) []) := by
  obtain ⟨w, hrun, hr⟩ := accepted_first (fun _ => 0) 3 7 zeroMemory zeroNodes
    (isData_zerosMessage 1 one_lt_maxLength432Data)
  refine ⟨w, hrun, ?_⟩
  rw [dlmsotcp_accepted_sendable_iff hrun hr (fun _ => 0) (ready_opened 3)]
  decide +kernel

end Dlmsotcp
