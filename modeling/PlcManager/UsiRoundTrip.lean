/-
# The serial stream round trip

Commands are encoded and written one after the other; the bytes are read by the
receiver in pieces of any size.  As long as fewer bytes are pending than the buffer
holds, every command reaches its callback once and in order, and nothing else does.

On such a stream the pending bytes always begin with the opening mark of a frame.
So the first two marks found are those of one frame, its length is right, and the
branch that keeps a closing mark is never taken.
-/
import PlcManager.UsiRuns

namespace Usi

/-! ## The sending side -/

/-- Send one command after the other with `_usi_encode_and_send`. -/
def sendAll (w : Writes) : List XUsiCmd → State → Option (State × List Event)
  | [], s => some (s, [])
  | msg :: msgs, s =>
      (usiEncodeAndSend w s msg).bind fun r =>
        (sendAll w msgs r.1).map fun t => (t.1, r.2.2 ++ t.2)

/-- The commands of the round trip: one of the received protocols, a payload, no
extended length bit in the way, and a frame that fits the transmit buffer. -/
structure XUsiCmd.Sendable (msg : XUsiCmd) : Prop where
  protocol : msg.ucPType ∈ receivedProtocols
  nonempty : msg.pucBuf ≠ []
  head_lt : msg.ucPType = protocolPrimeApi → msg.pucBuf.headD 0 < 0x80
  fits : msg.frame.length ≤ txauxSize

/-- What the callback of a command is handed: its payload, for management messages
behind the two header bytes. -/
def XUsiCmd.delivery (msg : XUsiCmd) : ℕ × List UInt8 :=
  (usiProtId2idx msg.ucPType,
    if msg.ucPType ∈ mngpProtocols then header msg.ucPType msg.usLen ++ msg.pucBuf
    else msg.pucBuf)

namespace XUsiCmd.Sendable

variable {msg : XUsiCmd}

theorem usLen_lt (h : msg.Sendable) : msg.usLen < 1024 := by
  have h1 := XUsiCmd.le_length_frame h.nonempty
  have h2 := h.fits
  unfold txauxSize at h2
  omega

/-- Short payloads go on the wire unchanged. -/
theorem wirePayload_eq (h : msg.Sendable) : msg.wirePayload = msg.pucBuf := by
  unfold XUsiCmd.wirePayload
  split_ifs with hp
  · obtain ⟨b, bs, hb⟩ := List.exists_cons_of_ne_nil h.nonempty
    have hlt := h.head_lt hp
    rw [hb, List.headD_cons] at hlt
    -- a payload that fits the buffer is too short for the eleventh length bit
    have hex : lenExProtocol msg.usLen = 0 := lenExProtocol_of_lt h.usLen_lt
    have hcmd : cmdProtocol b = b := by
      apply UInt8.toNat_inj.mp
      rw [toNat_cmdProtocol]
      exact Nat.mod_eq_of_lt hlt
    rw [hb, List.headD_cons, List.tail_cons, hex, hcmd]
    simp
  · rfl

/-- A sendable command is a valid message. -/
def toMsg (h : msg.Sendable) : UsiMsg where
  ucType := msg.ucPType
  payload := msg.pucBuf
  type_mem := h.protocol
  length_lt := h.usLen_lt
  eq_of_nil := fun hnil => absurd hnil h.nonempty
  head_lt := h.head_lt

theorem frame_toMsg (h : msg.Sendable) : h.toMsg.frame = msg.frame := by
  rw [XUsiCmd.frame, h.wirePayload_eq]
  rfl

theorem delivery_toMsg (h : msg.Sendable) : h.toMsg.delivery = msg.delivery := rfl

end XUsiCmd.Sendable

/-- The messages of a list of sendable commands. -/
theorem exists_msgs {msgs : List XUsiCmd} (h : ∀ msg ∈ msgs, msg.Sendable) :
    ∃ us : List UsiMsg, us.map UsiMsg.frame = msgs.map XUsiCmd.frame
      ∧ us.map UsiMsg.delivery = msgs.map XUsiCmd.delivery
      ∧ ∀ u ∈ us, ∃ msg ∈ msgs, u.callbackIdx = usiProtId2idx msg.ucPType := by
  induction msgs with
  | nil => exact ⟨[], rfl, rfl, by simp⟩
  | cons msg msgs ih =>
      obtain ⟨us, hframe, hdel, hidx⟩ := ih fun m hm => h m (by simp [hm])
      have hmsg := h msg (by simp)
      refine ⟨hmsg.toMsg :: us, ?_, ?_, ?_⟩
      · rw [List.map_cons, List.map_cons, hmsg.frame_toMsg, hframe]
      · rw [List.map_cons, List.map_cons, hmsg.delivery_toMsg, hdel]
      · rintro u hu
        rcases List.mem_cons.mp hu with rfl | hu
        · exact ⟨msg, by simp, rfl⟩
        · obtain ⟨m, hm, hi⟩ := hidx u hu
          exact ⟨m, by simp [hm], hi⟩

/-- **The sender.**  With writes that take everything, the frames are written one
after the other. -/
theorem sendAll_eq {msgs : List XUsiCmd} (h : ∀ msg ∈ msgs, msg.Sendable) :
    ∀ s : State, s.usIdxIn = 0 → s.txUsSize = txauxSize →
      ∃ s' ev, sendAll .acceptAll msgs s = some (s', ev)
        ∧ written ev = (msgs.map XUsiCmd.frame).flatten := by
  induction msgs with
  | nil => exact fun s _ _ => ⟨s, [], rfl, rfl⟩
  | cons msg msgs ih =>
      intro s hidx hsize
      have hmsg := h msg (by simp)
      obtain ⟨m', hsend⟩ := usiEncodeAndSend_acceptAll hidx hsize.le hmsg.nonempty
        (hmsg.fits.trans hsize.ge)
      obtain ⟨s', ev, hrest, hwritten⟩ := ih (fun m hm => h m (by simp [hm]))
        { s with pucTxbuf0 := m', usIdxIn := 0 } rfl hsize
      refine ⟨s', [.write (if msg.fd < 0 then s.portFd else msg.fd) msg.frame] ++ ev, ?_, ?_⟩
      · rw [sendAll, hsend, Option.bind_some, hrest]
        rfl
      · rw [List.map_cons, List.flatten_cons, ← hwritten]
        rfl

/-! ## The receiving side -/

/-- The stream of a list of messages. -/
def streamOf (us : List UsiMsg) : List UInt8 := usiEscapes.stream (us.map UsiMsg.text)

theorem streamOf_eq_flatten (us : List UsiMsg) : streamOf us = (us.map UsiMsg.frame).flatten := by
  rw [streamOf, Escapes.stream, List.map_map]
  rfl

theorem streamOf_cons (u : UsiMsg) (us : List UsiMsg) :
    streamOf (u :: us) = msgMark :: (u.text ++ msgMark :: streamOf us) :=
  usiEscapes.stream_cons u.text (us.map UsiMsg.text)

theorem mark_not_mem_texts (us : List UsiMsg) : ∀ c ∈ us.map UsiMsg.text, usiEscapes.mark ∉ c := by
  intro c hc
  obtain ⟨u, -, rfl⟩ := List.mem_map.mp hc
  exact u.msgMark_not_mem_text

theorem count_streamOf (us : List UsiMsg) : (streamOf us).count msgMark = 2 * us.length := by
  have h := usiEscapes.count_mark_stream (mark_not_mem_texts us)
  rwa [List.length_map] at h

/-- The first two marks of a stream's prefix enclose the first message. -/
theorem streamOf_split {g c r q : List UInt8} {us : List UsiMsg}
    (h : (g ++ msgMark :: (c ++ msgMark :: r)) ++ q = streamOf us) (hg : msgMark ∉ g)
    (hc : msgMark ∉ c) : ∃ u us', us = u :: us' ∧ g = [] ∧ c = u.text ∧ r ++ q = streamOf us' := by
  obtain ⟨cs, hcs, hnil, hr⟩ := usiEscapes.stream_split h hg hc (mark_not_mem_texts us)
  obtain ⟨u, us', rfl, hu, rfl⟩ := List.map_eq_cons_iff.mp hcs
  exact ⟨u, us', rfl, hnil, hu.symm, hr⟩

theorem lenOk_decoded_text (u : UsiMsg) : LenOk (decoded u.text) := by
  rw [UsiMsg.text, decoded_stuff]
  exact u.lenOk_body

/-- **One step on a stream.**  Nothing is lost: either the stream of pending bytes and
bytes to come stays, or its first message is delivered and leaves it. -/
theorem RxStep.streamOf {cb : ℕ → Option Serialization} {p p' q : List UInt8} {f f' : Bool}
    {e : List (ℕ × List UInt8)} {us : List UsiMsg} (hstep : RxStep cb p f p' f' e)
    (hp : p ++ q = streamOf us) (hreg : ∀ u ∈ us, cb u.callbackIdx ≠ none) :
    (p' ++ q = Usi.streamOf us ∧ e = []) ∨
      ∃ u us', us = u :: us' ∧ p' ++ q = Usi.streamOf us' ∧ e = [u.delivery] := by
  cases hstep with
  | idle f => exact Or.inl ⟨hp, rfl⟩
  | discard p f hne hmark => exact absurd (usiEscapes.nil_of_stream_append hp hmark) hne
  | wait g t f hg ht => exact Or.inl ⟨hp, rfl⟩
  | resync g c r hg hc hlen =>
      -- no frame of the stream fails the length check
      obtain ⟨u, us', rfl, rfl, rfl, hr⟩ := streamOf_split hp hg hc
      exact absurd (lenOk_decoded_text u) hlen
  | take g c r f e hg hc hlen he hvalid =>
      obtain ⟨u, us', rfl, rfl, rfl, hr⟩ := streamOf_split hp hg hc
      exact Or.inr ⟨u, us', rfl, hr, hvalid u (hreg u (by simp)) rfl⟩

/-- What holds at every moment of the reception of `us`: a part of the messages has
been delivered, and the pending bytes with those to come are the stream of the rest. -/
def InStream (us : List UsiMsg) (p : List UInt8) (rest : List Input)
    (log : List (ℕ × List UInt8)) : Prop :=
  ∃ gone left, us = gone ++ left ∧ log = gone.map UsiMsg.delivery
    ∧ p ++ bytesRead rest = streamOf left

theorem invariant_inStream {cb : ℕ → Option Serialization} {us : List UsiMsg}
    (hreg : ∀ u ∈ us, cb u.callbackIdx ≠ none) :
    Invariant cb (fun _ => PendingBelow) fun p _ rest log => InStream us p rest log := by
  refine ⟨?_, ?_, ?_⟩
  · rintro inp rest p f log hnone ⟨gone, left, hus, hlog, hp⟩
    rw [bytesRead_cons, bytes_of_read_none hnone, List.nil_append] at hp
    exact ⟨gone, left, hus, hlog, hp⟩
  · rintro inp rest s p f b log htr hread hbelow ⟨gone, left, -, -, hp⟩
    have hlen := hbelow.length_lt htr hread
    rw [bytesRead_cons, bytes_of_read hread, ← List.append_assoc] at hp
    exact ⟨hlen.le, searchInside_of_head htr hread hlen (usiEscapes.head_of_stream_append hp)⟩
  · rintro inp rest s p f b log p' f' e htr hread hbelow ⟨gone, left, hus, hlog, hp⟩ hstep
    rw [bytesRead_cons, bytes_of_read hread, ← List.append_assoc] at hp
    rcases hstep.streamOf hp fun u hu => hreg u (by simp [hus, hu]) with
      ⟨hp', rfl⟩ | ⟨u, left', rfl, hp', rfl⟩
    · exact ⟨gone, left, hus, by simpa using hlog, hp'⟩
    · exact ⟨gone ++ [u], left', by simp [hus], by simp [hlog], hp'⟩

/-- **Round trip.**  What the sender writes, read in any pieces, is what the
callbacks receive. -/
theorem usi_stream_round_trip (msgs : List XUsiCmd) (hmsgs : ∀ msg ∈ msgs, msg.Sendable)
    (fdTx fdRx : ℤ) (behind1 behind2 behind3 behind4 : ℕ → UInt8)
    (regsTx regsRx : List (UInt8 × Option Serialization))
    (hreg : ∀ msg ∈ msgs,
      (opened fdRx behind3 behind4 regsRx).usiCfgMapProtocols (usiProtId2idx msg.ucPType) ≠ none) :
    ∃ sender sent,
      sendAll .acceptAll msgs (opened fdTx behind1 behind2 regsTx) = some (sender, sent)
      ∧ ∀ inps tail : List Input, bytesRead inps = written sent → (∀ i ∈ tail, i.Empty) →
        txauxSize ≤ tail.length →
        Along (fun _ => PendingBelow) (inps ++ tail) (opened fdRx behind3 behind4 regsRx) →
        ∃ s' ev, usiRun (inps ++ tail) (opened fdRx behind3 behind4 regsRx) = some (s', ev)
          ∧ received ev = msgs.map XUsiCmd.delivery := by
  obtain ⟨sender, sent, hsend, hsent⟩ := sendAll_eq hmsgs (opened fdTx behind1 behind2 regsTx)
    (usIdxIn_opened fdTx behind1 behind2 regsTx) (txUsSize_opened fdTx behind1 behind2 regsTx)
  refine ⟨sender, sent, hsend, fun inps tail hbytes htail hlong halong => ?_⟩
  obtain ⟨us, hframe, hdel, hidx⟩ := exists_msgs hmsgs
  have hcb : ∀ u ∈ us,
      (opened fdRx behind3 behind4 regsRx).usiCfgMapProtocols u.callbackIdx ≠ none := by
    intro u hu
    obtain ⟨msg, hmsg, hi⟩ := hidx u hu
    rw [hi]
    exact hreg msg hmsg
  have hstart : InStream us [] (inps ++ tail) [] := by
    refine ⟨[], us, rfl, rfl, ?_⟩
    rw [List.nil_append, streamOf_eq_flatten, hframe, ← hsent, ← hbytes, bytesRead_append,
      bytesRead_of_empty htail, List.append_nil]
  obtain ⟨s', ev, p', f', hrun, ⟨gone, left, hus, hlog, hp⟩, hone⟩ :=
    usiRun_complete (invariant_inStream hcb) htail hlong (tracks_opened fdRx behind3 behind4 regsRx)
      rfl (by rw [loopback_opened]; omega) halong hstart
  -- at most one mark is left, so no message is
  have hleft : left = [] := by
    have hcount := count_streamOf left
    rw [← hp, bytesRead_nil, List.append_nil] at hcount
    exact List.length_eq_zero_iff.mp (by omega)
  refine ⟨s', ev, hrun, ?_⟩
  rw [hlog, ← hdel, hus, hleft, List.append_nil]

/-- One sniffer byte. -/
def snifferCmd : XUsiCmd := ⟨-1, protocolSnifPrime, [0x55], by decide⟩

theorem sendable_snifferCmd : snifferCmd.Sendable where
  protocol := by decide
  nonempty := by decide
  head_lt := by decide
  fits := by decide +kernel

/-- The two marks as payload. -/
def escapedCmd : XUsiCmd := ⟨-1, protocolSnifPrime, [0x7e, 0x7d], by decide⟩

theorem sendable_escapedCmd : escapedCmd.Sendable where
  protocol := by decide
  nonempty := by decide
  head_lt := by decide
  fits := by decide +kernel

/-- The round trip of two commands; the second one has to be escaped, and its frame comes in
two pieces. -/
theorem usi_stream_round_trip_sniffer :
    ∃ sent : List UInt8, 10 < sent.length ∧ ∃ s' ev,
      usiRun (cutReads 10 sent ++ silence txauxSize)
        (opened 3 (fun _ => 0) (fun _ => 0) [(protocolSnifPrime, some fun _ => 0)]) = some (s', ev)
      ∧ received ev = [(1, [0x55]), (1, [0x7e, 0x7d])] := by
  have hmsgs : ∀ msg ∈ [snifferCmd, escapedCmd], msg.Sendable := by
    simpa using ⟨sendable_snifferCmd, sendable_escapedCmd⟩
  have hregs : ∀ msg ∈ [snifferCmd, escapedCmd], (opened 3 (fun _ => 0) (fun _ => 0)
      [(protocolSnifPrime, some fun _ => 0)]).usiCfgMapProtocols (usiProtId2idx msg.ucPType)
        ≠ none := by
    refine List.forall_mem_cons.mpr ⟨Option.some_ne_none _, ?_⟩
    exact List.forall_mem_singleton.mpr (Option.some_ne_none _)
  obtain ⟨sender, sent, hsend, hrun⟩ := usi_stream_round_trip [snifferCmd, escapedCmd] hmsgs 3 3
    (fun _ => 0) (fun _ => 0) (fun _ => 0) (fun _ => 0) [] [(protocolSnifPrime, some fun _ => 0)]
    hregs
  obtain ⟨s1, ev1, hsend1, hwritten⟩ := sendAll_eq hmsgs
    (opened 3 (fun _ => 0) (fun _ => 0) []) rfl rfl
  rw [hsend] at hsend1
  cases hsend1
  have hlength : (written sent).length = 17 := by
    rw [hwritten]
    decide +kernel
  have halong := along_of_short (cutReads 10 (written sent) ++ silence txauxSize)
    (tracks_opened 3 (fun _ => 0) (fun _ => 0) [(protocolSnifPrime, some fun _ => 0)])
    (by
      rw [bytesRead_append, bytesRead_cutReads, bytesRead_of_empty empty_of_mem_silence,
        List.append_nil, hlength]
      decide)
  obtain ⟨s', ev, hfinal, hrec⟩ := hrun _ (silence txauxSize) bytesRead_cutReads
    empty_of_mem_silence length_silence.ge (halong.mono fun _ _ _ h => h.1)
  exact ⟨written sent, by omega, s', ev, hfinal, hrec⟩

end Usi
