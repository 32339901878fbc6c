/-
# The loopback

With a loopback descriptor set, a management or PRIME API message is handed to its
callback and its payload is sent once more, through the encoder, to that descriptor.
The length of what is sent again goes through a `uint8_t`, which doubles as the flag
that something is to be sent.  So the redirected frame is the received one exactly
for payloads of 1 to 255 bytes.
-/
import PlcManager.UsiRoundTrip

namespace Usi

/-! ## Decoding a frame -/

/-- Type and payload of a body whose length and CRC are right. -/
def parseBody (xs : List UInt8) : Option (UInt8 × List UInt8) :=
  if LenOk xs ∧ xs.drop (2 + lenOf xs)
      = crcBytes (typeOf xs) (usiCrc (typeOf xs) (xs.take (2 + lenOf xs))) then
    some (typeOf xs, (xs.take (2 + lenOf xs)).drop 2)
  else none

/-- Type and payload of a frame, marks included. -/
def parseFrame : List UInt8 → Option (UInt8 × List UInt8)
  | [] => none
  | b :: bs =>
      if b = msgMark ∧ bs.getLast? = some msgMark then
        (usiEscapes.unstuff bs.dropLast).bind parseBody
      else none

namespace UsiMsg

variable (u : UsiMsg)

theorem take_body : u.body.take (2 + u.payload.length)
    = header u.ucType u.payload.length ++ u.payload :=
  List.take_left' (by simp)

theorem drop_body : u.body.drop (2 + u.payload.length)
    = crcBytes u.ucType (usiCrc u.ucType (header u.ucType u.payload.length ++ u.payload)) :=
  List.drop_left' (by simp)

/-- A frame decodes to its message. -/
theorem parseFrame_frame : parseFrame u.frame = some (u.ucType, u.payload) := by
  have hframe : u.frame = msgMark :: (u.text ++ [msgMark]) := rfl
  have hlast : (u.text ++ [msgMark]).getLast? = some msgMark := by simp
  rw [hframe, parseFrame, if_pos ⟨rfl, hlast⟩, List.dropLast_concat, text, usiEscapes.unstuff_stuff,
    Option.bind_some, parseBody, if_pos]
  · rw [u.lenOf_body, u.typeOf_body, u.take_body]
    rfl
  · refine ⟨u.lenOk_body, ?_⟩
    rw [u.lenOf_body, u.typeOf_body, u.take_body, u.drop_body]

end UsiMsg

/-! ## What is redirected -/

/-- The bytes that `write` accepted in one call, with its descriptor. -/
def writes (events : List Event) : List (ℤ × List UInt8) :=
  events.filterMap fun
    | .callback _ _ _ => none
    | .write fd bytes => some (fd, bytes)

/-- Exactly one frame goes to `fd`, and it decodes to the message. -/
def Redirected (fd : ℤ) (u : UsiMsg) (events : List Event) : Prop :=
  ∃ bytes, writes events = [(fd, bytes)] ∧ parseFrame bytes = some (u.ucType, u.payload)

/-- The protocols that the loopback is for. -/
def loopbackProtocols : List UInt8 := protocolPrimeApi :: mngpProtocols

theorem mem_loopbackProtocols {t : UInt8} :
    t ∈ loopbackProtocols ↔ t ∈ mngpProtocols ∨ t = protocolPrimeApi := by
  rw [loopbackProtocols, List.mem_cons, or_comm]

theorem length_stuff_le (xs : List UInt8) : (usiEscapes.stuff xs).length ≤ 2 * xs.length := by
  have h := usiEscapes.length_stuff xs
  have hc := List.countP_le_length (p := fun b => decide (usiEscapes.Special b)) (l := xs)
  omega

section Redirect

variable {s : State} {u : UsiMsg} {p n : ℕ}

/-- The command that redirects the first `n` bytes of a received message. -/
theorem sendable_loopbackCmd (hbody : s.pucRxbuf0.slice p u.body.length = u.body)
    (hpos : 0 < n) (hle : n ≤ u.payload.length) (hn : n < 256) (h16 : n < 65536) :
    (loopbackCmd s u.ucType (p + 2) n h16).Sendable
      ∧ (loopbackCmd s u.ucType (p + 2) n h16).pucBuf = u.payload.take n := by
  have hbuf : (loopbackCmd s u.ucType (p + 2) n h16).pucBuf = u.payload.take n := by
    show s.pucRxbuf0.slice (p + 2) n = u.payload.take n
    conv_rhs => rw [← u.slice_payload hbody]
    rw [Mem.take_slice hle]
  have hne : (loopbackCmd s u.ucType (p + 2) n h16).pucBuf ≠ [] := by
    intro hnil
    have := congrArg List.length hnil
    rw [hbuf, List.length_take, List.length_nil] at this
    omega
  refine ⟨⟨u.type_mem, hne, fun hp => ?_, ?_⟩, hbuf⟩
  · rw [hbuf]
    have hhead := u.head_lt hp
    cases hpay : u.payload with
    | nil =>
        rw [hpay] at hle
        simp at hle
        omega
    | cons x xs =>
        rw [hpay] at hhead
        obtain ⟨k, rfl⟩ := Nat.exists_eq_add_one_of_ne_zero (show n ≠ 0 by omega)
        simpa using hhead
  · have hlen := XUsiCmd.length_frame (loopbackCmd s u.ucType (p + 2) n h16)
    have hstuff := length_stuff_le (body (loopbackCmd s u.ucType (p + 2) n h16).ucPType
      (loopbackCmd s u.ucType (p + 2) n h16).wirePayload)
    rw [length_body, XUsiCmd.length_wirePayload hne] at hstuff
    have hcrc := crcLen_le (loopbackCmd s u.ucType (p + 2) n h16).ucPType
    have huslen : (loopbackCmd s u.ucType (p + 2) n h16).usLen = n := by
      show (s.pucRxbuf0.slice (p + 2) n).length = n
      rw [Mem.length_slice]
    unfold txauxSize
    omega

/-- With the transmit half idle, a sendable command goes out in one write. -/
theorem halUsiSendCmd_sendable {msg : XUsiCmd} (hmsg : msg.Sendable) (hidx : s.usIdxIn = 0)
    (hsize : s.txUsSize = txauxSize) :
    ∃ s', halUsiSendCmd .acceptAll s msg
      = some (s', .ok, [.write (if msg.fd < 0 then s.portFd else msg.fd) msg.frame]) := by
  obtain ⟨m', hsend⟩ := usiEncodeAndSend_acceptAll hidx hsize.le hmsg.nonempty
    (hmsg.fits.trans hsize.ge)
  have hlen : msg.usLen ≠ 0 := fun h => hmsg.nonempty (List.length_eq_zero_iff.mp h)
  have hproto : usiProtId2idx msg.ucPType ≠ usiInvalidProtocolIdx := by
    have hall : ∀ t ∈ receivedProtocols, usiProtId2idx t ≠ usiInvalidProtocolIdx := by
      decide +kernel
    exact hall _ hmsg.protocol
  have havail : ¬ uint16 ((s.txUsSize : ℤ) - s.usIdxIn) < msg.usLen + minOverhead := by
    have hmin := XUsiCmd.le_length_frame hmsg.nonempty
    have hfit := hmsg.fits
    have hpos := crcLen_pos msg.ucPType
    unfold txauxSize at hsize hfit
    rw [hsize, hidx, uint16_of_nonneg (by omega) (by omega), minOverhead]
    omega
  refine ⟨{ s with pucTxbuf0 := m', usIdxIn := 0 }, ?_⟩
  rw [halUsiSendCmd, if_neg hlen, if_neg hproto]
  simp only [if_neg havail]
  exact hsend

/-- What processing a message writes. -/
theorem writes_processMsg (hbody : s.pucRxbuf0.slice p u.body.length = u.body)
    (hreg : s.usiCfgMapProtocols u.callbackIdx ≠ none) (hidx : s.usIdxIn = 0)
    (hsize : s.txUsSize = txauxSize) (hloop : 0 < s.fdSocketLoopback)
    (htype : u.ucType ∈ loopbackProtocols) :
    ∃ s' ev r, processMsg .acceptAll s p = some (s', ev, r)
      ∧ (Redirected s.fdSocketLoopback u ev ↔ 0 < u.payload.length ∧ u.payload.length < 256) := by
  obtain ⟨pf, hpf⟩ := Option.ne_none_iff_exists'.mp hreg
  have hretx : ucRetxLen s u.ucType u.payload.length = u.payload.length % 256 :=
    if_pos ⟨mem_loopbackProtocols.mp htype, hloop⟩
  rw [u.processMsg_body hbody hpf]
  by_cases hpos : 0 < ucRetxLen s u.ucType u.payload.length
  · rw [if_pos hpos]
    have hlt := ucRetxLen_lt s u.ucType u.payload.length
    obtain ⟨hsendable, hbuf⟩ := sendable_loopbackCmd hbody hpos (by omega) hlt (by omega)
    obtain ⟨s', hsend⟩ := halUsiSendCmd_sendable hsendable hidx hsize
    rw [hsend]
    refine ⟨_, _, _, rfl, ?_⟩
    have hfd : (if s.fdSocketLoopback < 0 then s.portFd else s.fdSocketLoopback)
        = s.fdSocketLoopback := if_neg (by omega)
    have hparse := hsendable.toMsg.parseFrame_frame
    rw [hsendable.frame_toMsg] at hparse
    have hpay : hsendable.toMsg.payload
        = u.payload.take (ucRetxLen s u.ucType u.payload.length) := hbuf
    have htyp : hsendable.toMsg.ucType = u.ucType := rfl
    constructor
    · rintro ⟨bytes, hwrites, hdec⟩
      obtain rfl : (loopbackCmd s u.ucType (p + 2) (ucRetxLen s u.ucType u.payload.length)
          (by omega)).frame = bytes := by
        simp only [writes, UsiMsg.event, List.cons_append, List.nil_append, List.filterMap_cons,
          List.filterMap_nil, List.cons.injEq, Prod.mk.injEq, and_true] at hwrites
        exact hwrites.2
      rw [hparse, hpay, htyp] at hdec
      simp only [Option.some.injEq, Prod.mk.injEq, true_and] at hdec
      have := congrArg List.length hdec
      rw [List.length_take] at this
      omega
    · rintro ⟨-, hshort⟩
      refine ⟨_, ?_, hparse.trans ?_⟩
      · show [(if s.fdSocketLoopback < 0 then s.portFd else s.fdSocketLoopback, _)] = _
        rw [hfd]
      · rw [hpay, htyp, hretx, Nat.mod_eq_of_lt hshort, List.take_length]
  · rw [if_neg hpos]
    refine ⟨_, _, _, rfl, ?_⟩
    constructor
    · rintro ⟨bytes, hwrites, -⟩
      simp [writes, UsiMsg.event] at hwrites
    · rintro ⟨h1, h2⟩
      rw [hretx] at hpos
      omega

end Redirect

/-! ## A received frame -/

section Call

variable {inp : Input} {s : State} {p b g r : List UInt8} {f : Bool} {u : UsiMsg}

/-- A call whose first two marks enclose the text `c`: its decoded bytes are checked. -/
theorem halUsiProcess_text {c : List UInt8} (h : Tracks s p f) (hread : inp.read = some b)
    (hlen : (p ++ b).length ≤ txauxSize) (hpb : p ++ b = g ++ usiEscapes.delimit c ++ r)
    (hg : msgMark ∉ g) (hc : msgMark ∉ c) :
    ∃ m' k n, m'.slice (g.length + 1) (decoded c).length = decoded c
      ∧ halUsiProcess inp s =
        let s' : State := { s with pucRxbuf0 := m', sbCheckLen := false }
        if s.sbCheckLen = true ∧ ¬ LenOk (decoded c) then some (consume s' k n, [])
        else if doEoMsg m' (g.length + 1) (decoded c).length = true then
          (processMsg inp.writes s' (g.length + 1)).map fun t => (consume t.1 (k + 1) n, t.2.1)
        else some (consume s' (k + 1) n, []) := by
  have hload : Loaded (rxMemory inp s b) (p ++ b) := h.loaded_rxMemory hlen
  have hsplit : p ++ b = g ++ msgMark :: (c ++ msgMark :: r) := by
    rw [hpb, Escapes.delimit]
    simp [usiEscapes]
  rw [halUsiProcess_eq h hread hlen]
  generalize rxMemory inp s b = m at *
  rw [hsplit] at *
  obtain ⟨m', hdec, -, -, hproc⟩ := processFrame_text (w := inp.writes)
    (s := { s with pucRxbuf0 := m }) hload
  refine ⟨m', g.length + 1 + c.length, (g ++ msgMark :: (c ++ msgMark :: r)).length, hdec, ?_⟩
  dsimp only
  rw [if_neg (by simp), hload.find_first hg]
  dsimp only
  rw [hload.find_second hc]
  exact hproc

/-- A call whose first two marks enclose a valid message processes that message. -/
theorem halUsiProcess_frame (h : Tracks s p f) (hread : inp.read = some b)
    (hlen : (p ++ b).length ≤ txauxSize) (hpb : p ++ b = g ++ u.frame ++ r) (hg : msgMark ∉ g) :
    ∃ m' k n, m'.slice (g.length + 1) u.body.length = u.body
      ∧ halUsiProcess inp s
          = (processMsg inp.writes { s with pucRxbuf0 := m', sbCheckLen := false }
              (g.length + 1)).map fun t => (consume t.1 k n, t.2.1) := by
  obtain ⟨m', k, n, hdec, hcall⟩ := halUsiProcess_text h hread hlen hpb hg u.msgMark_not_mem_text
  dsimp only at hcall
  rw [if_neg (fun hbad => hbad.2 (lenOk_decoded_text u))] at hcall
  rw [UsiMsg.text, decoded_stuff] at hdec hcall
  rw [if_pos (u.doEoMsg_body hdec)] at hcall
  exact ⟨m', k + 1, n, hdec, hcall⟩

/-- **Loopback.**  A received management or PRIME API frame is redirected faithfully
exactly when its payload has 1 to 255 bytes. -/
theorem usi_loopback_transparent_iff (h : Tracks s p f) (hread : inp.read = some b)
    (hlen : (p ++ b).length ≤ txauxSize) (hpb : p ++ b = g ++ u.frame ++ r) (hg : msgMark ∉ g)
    (hwrites : inp.writes = .acceptAll) (hreg : s.usiCfgMapProtocols u.callbackIdx ≠ none)
    (hidx : s.usIdxIn = 0) (hsize : s.txUsSize = txauxSize) (hloop : 0 < s.fdSocketLoopback)
    (htype : u.ucType ∈ loopbackProtocols) :
    ∃ s' ev, halUsiProcess inp s = some (s', ev)
      ∧ (Redirected s.fdSocketLoopback u ev ↔ 0 < u.payload.length ∧ u.payload.length < 256) := by
  obtain ⟨m', k, n, hbody, hcall⟩ := halUsiProcess_frame h hread hlen hpb hg
  obtain ⟨s1, ev, r, hmsg, hiff⟩ := writes_processMsg
    (s := { s with pucRxbuf0 := m', sbCheckLen := false }) hbody hreg hidx hsize hloop htype
  rw [hcall, hwrites, hmsg]
  exact ⟨_, ev, rfl, hiff⟩

end Call

/-- The state in which reception starts, with a loopback. -/
theorem tracks_loopback (fd : ℤ) (regs : List (UInt8 × Option Serialization)) :
    Tracks (halUsiLoopback fd (opened 3 (fun _ => 0) (fun _ => 0) regs)) [] false := by
  have h := tracks_opened 3 (fun _ => 0) (fun _ => 0) regs
  exact ⟨h.loaded, h.size, h.flag⟩

/-- A PRIME API command of one byte. -/
def primeApiMsg : UsiMsg where
  ucType := protocolPrimeApi
  payload := [0x05]
  type_mem := by decide
  length_lt := by decide
  eq_of_nil := by decide
  head_lt := by decide

/-- The one-byte command comes back on descriptor 5. -/
theorem usi_loopback_transparent_primeApi :
    ∃ s' ev, halUsiProcess ⟨some primeApiMsg.frame, fun _ => 0, .acceptAll⟩
        (halUsiLoopback 5
          (opened 3 (fun _ => 0) (fun _ => 0) [(protocolPrimeApi, some fun _ => 0)]))
          = some (s', ev)
      ∧ Redirected 5 primeApiMsg ev := by
  obtain ⟨s', ev, hrun, hiff⟩ := usi_loopback_transparent_iff (p := []) (g := []) (r := [])
    (u := primeApiMsg)
    (tracks_loopback 5 [(protocolPrimeApi, some fun _ => 0)])
    (show (⟨some primeApiMsg.frame, fun _ => 0, .acceptAll⟩ : Input).read = some primeApiMsg.frame
      from rfl)
    (by decide +kernel) (by simp) (by simp) rfl (Option.some_ne_none _) rfl rfl (by decide)
    (by decide)
  exact ⟨s', ev, hrun, hiff.mpr (by decide)⟩

/-- A management message with 256 payload bytes. -/
def longMngpMsg : UsiMsg where
  ucType := protocolMngpPrimeGetqry
  payload := List.replicate 256 0
  type_mem := by decide
  length_lt := by rw [List.length_replicate]; omega
  eq_of_nil := fun h => by
    have := congrArg List.length h
    rw [List.length_replicate] at this
    cases this
  head_lt := fun h => absurd h (by decide)

/-- 256 payload bytes are narrowed to none, and nothing is redirected. -/
theorem usi_loopback_narrows :
    ¬ ∀ (inp : Input) (s : State) (p b g r : List UInt8) (f : Bool) (u : UsiMsg), Tracks s p f →
        inp.read = some b → (p ++ b).length ≤ txauxSize → p ++ b = g ++ u.frame ++ r →
        msgMark ∉ g → inp.writes = .acceptAll → s.usiCfgMapProtocols u.callbackIdx ≠ none →
        s.usIdxIn = 0 → s.txUsSize = txauxSize → 0 < s.fdSocketLoopback →
        u.ucType ∈ loopbackProtocols →
        ∃ s' ev, halUsiProcess inp s = some (s', ev) ∧ Redirected s.fdSocketLoopback u ev := by
  intro hclaim
  set s := halUsiLoopback 5 (opened 3 (fun _ => 0) (fun _ => 0)
    [(protocolMngpPrimeGetqry, some fun _ => 0)]) with hs
  set inp : Input := ⟨some longMngpMsg.frame, fun _ => 0, .acceptAll⟩ with hinp
  have htr : Tracks s [] false := tracks_loopback 5 _
  have hreg : s.usiCfgMapProtocols longMngpMsg.callbackIdx ≠ none := Option.some_ne_none _
  have hlen : ([] ++ longMngpMsg.frame).length ≤ txauxSize := by
    have h1 := length_stuff_le longMngpMsg.body
    have h2 := longMngpMsg.length_body
    have h3 := crcLen_le longMngpMsg.ucType
    have h4 : longMngpMsg.payload.length = 256 := List.length_replicate
    rw [List.nil_append, UsiMsg.frame, Escapes.length_delimit, UsiMsg.text, txauxSize]
    omega
  have hpb : [] ++ longMngpMsg.frame = [] ++ longMngpMsg.frame ++ [] := by simp
  obtain ⟨s', ev, hrun, hred⟩ := hclaim inp s [] longMngpMsg.frame [] [] false longMngpMsg htr rfl
    hlen hpb (by simp) rfl hreg rfl rfl (by decide) (by decide)
  obtain ⟨m', k, n, hbody, hcall⟩ := halUsiProcess_frame htr
    (show inp.read = some longMngpMsg.frame from rfl) hlen hpb (by simp)
  obtain ⟨s1, ev1, r, hmsg, hiff⟩ := writes_processMsg
    (s := { s with pucRxbuf0 := m', sbCheckLen := false }) hbody hreg rfl rfl
    (show (0 : ℤ) < 5 by omega) (by decide)
  rw [hcall, hmsg] at hrun
  cases hrun
  have hbad := (hiff.mp hred).2
  rw [show longMngpMsg.payload.length = 256 from List.length_replicate] at hbad
  omega

end Usi
