/-
# After a damaged frame, after garbage

Frames that are not valid cost the receiver marks.  A bad frame that was waited for
loses its opening mark only: its closing mark is kept, to open the next frame.  If the
next opening mark is already there, two marks stand side by side; the flag that would
make the receiver keep one of them has just been cleared, so the next call drops both,
and the frame behind them has lost its opening mark.  The same happens when garbage
ends in a mark.

Both results below say that nothing else can go wrong: if no call meets two adjacent
marks of the frames with the flag clear, everything behind the damage is delivered.
-/
import PlcManager.UsiRoundTrip

namespace Usi

/-! ## A damaged frame -/

/-- Valid frames around one whose interior `x` is arbitrary. -/
def damagedStream (pre : List UsiMsg) (x : List UInt8) (post : List UsiMsg) : List UInt8 :=
  streamOf pre ++ usiEscapes.delimit x ++ streamOf post

theorem damagedStream_eq (pre : List UsiMsg) (x : List UInt8) (post : List UsiMsg) :
    damagedStream pre x post
      = usiEscapes.stream (pre.map UsiMsg.text ++ x :: post.map UsiMsg.text) := by
  rw [usiEscapes.stream_append, usiEscapes.stream_cons, damagedStream, Escapes.delimit]
  simp [streamOf]

/-- How far the reception has come: `whole` are the pending bytes with those to come. -/
inductive DamageProgress (pre : List UsiMsg) (x : List UInt8) (post : List UsiMsg)
    (whole : List UInt8) (log : List (ℕ × List UInt8)) : Prop
  /-- The damaged frame is still to come. -/
  | before (gone left : List UsiMsg) (hpre : pre = gone ++ left)
      (hlog : log = gone.map UsiMsg.delivery) (hwhole : whole = damagedStream left x post)
  /-- Its closing mark was kept and stands in front of the remaining frames. -/
  | kept (hlog : log = pre.map UsiMsg.delivery) (hwhole : whole = msgMark :: streamOf post)
  /-- It is gone, and at most one message was made of it. -/
  | after (e : List (ℕ × List UInt8)) (gone left : List UsiMsg) (he : e.length ≤ 1)
      (hpost : post = gone ++ left)
      (hlog : log = pre.map UsiMsg.delivery ++ e ++ gone.map UsiMsg.delivery)
      (hwhole : whole = streamOf left)

/-- When the first pending mark is the closing mark of the damaged frame (what follows
it is as long as the remaining frames) and another mark follows at once, the length
check is due. -/
def ClosingMarkFlagged (post : List UsiMsg) (rest : List Input) (inp : Input) (s : State) : Prop :=
  ∀ g r, pendingBytes inp s = g ++ msgMark :: msgMark :: r → msgMark ∉ g →
    (msgMark :: r ++ bytesRead rest).length = (streamOf post).length → s.sbCheckLen = true

/-- The condition on the calls. -/
def DamageCondition (post : List UsiMsg) (rest : List Input) (inp : Input) (s : State) : Prop :=
  PendingBelow inp s ∧ ClosingMarkFlagged post rest inp s

section Damage

variable {cb : ℕ → Option Serialization} {pre post : List UsiMsg} {x p p' q whole : List UInt8}
  {f f' : Bool} {e log : List (ℕ × List UInt8)}

/-- The pending bytes are empty or begin with a mark, whatever has happened. -/
theorem DamageProgress.head (h : DamageProgress pre x post (p ++ q) log) :
    ∀ y ∈ p.head?, y = msgMark := by
  cases h with
  | before gone left hpre hlog hwhole =>
      rw [damagedStream_eq] at hwhole
      exact usiEscapes.head_of_stream_append hwhole
  | kept hlog hwhole =>
      cases p with
      | nil => simp
      | cons y p =>
          obtain ⟨rfl, -⟩ := List.cons_eq_cons.mp hwhole
          simp
  | after e gone left he hpost hlog hwhole => exact usiEscapes.head_of_stream_append hwhole

/-- The first two marks of a stream whose first mark was kept are adjacent. -/
theorem kept_split {g c r : List UInt8}
    (h : (g ++ msgMark :: (c ++ msgMark :: r)) ++ q = msgMark :: streamOf post)
    (hg : msgMark ∉ g) (hc : msgMark ∉ c) :
    g = [] ∧ c = [] ∧ msgMark :: r ++ q = streamOf post := by
  obtain ⟨rfl, h1⟩ := append_append_mark_inj (c := []) h hg (by simp)
  cases post with
  | nil => simp [streamOf] at h1
  | cons u us =>
      rw [streamOf_cons] at h1 ⊢
      obtain ⟨rfl, h2⟩ := append_append_mark_inj (c := []) h1 hc (by simp)
      exact ⟨rfl, rfl, by rw [List.cons_append, h2]⟩

/-- **One step around the damage.** -/
theorem DamageProgress.step (hx : msgMark ∉ x) (hreg : ∀ u ∈ pre ++ post, cb u.callbackIdx ≠ none)
    (h : DamageProgress pre x post (p ++ q) log) (hstep : RxStep cb p f p' f' e)
    (hflag : ∀ g r, p = g ++ msgMark :: msgMark :: r → msgMark ∉ g →
      (msgMark :: r ++ q).length = (streamOf post).length → f = true) :
    DamageProgress pre x post (p' ++ q) (log ++ e) := by
  cases h with
  | before gone left hpre hlog hwhole =>
      have hstream := hwhole
      rw [damagedStream_eq] at hstream
      have hmarks : ∀ c ∈ left.map UsiMsg.text ++ x :: post.map UsiMsg.text,
          usiEscapes.mark ∉ c := by
        intro c hc
        rcases List.mem_append.mp hc with hc | hc
        · exact mark_not_mem_texts left c hc
        · rcases List.mem_cons.mp hc with rfl | hc
          · exact hx
          · exact mark_not_mem_texts post c hc
      cases hstep with
      | idle f => exact .before gone left hpre (by simpa using hlog) hwhole
      | discard p f hne hmark => exact absurd (usiEscapes.nil_of_stream_append hstream hmark) hne
      | wait g t f hg ht => exact .before gone left hpre (by simpa using hlog) hwhole
      | resync g c r hg hc hlen =>
          obtain ⟨cs, hcs, rfl, hr⟩ := usiEscapes.stream_split hstream hg hc hmarks
          cases left with
          | nil =>
              obtain ⟨rfl, rfl⟩ := List.cons_eq_cons.mp hcs
              refine .kept ?_ (by rw [List.cons_append, hr]; rfl)
              rw [List.append_nil, hlog, hpre, List.append_nil]
          | cons u left =>
              obtain ⟨rfl, -⟩ := List.cons_eq_cons.mp hcs
              exact absurd (lenOk_decoded_text u) hlen
      | take g c r f e hg hc hlen he hvalid =>
          obtain ⟨cs, hcs, rfl, hr⟩ := usiEscapes.stream_split hstream hg hc hmarks
          cases left with
          | nil =>
              obtain ⟨rfl, rfl⟩ := List.cons_eq_cons.mp hcs
              refine .after e [] post he rfl ?_ hr
              rw [hlog, hpre]
              simp
          | cons u left =>
              obtain ⟨rfl, rfl⟩ := List.cons_eq_cons.mp hcs
              rw [hvalid u (hreg u (by simp [hpre])) rfl]
              exact .before (gone ++ [u]) left (by simp [hpre]) (by simp [hlog])
                (hr.trans (damagedStream_eq left x post).symm)
  | kept hlog hwhole =>
      cases hstep with
      | idle f => exact .kept (by simpa using hlog) hwhole
      | discard p f hne hmark =>
          cases p with
          | nil => exact absurd rfl hne
          | cons y p =>
              obtain ⟨rfl, -⟩ := List.cons_eq_cons.mp hwhole
              exact absurd (by simp) hmark
      | wait g t f hg ht => exact .kept (by simpa using hlog) hwhole
      | resync g c r hg hc hlen =>
          obtain ⟨rfl, rfl, hr⟩ := kept_split hwhole hg hc
          exact .after [] [] post (Nat.zero_le _) rfl (by simp [hlog]) hr
      | take g c r f e hg hc hlen he hvalid =>
          -- both marks would be dropped; the condition on the call excludes it
          obtain ⟨rfl, rfl, hr⟩ := kept_split hwhole hg hc
          have hf := hflag [] p' rfl (by simp) (congrArg List.length hr)
          exact absurd (hlen hf) not_lenOk_nil
  | after e' gone left he hpost hlog hwhole =>
      rcases hstep.streamOf hwhole fun u hu => hreg u (by simp [hpost, hu]) with
        ⟨hp', rfl⟩ | ⟨u, left', rfl, hp', rfl⟩
      · exact .after e' gone left he hpost (by simpa using hlog) hp'
      · exact .after e' (gone ++ [u]) left' he (by simp [hpost]) (by simp [hlog]) hp'

theorem invariant_damage (hx : msgMark ∉ x)
    (hreg : ∀ u ∈ pre ++ post, cb u.callbackIdx ≠ none) :
    Invariant cb (DamageCondition post) fun p _ rest log =>
      DamageProgress pre x post (p ++ bytesRead rest) log := by
  refine ⟨?_, ?_, ?_⟩
  · rintro inp rest p f log hnone h
    rwa [bytesRead_cons, bytes_of_read_none hnone, List.nil_append] at h
  · rintro inp rest s p f b log htr hread ⟨hbelow, -⟩ h
    have hlen := hbelow.length_lt htr hread
    rw [bytesRead_cons, bytes_of_read hread, ← List.append_assoc] at h
    exact ⟨hlen.le, searchInside_of_head htr hread hlen h.head⟩
  · rintro inp rest s p f b log p' f' e htr hread ⟨-, hflag⟩ h hstep
    rw [bytesRead_cons, bytes_of_read hread, ← List.append_assoc] at h
    apply h.step hx hreg hstep
    intro g r hp hg hlen
    rw [← htr.flag]
    exact hflag g r ((htr.pendingBytes_eq hread).trans hp) hg hlen

/-- Every frame but the damaged one is delivered, in order and once. -/
def DeliveredAround (pre post : List UsiMsg) (log : List (ℕ × List UInt8)) : Prop :=
  ∃ e : List (ℕ × List UInt8), e.length ≤ 1
    ∧ log = pre.map UsiMsg.delivery ++ e ++ post.map UsiMsg.delivery

/-- With at most one mark left, the reception is over. -/
theorem DamageProgress.done (h : DamageProgress pre x post p log) (hone : p.count msgMark ≤ 1) :
    DeliveredAround pre post log := by
  cases h with
  | before gone left hpre hlog hwhole =>
      rw [hwhole, damagedStream, List.count_append, List.count_append, Escapes.delimit] at hone
      have : 2 ≤ (usiEscapes.mark :: x ++ [usiEscapes.mark]).count msgMark := by
        rw [show usiEscapes.mark = msgMark from rfl]
        simp [List.count_append]
      omega
  | kept hlog hwhole =>
      rw [hwhole, List.count_cons_self, count_streamOf] at hone
      obtain rfl := List.length_eq_zero_iff.mp (show post.length = 0 by omega)
      exact ⟨[], Nat.zero_le _, by simp [hlog]⟩
  | after e gone left he hpost hlog hwhole =>
      rw [hwhole, count_streamOf] at hone
      obtain rfl := List.length_eq_zero_iff.mp (show left.length = 0 by omega)
      exact ⟨e, he, by rw [hlog, hpost, List.append_nil]⟩

/-- **Error confinement.**  Unless a call meets the kept closing mark next to the next
opening mark with the flag clear, damage to one frame costs no other. -/
theorem usi_error_confined (pre post : List UsiMsg) (x : List UInt8) (hx : msgMark ∉ x) (fd : ℤ)
    (behindRx behindTx : ℕ → UInt8) (regs : List (UInt8 × Option Serialization))
    (hreg : ∀ u ∈ pre ++ post,
      (opened fd behindRx behindTx regs).usiCfgMapProtocols u.callbackIdx ≠ none)
    (inps tail : List Input) (hbytes : bytesRead inps = damagedStream pre x post)
    (htail : ∀ i ∈ tail, i.Empty) (hlong : txauxSize ≤ tail.length)
    (hcond : Along (DamageCondition post) (inps ++ tail) (opened fd behindRx behindTx regs)) :
    ∃ s' ev, usiRun (inps ++ tail) (opened fd behindRx behindTx regs) = some (s', ev)
      ∧ DeliveredAround pre post (received ev) := by
  have hstart : DamageProgress pre x post ([] ++ bytesRead (inps ++ tail)) [] := by
    refine .before [] pre rfl rfl ?_
    rw [List.nil_append, bytesRead_append, bytesRead_of_empty htail, List.append_nil, hbytes]
  obtain ⟨s', ev, p', f', hrun, hprogress, hone⟩ :=
    usiRun_complete (invariant_damage hx hreg) htail hlong
      (tracks_opened fd behindRx behindTx regs) rfl (by rw [loopback_opened]; omega) hcond hstart
  rw [bytesRead_nil, List.append_nil] at hprogress
  exact ⟨s', ev, hrun, hprogress.done hone⟩

end Damage

/-- The sniffer message with the byte `0x55`. -/
def snifferMsg : UsiMsg where
  ucType := protocolSnifPrime
  payload := [0x55]
  type_mem := by decide
  length_lt := by decide
  eq_of_nil := by decide
  head_lt := by decide

/-- The receiver of the examples below, with the sniffer registered. -/
def snifferReceiver : State :=
  opened 3 (fun _ => 0) (fun _ => 0) [(protocolSnifPrime, some fun _ => 0)]

theorem registered_snifferMsg {us : List UsiMsg} (hus : ∀ u ∈ us, u = snifferMsg) :
    ∀ u ∈ us, snifferReceiver.usiCfgMapProtocols u.callbackIdx ≠ none := by
  intro u hu
  rw [hus u hu]
  exact Option.some_ne_none _

/-- A run that leaves one mark pending and has delivered nothing delivers nothing in the
silence that follows. -/
theorem delivers_nothing {inps : List Input} {n : ℕ} {P : List (ℕ × List UInt8) → Prop}
    (hshort : 2 * (([] : List UInt8).length + (bytesRead inps).length) < txauxSize)
    (hrest : ((usiRun inps snifferReceiver).map fun r => (received r.2,
      (r.1.pucRxbuf0.slice 0 r.1.rxUsSize).count msgMark)) = some ([], 1))
    (h : Along (fun _ => PendingBelow) (inps ++ silence n) snifferReceiver →
      ∃ s' ev, usiRun (inps ++ silence n) snifferReceiver = some (s', ev) ∧ P (received ev)) :
    P [] := by
  have htr : Tracks snifferReceiver [] false := tracks_opened _ _ _ _
  have halong := along_of_short (inps ++ silence n) htr
    (by rwa [bytesRead_append, bytesRead_of_empty empty_of_mem_silence, List.append_nil])
  obtain ⟨s', ev, hrun, hnone⟩ := usiRun_silent (empty_of_mem_silence (n := n)) htr (by decide)
    hshort le_rfl hrest
  obtain ⟨s1, ev1, hrun1, hlog⟩ := h (halong.mono fun _ _ _ hboth => hboth.1)
  obtain ⟨rfl, rfl⟩ := Prod.mk.inj (Option.some.inj (hrun.symm.trans hrun1))
  rwa [hnone] at hlog

/-- Two adjacent marks behind a part without a mark, by position. -/
theorem adjacent_iff {P : List UInt8} {Q : ℕ → Prop} :
    (∀ g r, P = g ++ msgMark :: msgMark :: r → msgMark ∉ g → Q r.length) ↔
      ∀ k < P.length, msgMark ∉ P.take k → (P.drop k).take 2 = [msgMark, msgMark] →
        Q (P.length - (k + 2)) := by
  constructor
  · intro h k _ hnot htwo
    have hdrop : P.drop k = msgMark :: msgMark :: P.drop (k + 2) := by
      rw [← List.take_append_drop 2 (P.drop k), htwo, List.drop_drop]
      rfl
    have hQ := h (P.take k) (P.drop (k + 2)) (by rw [← hdrop, List.take_append_drop]) hnot
    rwa [List.length_drop] at hQ
  · rintro h g r rfl hg
    have hQ := h g.length (by simp) (by simpa using hg) (by simp)
    have hlen : (g ++ msgMark :: msgMark :: r).length - (g.length + 2) = r.length := by
      simp only [List.length_append, List.length_cons]
      omega
    rwa [hlen] at hQ

/-- With one mark pending there are no two adjacent ones. -/
theorem not_adjacent_of_count {P g r : List UInt8} (hone : P.count msgMark ≤ 1)
    (hP : P = g ++ msgMark :: msgMark :: r) : False := by
  rw [hP, List.count_append, List.count_cons_self, List.count_cons_self] at hone
  omega

theorem closingMarkFlagged_iff {post : List UsiMsg} {rest : List Input} {inp : Input} {s : State} :
    ClosingMarkFlagged post rest inp s ↔
      ∀ k < (pendingBytes inp s).length, msgMark ∉ (pendingBytes inp s).take k →
        ((pendingBytes inp s).drop k).take 2 = [msgMark, msgMark] →
        (pendingBytes inp s).length - (k + 2) + 1 + (bytesRead rest).length
          = (streamOf post).length → s.sbCheckLen = true := by
  rw [← adjacent_iff (Q := fun n => n + 1 + (bytesRead rest).length = (streamOf post).length →
    s.sbCheckLen = true)]
  simp only [ClosingMarkFlagged, List.length_append, List.length_cons]

instance decidableClosingMarkFlagged (post : List UsiMsg) (rest : List Input) (inp : Input)
    (s : State) : Decidable (ClosingMarkFlagged post rest inp s) :=
  decidable_of_iff _ closingMarkFlagged_iff.symm

/-- Calls that read nothing add nothing to what is still to come. -/
theorem closingMarkFlagged_append {post : List UsiMsg} {rest tail : List Input} {inp : Input}
    {s : State} (htail : ∀ i ∈ tail, i.Empty) :
    ClosingMarkFlagged post (rest ++ tail) inp s ↔ ClosingMarkFlagged post rest inp s := by
  simp only [ClosingMarkFlagged, bytesRead_append, bytesRead_of_empty htail, List.append_nil]

/-- A frame, a damaged one and another frame.  The closing mark of the damaged one comes in a
read of its own, so that it is kept, and one call passes before the next opening mark. -/
def damagedReads : List Input :=
  [oneRead (snifferMsg.frame ++ [msgMark, 0x00]), oneRead [], oneRead [msgMark], oneRead [],
    oneRead (msgMark :: snifferMsg.text.take 2), oneRead (snifferMsg.text.drop 2 ++ [msgMark])]

/-- Both frames around the damage are delivered. -/
theorem usi_error_confined_sniffer :
    ∃ s' ev, usiRun (damagedReads ++ silence txauxSize) snifferReceiver = some (s', ev)
      ∧ DeliveredAround [snifferMsg] [snifferMsg] (received ev) := by
  have hread : bytesRead damagedReads = damagedStream [snifferMsg] [0x00] [snifferMsg] := by
    decide +kernel
  have htail := empty_of_mem_silence (n := txauxSize)
  have htr : Tracks snifferReceiver [] false := tracks_opened _ _ _ _
  have hshort : 2 * (([] : List UInt8).length + (bytesRead damagedReads).length) < txauxSize := by
    decide +kernel
  refine usi_error_confined [snifferMsg] [snifferMsg] [0x00] (by decide) 3 _ _ _
    (registered_snifferMsg (by simp)) damagedReads (silence _) hread htail length_silence.ge ?_
  have hbelow := along_of_short (damagedReads ++ silence txauxSize) htr
    (by rwa [bytesRead_append, bytesRead_of_empty htail, List.append_nil])
  have hflag : Along (ClosingMarkFlagged [snifferMsg]) (damagedReads ++ silence txauxSize)
      snifferReceiver := by
    refine along_of_settled (fun rest inp s hone g r hP => (not_adjacent_of_count hone hP).elim)
      htail htr (by decide) hshort (n := 0) (by decide) (by decide +kernel) ?_
    have hfirst : Along (ClosingMarkFlagged [snifferMsg]) damagedReads snifferReceiver := by
      decide +kernel
    exact hfirst.mono fun rest inp s => (closingMarkFlagged_append htail).mpr
  exact (hbelow.and hflag).mono fun _ _ _ h => ⟨h.1.1, h.2⟩

/-- One frame of one byte, damaged, then a valid one.  The length check keeps the
closing mark of the first frame; as the opening mark of the second is already there,
the next call drops both, and the second frame is lost. -/
theorem usi_error_not_confined :
    ¬ ∀ (pre post : List UsiMsg) (x : List UInt8) (_ : msgMark ∉ x) (fd : ℤ)
        (behindRx behindTx : ℕ → UInt8) (regs : List (UInt8 × Option Serialization))
        (_ : ∀ u ∈ pre ++ post,
          (opened fd behindRx behindTx regs).usiCfgMapProtocols u.callbackIdx ≠ none)
        (inps : List Input), bytesRead inps = damagedStream pre x post →
      ∃ n, ∀ tail : List Input, (∀ i ∈ tail, i.Empty) → n ≤ tail.length →
        Along (fun _ => PendingBelow) (inps ++ tail) (opened fd behindRx behindTx regs) →
        ∃ s' ev, usiRun (inps ++ tail) (opened fd behindRx behindTx regs) = some (s', ev)
          ∧ DeliveredAround pre post (received ev) := by
  intro hclaim
  set inps : List Input :=
    [oneRead [msgMark], oneRead ([0x00, msgMark] ++ streamOf [snifferMsg]), oneRead []] with hinps
  have hread : bytesRead inps = damagedStream [] [0x00] [snifferMsg] := by
    rw [hinps]
    rfl
  have hshort : 2 * (([] : List UInt8).length + (bytesRead inps).length) < txauxSize := by
    rw [hread]
    decide +kernel
  obtain ⟨n, hn⟩ := hclaim [] [snifferMsg] [0x00] (by decide) 3 _ _ _
    (registered_snifferMsg (by simp)) inps hread
  obtain ⟨e, -, hlog⟩ := delivers_nothing hshort (by decide +kernel)
    (hn (silence n) empty_of_mem_silence length_silence.ge)
  simp at hlog

/-! ## Garbage in front -/

/-- How far the reception has come when arbitrary bytes stood in front of the frames
`us`. -/
inductive GarbageProgress (us : List UsiMsg) (whole : List UInt8) (log : List (ℕ × List UInt8)) :
    Prop
  /-- Garbage is still in front of the first frame. -/
  | garbage (y : List UInt8) (hwhole : whole = y ++ streamOf us)
  /-- The opening mark of the first frame was taken for a closing mark. -/
  | misaligned (y : List UInt8) (u : UsiMsg) (us' : List UsiMsg) (hus : us = u :: us')
      (hy : msgMark ∉ y) (hwhole : whole = y ++ msgMark :: streamOf us')
  /-- The first pending mark opens a frame; at most the first frame was lost. -/
  | aligned (e : List (ℕ × List UInt8)) (base gone left : List UsiMsg)
      (hbase : base = us ∨ base = us.tail) (hsplit : base = gone ++ left)
      (hlog : log = e ++ gone.map UsiMsg.delivery) (hwhole : whole = streamOf left)

/-- When the first pending mark belongs to the frames (what follows it is not longer
than they are) and another mark follows at once, the length check is due. -/
def FrameMarkFlagged (us : List UsiMsg) (rest : List Input) (inp : Input) (s : State) : Prop :=
  ∀ g r, pendingBytes inp s = g ++ msgMark :: msgMark :: r → msgMark ∉ g →
    (msgMark :: msgMark :: r ++ bytesRead rest).length ≤ (streamOf us).length → s.sbCheckLen = true

/-- The condition on the calls. -/
def GarbageCondition (us : List UsiMsg) (rest : List Input) (inp : Input) (s : State) : Prop :=
  PendingBelow inp s ∧ SearchInside inp s ∧ FrameMarkFlagged us rest inp s

section Garbage

variable {cb : ℕ → Option Serialization} {us : List UsiMsg} {p p' q y g c r : List UInt8}
  {f f' : Bool} {e log : List (ℕ × List UInt8)}

/-- A mark at the front of a text that ends in the frames is one of the garbage or
the first one of the frames. -/
theorem front_split (h : (g ++ msgMark :: r) ++ q = y ++ streamOf us) (hg : msgMark ∉ g) :
    (∃ y', y = g ++ msgMark :: y' ∧ r ++ q = y' ++ streamOf us) ∨
      ∃ u us', us = u :: us' ∧ y = g ∧ r ++ q = u.text ++ msgMark :: streamOf us' := by
  by_cases hy : msgMark ∈ y
  · obtain ⟨g1, y', rfl, hg1⟩ := List.eq_append_cons_of_mem hy
    simp only [List.append_assoc, List.cons_append] at h
    obtain ⟨rfl, hr⟩ := append_mark_inj h hg hg1
    exact Or.inl ⟨y', rfl, hr⟩
  · cases us with
    | nil =>
        have hmem : msgMark ∈ y ++ streamOf [] := by
          rw [← h]
          simp
        rw [show streamOf [] = [] from rfl, List.append_nil] at hmem
        exact absurd hmem hy
    | cons u us' =>
        rw [streamOf_cons] at h
        obtain ⟨rfl, hr⟩ := append_append_mark_inj h hg hy
        exact Or.inr ⟨u, us', rfl, rfl, hr⟩

/-- Where the first two marks can be, with garbage in front of the frames. -/
theorem garbage_split (h : (g ++ msgMark :: (c ++ msgMark :: r)) ++ q = y ++ streamOf us)
    (hg : msgMark ∉ g) (hc : msgMark ∉ c) :
    (∃ y', r ++ q = y' ++ streamOf us) ∨
      (∃ u us', us = u :: us' ∧ r ++ q = u.text ++ msgMark :: streamOf us') ∨
      ∃ u us', us = u :: us' ∧ c = u.text ∧ r ++ q = streamOf us' := by
  rcases front_split h hg with ⟨y1, rfl, h1⟩ | ⟨u, us', rfl, rfl, h1⟩
  · rcases front_split h1 hc with ⟨y2, rfl, h2⟩ | ⟨u, us', rfl, rfl, h2⟩
    · exact Or.inl ⟨y2, h2⟩
    · exact Or.inr (Or.inl ⟨u, us', rfl, h2⟩)
  · obtain ⟨rfl, h2⟩ := append_append_mark_inj h1 hc u.msgMark_not_mem_text
    exact Or.inr (Or.inr ⟨u, us', rfl, rfl, h2⟩)

/-- **One step with garbage in front.** -/
theorem GarbageProgress.step (hreg : ∀ u ∈ us, cb u.callbackIdx ≠ none)
    (h : GarbageProgress us (p ++ q) log) (hstep : RxStep cb p f p' f' e)
    (hflag : ∀ g r, p = g ++ msgMark :: msgMark :: r → msgMark ∉ g →
      (msgMark :: msgMark :: r ++ q).length ≤ (streamOf us).length → f = true) :
    GarbageProgress us (p' ++ q) (log ++ e) := by
  cases h with
  | garbage y hwhole =>
      cases hstep with
      | idle f => exact .garbage y hwhole
      | discard p f hne hmark =>
          rcases List.append_eq_append_iff.mp hwhole with ⟨d, -, hq⟩ | ⟨d, hp, hus⟩
          · exact .garbage d hq
          · have hd : d = [] := usiEscapes.nil_of_stream_append hus.symm
              fun hmem => hmark (by rw [hp]; exact List.mem_append_right _ hmem)
            subst hd
            exact .garbage [] hus.symm
      | wait g t f hg ht => exact .garbage y hwhole
      | resync g c r hg hc hlen =>
          rcases garbage_split hwhole hg hc with
            ⟨y', hr⟩ | ⟨u, us', rfl, hr⟩ | ⟨u, us', rfl, rfl, -⟩
          · exact .garbage (msgMark :: y') (by rw [List.cons_append, hr]; rfl)
          · refine .aligned (log ++ []) _ [] _ (Or.inl rfl) rfl (by simp) ?_
            rw [streamOf_cons, List.cons_append, hr]
          · exact absurd (lenOk_decoded_text u) hlen
      | take g c r f e hg hc hlen he hvalid =>
          rcases garbage_split hwhole hg hc with
            ⟨y', hr⟩ | ⟨u, us', rfl, hr⟩ | ⟨u, us', rfl, rfl, hr⟩
          · exact .garbage y' hr
          · exact .misaligned u.text u us' rfl u.msgMark_not_mem_text hr
          · rw [hvalid u (hreg u (by simp)) rfl]
            exact .aligned log _ [u] us' (Or.inl rfl) rfl rfl hr
  | misaligned y u us' hus hy hwhole =>
      cases hstep with
      | idle f => exact .misaligned y u us' hus hy hwhole
      | discard p f hne hmark =>
          obtain ⟨d, rfl, hq⟩ := exists_append_of_not_mem hwhole hmark
          exact .misaligned d u us' hus (fun hmem => hy (List.mem_append_right _ hmem)) hq
      | wait g t f hg ht => exact .misaligned y u us' hus hy hwhole
      | resync g c r hg hc hlen =>
          obtain ⟨rfl, h1⟩ := append_append_mark_inj hwhole hg hy
          obtain ⟨-, -, hr⟩ := kept_split (g := []) (by rw [← h1]; rfl) (by simp) hc
          exact .aligned (log ++ []) us' [] us' (Or.inr (by rw [hus]; rfl)) rfl (by simp) hr
      | take g c r f e hg hc hlen he hvalid =>
          -- both marks would be dropped; the condition on the call excludes it
          obtain ⟨rfl, h1⟩ := append_append_mark_inj hwhole hg hy
          obtain ⟨-, rfl, hr⟩ := kept_split (g := []) (by rw [← h1]; rfl) (by simp) hc
          have hlong : (msgMark :: msgMark :: p' ++ q).length ≤ (streamOf us).length := by
            have := congrArg List.length hr
            rw [hus, streamOf_cons]
            simp only [List.length_cons, List.length_append] at this ⊢
            omega
          exact absurd (hlen (hflag _ p' rfl hg hlong)) not_lenOk_nil
  | aligned e' base gone left hbase hsplit hlog hwhole =>
      have hleft : ∀ u ∈ left, cb u.callbackIdx ≠ none := by
        intro u hu
        have hmem : u ∈ base := by simp [hsplit, hu]
        rcases hbase with rfl | rfl
        · exact hreg u hmem
        · exact hreg u (List.mem_of_mem_tail hmem)
      rcases hstep.streamOf hwhole hleft with ⟨hp', rfl⟩ | ⟨u, left', rfl, hp', rfl⟩
      · exact .aligned e' base gone left hbase hsplit (by simpa using hlog) hp'
      · exact .aligned e' base (gone ++ [u]) left' hbase (by simp [hsplit]) (by simp [hlog]) hp'

theorem invariant_garbage (hreg : ∀ u ∈ us, cb u.callbackIdx ≠ none) :
    Invariant cb (GarbageCondition us) fun p _ rest log =>
      GarbageProgress us (p ++ bytesRead rest) log := by
  refine ⟨?_, ?_, ?_⟩
  · rintro inp rest p f log hnone h
    rwa [bytesRead_cons, bytes_of_read_none hnone, List.nil_append] at h
  · rintro inp rest s p f b log htr hread ⟨hbelow, hin, -⟩ h
    exact ⟨(hbelow.length_lt htr hread).le, hin⟩
  · rintro inp rest s p f b log p' f' e htr hread ⟨-, -, hflag⟩ h hstep
    rw [bytesRead_cons, bytes_of_read hread, ← List.append_assoc] at h
    apply h.step hreg hstep
    intro g r hp hg hlen
    rw [← htr.flag]
    exact hflag g r ((htr.pendingBytes_eq hread).trans hp) hg hlen

/-- The frames are delivered in order, except perhaps the first; other deliveries may
come before, none after. -/
def DeliveredBehind (us : List UsiMsg) (log : List (ℕ × List UInt8)) : Prop :=
  ∃ e, log = e ++ us.map UsiMsg.delivery ∨ log = e ++ us.tail.map UsiMsg.delivery

/-- With at most one mark left, the reception is over. -/
theorem GarbageProgress.done (h : GarbageProgress us p log) (hone : p.count msgMark ≤ 1) :
    DeliveredBehind us log := by
  cases h with
  | garbage y hwhole =>
      rw [hwhole, List.count_append, count_streamOf] at hone
      obtain rfl := List.length_eq_zero_iff.mp (show us.length = 0 by omega)
      exact ⟨log, Or.inl (by simp)⟩
  | misaligned y u us' hus hy hwhole =>
      rw [hwhole, List.count_append, List.count_cons_self, count_streamOf] at hone
      obtain rfl := List.length_eq_zero_iff.mp (show us'.length = 0 by omega)
      exact ⟨log, Or.inr (by simp [hus])⟩
  | aligned e base gone left hbase hsplit hlog hwhole =>
      rw [hwhole, count_streamOf] at hone
      obtain rfl := List.length_eq_zero_iff.mp (show left.length = 0 by omega)
      rw [List.append_nil] at hsplit
      subst hsplit
      rcases hbase with rfl | rfl
      · exact ⟨e, Or.inl hlog⟩
      · exact ⟨e, Or.inr hlog⟩

/-- **Resynchronisation.**  Whatever bytes come first: unless a call meets two adjacent
marks of the frames with the flag clear, or its search leaves the buffer, at most the
first frame is lost. -/
theorem usi_resynchronises (us : List UsiMsg) (noise : List UInt8) (fd : ℤ)
    (behindRx behindTx : ℕ → UInt8) (regs : List (UInt8 × Option Serialization))
    (hreg : ∀ u ∈ us,
      (opened fd behindRx behindTx regs).usiCfgMapProtocols u.callbackIdx ≠ none)
    (inps tail : List Input) (hbytes : bytesRead inps = noise ++ streamOf us)
    (htail : ∀ i ∈ tail, i.Empty) (hlong : txauxSize ≤ tail.length)
    (hcond : Along (GarbageCondition us) (inps ++ tail) (opened fd behindRx behindTx regs)) :
    ∃ s' ev, usiRun (inps ++ tail) (opened fd behindRx behindTx regs) = some (s', ev)
      ∧ DeliveredBehind us (received ev) := by
  have hstart : GarbageProgress us ([] ++ bytesRead (inps ++ tail)) [] := by
    refine .garbage noise ?_
    rw [List.nil_append, bytesRead_append, bytesRead_of_empty htail, List.append_nil, hbytes]
  obtain ⟨s', ev, p', f', hrun, hprogress, hone⟩ :=
    usiRun_complete (invariant_garbage hreg) htail hlong
      (tracks_opened fd behindRx behindTx regs) rfl (by rw [loopback_opened]; omega) hcond hstart
  rw [bytesRead_nil, List.append_nil] at hprogress
  exact ⟨s', ev, hrun, hprogress.done hone⟩

/-- With no mark in the garbage, the first two marks are those of the first frame. -/
theorem unmarked_split (h : (g ++ msgMark :: (c ++ msgMark :: r)) ++ q = y ++ streamOf us)
    (hg : msgMark ∉ g) (hc : msgMark ∉ c) (hy : msgMark ∉ y) :
    ∃ u us', us = u :: us' ∧ c = u.text ∧ r ++ q = streamOf us' := by
  rcases front_split h hg with ⟨y1, rfl, -⟩ | ⟨u, us', rfl, rfl, h1⟩
  · exact absurd (by simp) hy
  · obtain ⟨rfl, h2⟩ := append_append_mark_inj h1 hc u.msgMark_not_mem_text
    exact ⟨u, us', rfl, rfl, h2⟩

/-- Garbage without a mark stays in front of the frames until it is dropped. -/
theorem invariant_unmarked (cb : ℕ → Option Serialization) :
    Invariant cb (fun _ inp s => PendingBelow inp s ∧ SearchInside inp s) fun p _ rest _ =>
      ∃ y left, msgMark ∉ y ∧ p ++ bytesRead rest = y ++ streamOf left := by
  refine ⟨?_, ?_, ?_⟩
  · rintro inp rest p f log hnone h
    rwa [bytesRead_cons, bytes_of_read_none hnone, List.nil_append] at h
  · rintro inp rest s p f b log htr hread ⟨hbelow, hin⟩ -
    exact ⟨(hbelow.length_lt htr hread).le, hin⟩
  · rintro inp rest s p f b log p' f' e htr hread - ⟨y, left, hy, h⟩ hstep
    rw [bytesRead_cons, bytes_of_read hread, ← List.append_assoc] at h
    generalize p ++ b = p at h hstep
    cases hstep with
    | idle f => exact ⟨y, left, hy, h⟩
    | discard p f hne hmark =>
        rcases List.append_eq_append_iff.mp h with ⟨d, rfl, hq⟩ | ⟨d, rfl, hus⟩
        · exact ⟨d, left, fun hmem => hy (List.mem_append_right _ hmem), hq⟩
        · have hd : d = [] := usiEscapes.nil_of_stream_append hus.symm
            fun hmem => hmark (List.mem_append_right _ hmem)
          subst hd
          exact ⟨[], left, by simp, hus.symm⟩
    | wait g t f hg ht => exact ⟨y, left, hy, h⟩
    | resync g c r hg hc hlen =>
        obtain ⟨u, us', rfl, rfl, -⟩ := unmarked_split h hg hc hy
        exact absurd (lenOk_decoded_text u) hlen
    | take g c r f e hg hc hlen he hvalid =>
        obtain ⟨u, us', rfl, rfl, hr⟩ := unmarked_split h hg hc hy
        exact ⟨[], us', by simp, hr⟩

/-- **Garbage without a mark** meets the condition: two adjacent marks never come first. -/
theorem along_garbageCondition {noise : List UInt8} (hnoise : msgMark ∉ noise) {inps : List Input}
    (hbytes : bytesRead inps = noise ++ streamOf us) {s : State} (htr : Tracks s [] false)
    (halong : Along (fun _ inp s => PendingBelow inp s ∧ SearchInside inp s) inps s) :
    Along (GarbageCondition us) inps s := by
  refine Along.of_invariant (invariant_unmarked s.usiCfgMapProtocols) ?_ inps s [] false [] htr rfl
    halong ⟨noise, us, hnoise, hbytes⟩
  rintro inp rest s p f log htr ⟨hbelow, hin⟩ ⟨y, left, hy, h⟩
  refine ⟨hbelow, hin, fun g r hp hg _ => ?_⟩
  rw [bytesRead_cons, ← List.append_assoc, ← htr.loaded.slice, ← htr.size] at h
  rw [pendingBytes] at hp
  rw [hp] at h
  obtain ⟨u, us', -, htext, -⟩ := unmarked_split (c := []) h hg (by simp) hy
  exact absurd htext.symm u.text_ne_nil

end Garbage

theorem frameMarkFlagged_iff {us : List UsiMsg} {rest : List Input} {inp : Input} {s : State} :
    FrameMarkFlagged us rest inp s ↔
      ∀ k < (pendingBytes inp s).length, msgMark ∉ (pendingBytes inp s).take k →
        ((pendingBytes inp s).drop k).take 2 = [msgMark, msgMark] →
        (pendingBytes inp s).length - (k + 2) + 1 + 1 + (bytesRead rest).length
          ≤ (streamOf us).length → s.sbCheckLen = true := by
  rw [← adjacent_iff (Q := fun n => n + 1 + 1 + (bytesRead rest).length ≤ (streamOf us).length →
    s.sbCheckLen = true)]
  simp only [FrameMarkFlagged, List.length_append, List.length_cons]

instance decidableFrameMarkFlagged (us : List UsiMsg) (rest : List Input) (inp : Input)
    (s : State) : Decidable (FrameMarkFlagged us rest inp s) :=
  decidable_of_iff _ frameMarkFlagged_iff.symm

theorem frameMarkFlagged_append {us : List UsiMsg} {rest tail : List Input} {inp : Input}
    {s : State} (htail : ∀ i ∈ tail, i.Empty) :
    FrameMarkFlagged us (rest ++ tail) inp s ↔ FrameMarkFlagged us rest inp s := by
  simp only [FrameMarkFlagged, bytesRead_append, bytesRead_of_empty htail, List.append_nil]

/-- A stray mark in front of two frames.  The first frame is lost with it; its closing mark
waits for one call, so that the opening mark of the second frame is kept. -/
def strayMarkReads : List Input :=
  [oneRead (msgMark :: msgMark :: snifferMsg.text), oneRead [msgMark], oneRead snifferMsg.frame,
    oneRead []]

/-- The second frame is delivered. -/
theorem usi_resynchronises_sniffer :
    ∃ s' ev, usiRun (strayMarkReads ++ silence txauxSize) snifferReceiver = some (s', ev)
      ∧ DeliveredBehind [snifferMsg, snifferMsg] (received ev) := by
  have hread : bytesRead strayMarkReads = [msgMark] ++ streamOf [snifferMsg, snifferMsg] := by
    decide +kernel
  have htail := empty_of_mem_silence (n := txauxSize)
  have htr : Tracks snifferReceiver [] false := tracks_opened _ _ _ _
  have hshort : 2 * (([] : List UInt8).length + (bytesRead strayMarkReads).length) < txauxSize := by
    decide +kernel
  refine usi_resynchronises [snifferMsg, snifferMsg] [msgMark] 3 _ _ _
    (registered_snifferMsg (by simp)) strayMarkReads (silence _) hread htail length_silence.ge ?_
  have hbelow := along_of_short (strayMarkReads ++ silence txauxSize) htr
    (by rwa [bytesRead_append, bytesRead_of_empty htail, List.append_nil])
  have hflag : Along (FrameMarkFlagged [snifferMsg, snifferMsg])
      (strayMarkReads ++ silence txauxSize) snifferReceiver := by
    refine along_of_settled (fun rest inp s hone g r hP => (not_adjacent_of_count hone hP).elim)
      htail htr (by decide) hshort (n := 0) (by decide) (by decide +kernel) ?_
    have hfirst : Along (FrameMarkFlagged [snifferMsg, snifferMsg]) strayMarkReads
        snifferReceiver := by
      decide +kernel
    exact hfirst.mono fun rest inp s => (frameMarkFlagged_append htail).mpr
  exact (hbelow.and hflag).mono fun _ _ _ h => ⟨h.1.1, h.1.2, h.2⟩

/-- A mark, then two frames, in one read.  The mark and the opening mark of the first
frame are taken for an empty frame; its closing mark and the opening mark of the second
frame likewise.  Both frames are lost. -/
theorem usi_does_not_resynchronise :
    ¬ ∀ (us : List UsiMsg) (noise : List UInt8) (_ : ∀ u : UsiMsg, ¬ u.frame <:+: noise) (fd : ℤ)
        (behindRx behindTx : ℕ → UInt8) (regs : List (UInt8 × Option Serialization))
        (_ : ∀ u ∈ us,
          (opened fd behindRx behindTx regs).usiCfgMapProtocols u.callbackIdx ≠ none)
        (inps : List Input), bytesRead inps = noise ++ streamOf us →
      ∃ n, ∀ tail : List Input, (∀ i ∈ tail, i.Empty) → n ≤ tail.length →
        Along (fun _ => PendingBelow) (inps ++ tail) (opened fd behindRx behindTx regs) →
        ∃ s' ev, usiRun (inps ++ tail) (opened fd behindRx behindTx regs) = some (s', ev)
          ∧ DeliveredBehind us (received ev) := by
  intro hclaim
  set inps : List Input :=
    [oneRead (msgMark :: streamOf [snifferMsg, snifferMsg]), oneRead []] with hinps
  have hread : bytesRead inps = [msgMark] ++ streamOf [snifferMsg, snifferMsg] := by
    rw [hinps]
    rfl
  have hnoise : ∀ u : UsiMsg, ¬ u.frame <:+: [msgMark] := by
    intro u hinfix
    have hlen := hinfix.length_le
    rw [UsiMsg.frame, Escapes.delimit] at hlen
    simp at hlen
  have hshort : 2 * (([] : List UInt8).length + (bytesRead inps).length) < txauxSize := by
    rw [hread]
    decide +kernel
  obtain ⟨n, hn⟩ := hclaim [snifferMsg, snifferMsg] [msgMark] hnoise 3 _ _ _
    (registered_snifferMsg (by simp)) inps hread
  obtain ⟨e, hlog⟩ := delivers_nothing hshort (by decide +kernel)
    (hn (silence n) empty_of_mem_silence length_silence.ge)
  rcases hlog with hlog | hlog
  · simp at hlog
  · simp at hlog

end Usi
