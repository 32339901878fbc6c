/-
# Soundness of delivery

When a message is handed to a callback, the bytes between its two marks should be
exactly what its header announces.  The CRC is evaluated, and the callback is given
its bytes, over the announced length wherever the closing mark is; only the length
check compares the two, and it is made only after an incomplete read.

What a call delivers is sound if the check is due whenever the call finds two marks with
enough bytes between them for a message.  From an empty buffer with the check not due,
every receiver of the PRIME API can be made to deliver what is not sound.  No invariant of
the receiver is needed but that the pending bytes do not fill the buffer.
-/
import PlcManager.UsiRuns

namespace Usi

/-! ## The message of a call -/

/-- The call searches the buffer `m` and finds its two marks at `first` and `last`. -/
def Marks (inp : Input) (s : State) (m : Mem UInt8) (first last : ℕ) : Prop :=
  ∃ bytes, inp.read = some bytes ∧ m = rxMemory inp s bytes
    ∧ m.find msgMark 0 ((s.rxUsSize + bytes.length) % 65536) = some first
    ∧ m.find msgMark (first + 1) ((s.rxUsSize + bytes.length) % 65536) = some last

/-- The unescaped bytes between two marks. -/
def between (m : Mem UInt8) (first last : ℕ) : List UInt8 :=
  decoded (m.slice (first + 1) (last - (first + 1)))

/-- A callback is handed `msg`, which starts at `ptr`, while the unescaped bytes `xs`
stand at `p` in the buffer `m`: they are a header, a payload of the announced length
and the CRC of both, and neither the CRC routine nor the callback sees a byte outside
them. -/
structure SoundDelivery (m : Mem UInt8) (p : ℕ) (xs : List UInt8) (ptr : ℕ) (msg : List UInt8) :
    Prop where
  length_eq : xs.length = 2 + lenOf xs + crcLen (typeOf xs)
  crc_eq : xs.drop (2 + lenOf xs)
    = crcBytes (typeOf xs) (usiCrc (typeOf xs) (xs.take (2 + lenOf xs)))
  crc_inside : p + (announcedLen m p + 2) ≤ p + xs.length
  le_ptr : p ≤ ptr
  ptr_le : ptr + msg.length ≤ p + xs.length

/-- Whatever the call hands to a callback is sound, for all answers of `write`: the
callback comes before the redirection to the loopback. -/
def CallSound (inp : Input) (s : State) : Prop :=
  ∀ w s' ev idx ptr msg, halUsiProcess { inp with writes := w } s = some (s', ev) →
    Event.callback idx ptr msg ∈ ev →
      ∃ m first last, Marks inp s m first last
        ∧ SoundDelivery (decodeCopy m first last).1 (first + 1) (between m first last) ptr msg

/-- The length check is made, or it would pass, or the message is not delivered: its
CRC is wrong or no callback is registered for its type. -/
def CallChecked (inp : Input) (s : State) : Prop :=
  ∀ m first last, Marks inp s m first last →
    s.sbCheckLen = true ∨ LenOk (between m first last)
      ∨ doEoMsg (decodeCopy m first last).1 (first + 1) (between m first last).length = false
      ∨ s.usiCfgMapProtocols (usiProtId2idx (typeOf (between m first last))) = none

/-- When the call finds two marks with four bytes or more between them, the length check is
due: the flag is set. -/
def CheckDue (inp : Input) (s : State) : Prop :=
  ∀ bytes first last, inp.read = some bytes →
    (rxMemory inp s bytes).find msgMark 0 ((s.rxUsSize + bytes.length) % 65536) = some first →
    (rxMemory inp s bytes).find msgMark (first + 1) ((s.rxUsSize + bytes.length) % 65536)
      = some last → first + 5 ≤ last → s.sbCheckLen = true

instance (inp : Input) (s : State) : Decidable (CheckDue inp s) :=
  match hread : inp.read with
  | none => isTrue fun _ _ _ h => absurd (hread.symm.trans h) (by simp)
  | some bytes =>
      decidable_of_iff (∀ first ∈ (rxMemory inp s bytes).find msgMark 0
            ((s.rxUsSize + bytes.length) % 65536),
          ∀ last ∈ (rxMemory inp s bytes).find msgMark (first + 1)
            ((s.rxUsSize + bytes.length) % 65536), first + 5 ≤ last → s.sbCheckLen = true)
        ⟨fun h bytes' first last hread' hfirst hlast => by
            obtain rfl : bytes = bytes' := Option.some.inj (hread.symm.trans hread')
            exact h first hfirst last hlast,
          fun h first hfirst last hlast => h bytes first last hread hfirst hlast⟩

/-! ## Inversion of a call -/

section Inversion

variable {inp : Input} {s s' : State} {ev : List Event} {m : Mem UInt8} {first last : ℕ}

/-- Both marks are well inside sixteen bits. -/
theorem Marks.bounds (h : Marks inp s m first last) (hbelow : PendingBelow inp s) :
    first < last ∧ last + 1 < 32768 := by
  obtain ⟨bytes, hread, -, hfirst, hlast⟩ := h
  rw [PendingBelow, bytes_of_read hread, txauxSize] at hbelow
  have h1 := (Mem.find_eq_some.mp hfirst).2.1
  have h2 := Mem.find_eq_some.mp hlast
  omega

/-- The marks do not depend on the answers of `write`. -/
theorem marks_writes {w : Writes} : Marks { inp with writes := w } s m first last
    ↔ Marks inp s m first last :=
  Iff.rfl

theorem Marks.unique {m' : Mem UInt8} {first' last' : ℕ} (h : Marks inp s m first last)
    (h' : Marks inp s m' first' last') : m = m' ∧ first = first' ∧ last = last' := by
  obtain ⟨bytes, hread, rfl, hfirst, hlast⟩ := h
  obtain ⟨bytes', hread', rfl, hfirst', hlast'⟩ := h'
  obtain rfl : bytes = bytes' := Option.some.inj (hread.symm.trans hread')
  obtain rfl : first = first' := Option.some.inj (hfirst.symm.trans hfirst')
  exact ⟨rfl, rfl, Option.some.inj (hlast.symm.trans hlast')⟩

/-- With two marks, the call processes what is between them. -/
theorem Marks.halUsiProcess_eq (h : Marks inp s m first last) :
    ∃ pending, pending = (s.rxUsSize + inp.bytes.length) % 65536
      ∧ halUsiProcess inp s
          = processFrame inp.writes { s with pucRxbuf0 := m } pending first last := by
  obtain ⟨bytes, hread, rfl, hfirst, hlast⟩ := h
  refine ⟨_, rfl, ?_⟩
  rw [bytes_of_read hread]
  have hpos : (s.rxUsSize + bytes.length) % 65536 ≠ 0 := by
    have := (Mem.find_eq_some.mp hfirst).2.1
    omega
  unfold halUsiProcess
  unfold rxMemory at hfirst hlast ⊢
  rw [hread]
  simp only [if_neg hpos, hfirst, hlast]

/-- A call without two marks hands over nothing. -/
theorem marks_of_events (hrun : halUsiProcess inp s = some (s', ev)) (hev : ev ≠ []) :
    ∃ m first last, Marks inp s m first last := by
  unfold halUsiProcess at hrun
  cases hread : inp.read with
  | none =>
      rw [hread] at hrun
      cases hrun
      exact absurd rfl hev
  | some bytes =>
      rw [hread] at hrun
      dsimp only at hrun
      split_ifs at hrun
      · cases hrun
        exact absurd rfl hev
      · split at hrun
        · cases hrun
          exact absurd rfl hev
        · rename_i first hfirst
          split at hrun
          · cases hrun
            exact absurd rfl hev
          · rename_i last hlast
            exact ⟨_, first, last, bytes, hread, rfl, hfirst, hlast⟩

/-- The decoded text in the buffer. -/
theorem Marks.decodeCopy_eq (h : Marks inp s m first last) (hbelow : PendingBelow inp s) :
    (decodeCopy m first last).2 = (between m first last).length
      ∧ (decodeCopy m first last).1.slice (first + 1) (between m first last).length
          = between m first last := by
  obtain ⟨hlt, hsmall⟩ := h.bounds hbelow
  obtain ⟨bytes, -, -, hfirst, -⟩ := h
  have hmark := (Mem.find_eq_some.mp hfirst).2.2.1
  have hlen : (m.slice (first + 1) (last - (first + 1))).length = last - (first + 1) :=
    Mem.length_slice
  obtain ⟨m', heq, hdec, -, -⟩ := decodeCopy_spec (c := m.slice (first + 1) (last - (first + 1)))
    (k := max m.top last) hmark (by rw [hlen]) (by omega) (by omega) (by omega)
  rw [hlen, show first + 1 + (last - (first + 1)) = last by omega] at heq
  rw [heq]
  exact ⟨rfl, hdec⟩

/-- The call by its three branches. -/
theorem Marks.call_eq (h : Marks inp s m first last) (hbelow : PendingBelow inp s) :
    ∃ pending, halUsiProcess inp s =
      let s' : State := { s with pucRxbuf0 := (decodeCopy m first last).1, sbCheckLen := false }
      if s.sbCheckLen = true ∧ ¬ LenOk (between m first last) then
        some (consume s' last pending, [])
      else if doEoMsg (decodeCopy m first last).1 (first + 1) (between m first last).length = true
        then (processMsg inp.writes s' (first + 1)).map
          fun r => (consume r.1 (last + 1) pending, r.2.1)
      else some (consume s' (last + 1) pending, []) := by
  obtain ⟨pending, hpend, heq⟩ := h.halUsiProcess_eq
  obtain ⟨hd, hslice⟩ := h.decodeCopy_eq hbelow
  have hsmall := (h.bounds hbelow).2
  have hp : pending < 32768 := by
    unfold PendingBelow txauxSize at hbelow
    omega
  refine ⟨pending, ?_⟩
  rw [heq, processFrame_eq hp hsmall]
  simp only [hd, checkIntegrityLen_slice hslice]

end Inversion

/-! ## The dispatcher -/

section Dispatch

variable {s : State} {t : UInt8} {p n : ℕ}

/-- A callback is given the payload, or header and payload. -/
theorem dispatch_region {idx q : ℕ} {msg : List UInt8} {r : UInt8}
    (h : dispatch s t p n = some ([.callback idx q msg], r)) :
    p ≤ q ∧ q + msg.length = p + (n + 2) := by
  have hcall : ∀ {t' : UInt8} {q' k : ℕ},
      callSerialization s t' q' k = some ([.callback idx q msg], r) → q = q' ∧ msg.length = k := by
    intro t' q' k hc
    obtain ⟨pf, -, hpf⟩ := Option.map_eq_some_iff.mp hc
    simp only [Prod.mk.injEq, List.cons.injEq, Event.callback.injEq, and_true] at hpf
    obtain ⟨⟨-, rfl, rfl⟩, -⟩ := hpf
    exact ⟨rfl, Mem.length_slice⟩
  unfold dispatch at h
  split_ifs at h <;>
    (obtain ⟨rfl, hlen⟩ := hcall h; omega)

/-- A registered callback of a known type is called. -/
theorem dispatch_registered (ht : t ∈ checkedProtocols)
    (hreg : s.usiCfgMapProtocols (usiProtId2idx t) ≠ none) :
    ∃ idx q msg r, dispatch s t p n = some ([.callback idx q msg], r) := by
  obtain ⟨pf, hpf⟩ := Option.ne_none_iff_exists'.mp hreg
  exact ⟨_, _, _, _, dispatch_eq ht hpf⟩

/-- Nothing but a registered callback is called. -/
theorem registered_of_dispatch {er : List Event × UInt8} (h : dispatch s t p n = some er) :
    s.usiCfgMapProtocols (usiProtId2idx t) ≠ none := by
  have hcall : ∀ {t' : UInt8} {q k : ℕ}, callSerialization s t' q k = some er →
      s.usiCfgMapProtocols (usiProtId2idx t') ≠ none := by
    intro t' q k hc hnone
    rw [callSerialization, hnone] at hc
    cases hc
  unfold dispatch at h
  split_ifs at h with h1 h2 h3 h4 h5
  · rw [usiProtId2idx_mngp h1]
    exact hcall h
  all_goals
    subst t
    exact hcall h

/-- The callback events of a processed message are those of the dispatcher. -/
theorem callback_of_processMsg {w : Writes} {s' : State} {ev : List Event} {r : UInt8}
    {idx q : ℕ} {msg : List UInt8} (h : processMsg w s p = some (s', ev, r))
    (hmem : Event.callback idx q msg ∈ ev) :
    ∃ r', dispatch s (typeProtocol (s.pucRxbuf0.cell (p + 1))) p (announcedLen s.pucRxbuf0 p)
      = some ([.callback idx q msg], r') := by
  rcases processMsg_cases h with ⟨-, rfl⟩ | ⟨i, q', msg', r', hdispatch, hrest⟩
  · cases hmem
  · have hone : Event.callback idx q msg ∈ [Event.callback i q' msg'] := by
      rcases hrest with ⟨-, rfl⟩ | ⟨cmd, st, sent, hsend, rfl⟩
      · exact hmem
      · rcases List.mem_append.mp hmem with hmem | hmem
        · exact hmem
        · -- sending calls nobody back
          have hnil := (halUsiSendCmd_frame hsend).2
          have hsent : (idx, msg) ∈ received sent := List.mem_filterMap.mpr ⟨_, hmem, rfl⟩
          rw [hnil] at hsent
          cases hsent
    cases List.mem_singleton.mp hone
    exact ⟨r', hdispatch⟩

/-- A `write` that always fails. -/
def Writes.refuse : Writes := ⟨fun _ _ => -1, 1⟩

theorem sendLoop_refuse (fdWr : ℤ) (m : Mem UInt8) (usLen usIdxIn : ℕ) :
    ∃ r, sendLoop Writes.refuse.result fdWr m usLen Writes.refuse.patience 0 usIdxIn = some r := by
  unfold sendLoop
  split_ifs
  · exact ⟨_, rfl⟩
  · exact ⟨_, rfl⟩

/-- A command that cannot be written is given up at once. -/
theorem halUsiSendCmd_refuse (s : State) (msg : XUsiCmd) :
    ∃ r, halUsiSendCmd .refuse s msg = some r := by
  have hencode : ∃ r, usiEncodeAndSend .refuse s msg = some r := by
    unfold usiEncodeAndSend
    dsimp only
    split
    · exact ⟨_, rfl⟩
    · split
      · exact ⟨_, rfl⟩
      · obtain ⟨r, hr⟩ := sendLoop_refuse _ _ _ _
        rw [hr]
        exact ⟨_, rfl⟩
  unfold halUsiSendCmd
  dsimp only
  split_ifs
  · exact ⟨_, rfl⟩
  · exact ⟨_, rfl⟩
  · exact ⟨_, rfl⟩
  · exact hencode

/-- When nothing can be written, `_process_msg` returns. -/
theorem processMsg_refuse (s : State) (p : ℕ) : ∃ r, processMsg .refuse s p = some r := by
  unfold processMsg
  dsimp only
  split
  · exact ⟨_, rfl⟩
  · split
    · exact ⟨_, rfl⟩
    · split_ifs
      · obtain ⟨r, hr⟩ := halUsiSendCmd_refuse s (loopbackCmd s
          (typeProtocol (s.pucRxbuf0.cell (p + 1))) (p + 2)
          (ucRetxLen s (typeProtocol (s.pucRxbuf0.cell (p + 1))) (announcedLen s.pucRxbuf0 p))
          (ucRetxLen_lt_usLen s _ _))
        rw [hr]
        exact ⟨_, rfl⟩
      · exact ⟨_, rfl⟩

/-- What passes the CRC check is not stopped by the dispatcher. -/
theorem processMsg_callback {d : ℕ} (heo : doEoMsg s.pucRxbuf0 p d = true)
    (hreg : s.usiCfgMapProtocols (usiProtId2idx (typeProtocol (s.pucRxbuf0.cell (p + 1))))
      ≠ none) :
    ∃ s' ev r idx q msg, processMsg .refuse s p = some (s', ev, r)
      ∧ Event.callback idx q msg ∈ ev := by
  obtain ⟨-, hvalid, ht, -⟩ := doEoMsg_iff.mp heo
  have hlen : announcedLen s.pucRxbuf0 p = 0 →
      lenProtocol (s.pucRxbuf0.cell p) (s.pucRxbuf0.cell (p + 1)) = 0 := by
    unfold announcedLen xlenProtocol lenProtocol
    split_ifs <;> omega
  have hpass : ¬ (announcedLen s.pucRxbuf0 p = 0 ∧
      ¬ (typeProtocol (s.pucRxbuf0.cell (p + 1)) = protocolMngpPrimeReset
        ∨ typeProtocol (s.pucRxbuf0.cell (p + 1)) = protocolMngpPrimeReboot)) :=
    fun hbad => hvalid ⟨hlen hbad.1, hbad.2⟩
  obtain ⟨idx, q, msg, r', hd⟩ := dispatch_registered (p := p)
    (n := announcedLen s.pucRxbuf0 p) ht hreg
  obtain ⟨⟨s', ev, r⟩, hrun⟩ := processMsg_refuse s p
  refine ⟨s', ev, r, idx, q, msg, hrun, ?_⟩
  have hprocess := processMsg_of_dispatch (w := .refuse) rfl rfl hpass hd
  rw [hrun] at hprocess
  split_ifs at hprocess
  · obtain ⟨x, -, hx⟩ := Option.map_eq_some_iff.mp hprocess.symm
    cases hx
    exact List.mem_append_left _ (List.mem_singleton.mpr rfl)
  · cases hprocess
    exact List.mem_singleton.mpr rfl

end Dispatch

/-! ## One call -/

section Call

variable {inp : Input} {s : State}

/-- A call that delivers soundly is checked. -/
theorem CallSound.checked (hbelow : PendingBelow inp s) (hsound : CallSound inp s) :
    CallChecked inp s := by
  intro m first last hmarks
  by_contra hbad
  push Not at hbad
  obtain ⟨hflag, hlenok, heo, hreg⟩ := hbad
  have heo' : doEoMsg (decodeCopy m first last).1 (first + 1) (between m first last).length
      = true := by simpa using heo
  -- the call as it goes when nothing can be written
  have hrefused : Marks { inp with writes := .refuse } s m first last := marks_writes.mpr hmarks
  obtain ⟨pending, hcall⟩ := hrefused.call_eq hbelow
  obtain ⟨-, hslice⟩ := hmarks.decodeCopy_eq hbelow
  obtain ⟨h4, -, hknown, -⟩ := doEoMsg_iff.mp heo'
  have ht := typeOf_eq hslice (by omega)
  rw [ht] at hknown
  rw [← ht] at hreg
  dsimp only at hcall
  rw [if_neg (fun h => hflag h.1), if_pos heo'] at hcall
  let s1 : State := { s with pucRxbuf0 := (decodeCopy m first last).1, sbCheckLen := false }
  obtain ⟨s2, ev, r, idx, q, msg, hmsg, hmem⟩ :=
    processMsg_callback (s := s1) (p := first + 1) heo' hreg
  rw [hmsg, Option.map_some] at hcall
  -- the message is handed over, so it must be sound, and its length was right
  obtain ⟨m', first', last', hmarks', hdel⟩ := hsound _ _ _ idx q msg hcall hmem
  obtain ⟨rfl, rfl, rfl⟩ := hmarks.unique hmarks'
  have hlen := hdel.length_eq
  exact hlenok ⟨h4, hknown, by omega⟩

/-- A call that hands over a message has passed the CRC check and the dispatcher. -/
theorem Marks.delivered {s' : State} {ev : List Event} {m : Mem UInt8} {first last idx ptr : ℕ}
    {msg : List UInt8} (hmarks : Marks inp s m first last) (hbelow : PendingBelow inp s)
    (hrun : halUsiProcess inp s = some (s', ev)) (hmem : Event.callback idx ptr msg ∈ ev) :
    ¬ (s.sbCheckLen = true ∧ ¬ LenOk (between m first last))
      ∧ doEoMsg (decodeCopy m first last).1 (first + 1) (between m first last).length = true
      ∧ ∃ r, dispatch { s with pucRxbuf0 := (decodeCopy m first last).1, sbCheckLen := false }
          (typeProtocol ((decodeCopy m first last).1.cell (first + 1 + 1))) (first + 1)
          (announcedLen (decodeCopy m first last).1 (first + 1))
        = some ([.callback idx ptr msg], r) := by
  obtain ⟨pending, hcall⟩ := hmarks.call_eq hbelow
  rw [hcall] at hrun
  dsimp only at hrun
  split_ifs at hrun with hresync heo
  · cases hrun
    cases hmem
  · obtain ⟨⟨s1, ev1, r⟩, hmsg, heq⟩ := Option.map_eq_some_iff.mp hrun
    cases heq
    exact ⟨hresync, heo, callback_of_processMsg hmsg hmem⟩
  · cases hrun
    cases hmem

/-- What a checked call delivers is sound. -/
theorem CallChecked.sound (hbelow : PendingBelow inp s) (hchecked : CallChecked inp s) :
    CallSound inp s := by
  intro w s' ev idx ptr msg hrun hmem
  obtain ⟨m, first, last, hfound⟩ := marks_of_events hrun (List.ne_nil_of_mem hmem)
  have hmarks := marks_writes.mp hfound
  obtain ⟨hresync, heo, r, hd⟩ := hfound.delivered hbelow hrun hmem
  obtain ⟨-, hslice⟩ := hmarks.decodeCopy_eq hbelow
  refine ⟨m, first, last, hmarks, ?_⟩
  obtain ⟨hptr, hregion⟩ := dispatch_region hd
  obtain ⟨h4, -, -, hcrc⟩ := doEoMsg_iff.mp heo
  have ht := typeOf_eq hslice (by omega)
  have hn := announcedLen_eq hslice (by omega)
  -- the callback was registered, so one of the two length conditions holds
  have hreg := registered_of_dispatch hd
  rw [ht] at hreg
  have hlenok : LenOk (between m first last) := by
    rcases hchecked m first last hmarks with hflag | hok | hrefused | hnone
    · by_contra hbad
      exact hresync ⟨hflag, hbad⟩
    · exact hok
    · rw [heo] at hrefused
      cases hrefused
    · exact absurd hnone hreg
  obtain ⟨-, -, hlen⟩ := hlenok
  rw [rxCrc_eq_iff, ht, hn] at hcrc
  rw [hn] at hregion
  refine ⟨by omega, ?_, by rw [hn]; omega, hptr, by omega⟩
  have hk : 2 + lenOf (between m first last) ≤ (between m first last).length := by omega
  have hdrop := Mem.drop_slice (m := (decodeCopy m first last).1) (i := first + 1) hk
  have htake := Mem.take_slice (m := (decodeCopy m first last).1) (i := first + 1) hk
  rw [hslice] at hdrop htake
  rw [hdrop, htake, Nat.add_comm 2, ← hcrc]
  congr 1
  · omega
  · omega

/-- **One call.**  It delivers soundly exactly when it is checked. -/
theorem callSound_iff (hbelow : PendingBelow inp s) : CallSound inp s ↔ CallChecked inp s :=
  ⟨CallSound.checked hbelow, CallChecked.sound hbelow⟩

/-- Fewer than four bytes are no message. -/
theorem CheckDue.checked (hbelow : PendingBelow inp s) (hdue : CheckDue inp s) :
    CallChecked inp s := by
  intro m first last hmarks
  obtain ⟨hlt, -⟩ := hmarks.bounds hbelow
  by_cases hlong : first + 5 ≤ last
  · obtain ⟨bytes, hread, rfl, hfirst, hlast⟩ := hmarks
    exact Or.inl (hdue bytes first last hread hfirst hlast hlong)
  · right
    right
    left
    rw [← Bool.not_eq_true, doEoMsg_iff]
    rintro ⟨h4, -⟩
    have hle := length_decoded_le (m.slice (first + 1) (last - (first + 1)))
    rw [Mem.length_slice] at hle
    unfold between at h4
    omega

/-- **Soundness of delivery.**  In every run with fewer pending bytes than the buffer
holds, whose calls find two marks only with the length check due, or too close together for
a message, every call delivers soundly. -/
theorem usi_delivery_sound (inps : List Input) (s : State)
    (hbelow : Along (fun _ => PendingBelow) inps s) (hdue : Along (fun _ => CheckDue) inps s) :
    Along (fun _ => CallSound) inps s :=
  (hbelow.and hdue).mono fun _ _ _ h => (h.2.checked h.1).sound h.1

/-- Five bytes between two marks: a header that announces one payload byte, and in last place
the CRC of the first three. -/
def fiveBytes : List UInt8 := [0x7e, 0x00, 0x70, 0x01, 0x55, 0x71, 0x7e]

/-- The two marks of a read of them, and what is between. -/
theorem marks_fiveBytes (hsize : s.rxUsSize = 0) :
    ∃ m, Marks (oneRead fiveBytes) s m 0 6 ∧ between m 0 6 = [0x00, 0x70, 0x01, 0x55, 0x71] := by
  obtain ⟨m, hm⟩ : ∃ m, m = rxMemory (oneRead fiveBytes) s fiveBytes := ⟨_, rfl⟩
  have hslice : m.slice 0 7 = fiveBytes := by
    rw [hm, rxMemory, hsize]
    exact Mem.slice_storeList
  have hinner : m.slice 1 5 = [0x00, 0x70, 0x01, 0x55, 0x71] := by
    have htail := Mem.drop_slice (m := m) (i := 0) (n := 6) (k := 1) (by decide)
    rw [← Mem.take_slice (m := m) (n := 7) (by decide), hslice] at htail
    exact htail.symm
  have hseven : (s.rxUsSize + fiveBytes.length) % 65536 = 7 := by
    rw [hsize]
    rfl
  refine ⟨m, ⟨fiveBytes, rfl, hm, ?_, ?_⟩, ?_⟩
  · rw [hseven]
    have hfirst : m.slice 0 7 = [] ++ msgMark :: [0x00, 0x70, 0x01, 0x55, 0x71, 0x7e] := hslice
    exact Mem.find_of_slice hfirst (by simp)
  · rw [hseven]
    have hsix : m.cell 6 = msgMark := Mem.cell_of_slice (k := 6) hslice (by decide)
    have hsecond : m.slice 1 (5 + 2)
        = [0x00, 0x70, 0x01, 0x55, 0x71] ++ msgMark :: [m.cell 7] := by
      rw [Mem.slice_add, hinner, Mem.slice_succ, hsix]
      rfl
    exact Mem.find_of_slice hsecond (by decide)
  · rw [between, hinner]
    decide

/-- The five bytes are taken for a message of one byte. -/
theorem doEoMsg_five {m : Mem UInt8} (h : m.slice 1 5 = [0x00, 0x70, 0x01, 0x55, 0x71]) :
    doEoMsg m 1 5 = true := by
  have ht := typeOf_eq h (by decide)
  have hn := announcedLen_eq h (by decide)
  have h0 : m.cell 1 = 0x00 := Mem.cell_of_slice (k := 0) h (by decide)
  have h1 : m.cell 2 = 0x70 := Mem.cell_of_slice (k := 1) h (by decide)
  have hlast : m.slice 5 1 = [0x71] := by
    have h5 : m.cell (1 + 4) = 0x71 := Mem.cell_of_slice (k := 4) h (by decide)
    rw [Mem.slice_succ, h5]
    rfl
  have hthree : m.slice 1 3 = [0x00, 0x70, 0x01] := by
    rw [← Mem.take_slice (n := 5) (by decide)]
    exact congrArg (List.take 3) h
  rw [doEoMsg_iff, rxCrc_eq_iff, ht, hn, h0, h1]
  refine ⟨by decide, by decide, by decide, ?_⟩
  show m.slice 5 1 = crcBytes _ (usiCrc _ (m.slice 1 3))
  rw [hlast, hthree]
  decide +kernel

/-- With nothing pending and the length check not due, a callback of the PRIME API can be
handed what is not sound. -/
theorem not_callSound_fiveBytes (hsize : s.rxUsSize = 0) (hflag : s.sbCheckLen = false)
    (hreg : s.usiCfgMapProtocols (usiProtId2idx protocolPrimeApi) ≠ none) :
    ¬ CallSound (oneRead fiveBytes) s := by
  intro hsound
  obtain ⟨m, hmarks, hbetween⟩ := marks_fiveBytes hsize
  have hbelow : PendingBelow (oneRead fiveBytes) s := by
    rw [PendingBelow, hsize]
    decide
  obtain ⟨-, hdecoded⟩ := hmarks.decodeCopy_eq hbelow
  have hchecked := (callSound_iff hbelow).mp hsound m 0 6 hmarks
  rw [hbetween] at hdecoded hchecked
  rcases hchecked with hdue | hlen | hcrc | hnone
  · rw [hflag] at hdue
    cases hdue
  · exact absurd hlen (by decide)
  · have htaken := doEoMsg_five hdecoded
    exact absurd (htaken.symm.trans hcrc) (by decide)
  · exact hreg hnone

end Call

/-- The receiver of the two examples below, with the PRIME API registered. -/
def primeApiReceiver : State :=
  opened 3 (fun _ => 0) (fun _ => 0) [(protocolPrimeApi, some fun _ => 0)]

theorem tracks_primeApiReceiver : Tracks primeApiReceiver [] false := tracks_opened _ _ _ _

/-- Two messages, each cut behind its header, so that the length check is due when the
closing mark comes; between them two marks without a message. -/
def cutMessages : List Input :=
  [oneRead [0x7e, 0x00, 0x70], oneRead [0x01, 0x71, 0x7e, 0x7e, 0x7e], oneRead [],
    oneRead [0x7e, 0x00, 0x70, 0x01], oneRead [0x71, 0x7e]]

/-- Both are delivered, and soundly. -/
theorem usi_delivery_sound_cutMessages :
    (usiRun cutMessages primeApiReceiver).map (fun r => received r.2)
        = some [(4, [0x01]), (4, [0x01])]
      ∧ Along (fun _ => CallSound) cutMessages primeApiReceiver := by
  refine ⟨by decide +kernel, usi_delivery_sound _ _ ?_ (by decide +kernel)⟩
  refine (along_of_short cutMessages tracks_primeApiReceiver ?_).mono fun _ _ _ hc => hc.1
  decide +kernel

/-- One read of a fresh receiver suffices. -/
theorem usi_delivery_unsound :
    ¬ ∀ (fd : ℤ) (behindRx behindTx : ℕ → UInt8) (regs : List (UInt8 × Option Serialization))
        (inps : List Input),
      Along (fun _ => PendingBelow) inps (opened fd behindRx behindTx regs) →
        Along (fun _ => CallSound) inps (opened fd behindRx behindTx regs) := by
  intro hclaim
  have hshort := along_of_short [oneRead fiveBytes] tracks_primeApiReceiver (by decide +kernel)
  have hbelow := hshort.mono fun _ _ _ hc => hc.1
  have hsound := (hclaim 3 (fun _ => 0) (fun _ => 0) [(protocolPrimeApi, some fun _ => 0)] _
    hbelow).1
  exact not_callSound_fiveBytes rfl tracks_primeApiReceiver.flag (Option.some_ne_none _) hsound

end Usi
