/-
# Messages that TCP cuts

TCP delivers a stream: what the concentrator sends as one message may arrive in several
reads, and several messages in one.  `dlmsotcp_callback` handles every read by itself.
The messages of a read are found one after the other, but the start of a message at the
end of a read is thrown away, and its rest at the front of the next read is taken for a
header.  The messages sent are handled exactly when no read ends inside a message.
-/
import PlcManager.DlmsotcpSocket

namespace Dlmsotcp

/-- `MAX_BUFFER_SIZE`. -/
def maxBufferSize : ℕ := 1514

/-! ## The bytes of a message -/

/-- Version, source, destination and length. -/
def Message.header (m : Message) : List UInt8 :=
  [0, 1, (m.source >>> 8).toUInt8, m.source.toUInt8, (m.dest >>> 8).toUInt8, m.dest.toUInt8,
    (m.len >>> 8).toUInt8, m.len.toUInt8]

/-- A message as the concentrator sends it. -/
def Message.encode (m : Message) : List UInt8 := m.header ++ m.payload

/-- Messages one after the other. -/
def encodeAll (ms : List Message) : List UInt8 := ms.flatMap Message.encode

section Words

variable {hi lo : UInt8} {x : UInt16}

theorem toNat_eight_mod : (8 : UInt16).toNat % 16 = 8 := rfl

theorem toNat_word : (word hi lo).toNat = hi.toNat * 256 + lo.toNat := by
  have hhi := hi.toNat_lt
  have hlo := lo.toNat_lt
  unfold word
  rw [UInt16.toNat_add, UInt16.toNat_shiftLeft, toNat_eight_mod]
  simp only [UInt8.toNat_toUInt16, Nat.shiftLeft_eq]
  omega

theorem word_bytes : word (x >>> 8).toUInt8 x.toUInt8 = x := by
  apply UInt16.toNat_inj.mp
  have hx := x.toNat_lt
  rw [toNat_word]
  simp only [UInt16.toNat_toUInt8, UInt16.toNat_shiftRight, toNat_eight_mod,
    Nat.shiftRight_eq_div_pow]
  omega

theorem high_word : (word hi lo >>> 8).toUInt8 = hi := by
  apply UInt8.toNat_inj.mp
  have hhi := hi.toNat_lt
  have hlo := lo.toNat_lt
  simp only [UInt16.toNat_toUInt8, UInt16.toNat_shiftRight, toNat_eight_mod,
    Nat.shiftRight_eq_div_pow, toNat_word]
  omega

theorem low_word : (word hi lo).toUInt8 = lo := by
  apply UInt8.toNat_inj.mp
  have hhi := hi.toNat_lt
  have hlo := lo.toNat_lt
  simp only [UInt16.toNat_toUInt8, toNat_word]
  omega

end Words

section Encoding

variable {m : Message} {ms ns : List Message} {buf rest : List UInt8}

@[simp] theorem encodeAll_nil : encodeAll [] = [] := rfl

@[simp] theorem encodeAll_cons : encodeAll (m :: ms) = m.encode ++ encodeAll ms := rfl

theorem encodeAll_append : encodeAll (ms ++ ns) = encodeAll ms ++ encodeAll ns :=
  List.flatMap_append

theorem Message.length_encode : m.encode.length = 8 + m.payload.length := by
  rw [encode, List.length_append]
  rfl

/-- The fields of a message give it back. -/
theorem Message.of_fields {h : ((m.payload ++ rest).take m.len.toNat).length < maxLength432Data} :
    (⟨word (m.source >>> 8).toUInt8 m.source.toUInt8, word (m.dest >>> 8).toUInt8 m.dest.toUInt8,
      (m.payload ++ rest).take m.len.toNat, h⟩ : Message) = m := by
  obtain ⟨source, dest, payload, hlt⟩ := m
  have hlen := Message.toNat_len ⟨source, dest, payload, hlt⟩
  simp only [word_bytes, hlen, List.take_left]

/-- The first message of a stream. -/
theorem messages_encode : messages (m.encode ++ rest) = m :: messages rest := by
  have hlen := m.toNat_len
  have hfits : word 0 1 = 1 ∧ (word (m.len >>> 8).toUInt8 m.len.toUInt8).toNat
        ≤ (m.payload ++ rest).length
      ∧ (word (m.len >>> 8).toUInt8 m.len.toUInt8).toNat < maxLength432Data := by
    rw [word_bytes, hlen]
    exact ⟨rfl, by simp, m.length_lt⟩
  have hdrop : (m.payload ++ rest).drop m.len.toNat = rest := by rw [hlen, List.drop_left]
  change messages (_ :: _ :: _ :: _ :: _ :: _ :: _ :: _ :: (m.payload ++ rest)) = _
  rw [messages, dif_pos hfits]
  simp only [word_bytes (x := m.len), hdrop, Message.of_fields]

theorem messages_encodeAll : messages (encodeAll ms) = ms := by
  induction ms with
  | nil => exact messages_nil
  | cons m ms ih => rw [encodeAll_cons, messages_encode, ih]

/-- The messages of a read are at its front. -/
theorem messages_at_front (buf : List UInt8) : encodeAll (messages buf) <+: buf := by
  induction buf using messages.induct with
  | case1 v1 v0 s1 s0 d1 d0 l1 l0 rest h ih =>
      have hversion : v1 = 0 ∧ v0 = 1 := by
        have h1 : v1 = (word v1 v0 >>> 8).toUInt8 := high_word.symm
        have h0 : v0 = (word v1 v0).toUInt8 := low_word.symm
        rw [h.1] at h1 h0
        exact ⟨h1, h0⟩
      obtain ⟨rfl, rfl⟩ := hversion
      have hlen : Message.len ⟨word s1 s0, word d1 d0, rest.take (word l1 l0).toNat,
          (List.length_take_le _ _).trans_lt h.2.2⟩ = word l1 l0 := by
        rw [Message.len, List.length_take, Nat.min_eq_left h.2.1, UInt16.ofNat_toNat]
      rw [messages, dif_pos h, encodeAll_cons, Message.encode, Message.header, hlen]
      simp only [high_word, low_word]
      obtain ⟨tail, htail⟩ := ih
      refine ⟨tail, ?_⟩
      rw [List.append_assoc, List.append_assoc, htail, List.take_append_drop]
      rfl
  | case2 v1 v0 s1 s0 d1 d0 l1 l0 rest h =>
      rw [messages, dif_neg h]
      exact List.nil_prefix
  | case3 buf hshort =>
      rw [messages.eq_2 buf hshort]
      exact List.nil_prefix

end Encoding

/-! ## Whole messages -/

section Whole

variable {clock : ℕ → ℕ} {m : Message} {ms : List Message} {rest : List UInt8} {s t : State}
  {fd : ℤ}

theorem rxRound_encode : rxRound clock (m.encode ++ rest) s
    = (handleMessage clock m s).map fun s' => (s', if rest = [] then none else some rest) := by
  have hlen := m.toNat_len
  have hfield : (word (m.len >>> 8).toUInt8 m.len.toUInt8).toNat = m.payload.length := by
    rw [word_bytes, hlen]
  have hdrop : (m.payload ++ rest).drop m.payload.length = rest := List.drop_left
  change rxRound clock (_ :: _ :: _ :: _ :: _ :: _ :: _ :: _ :: (m.payload ++ rest)) s = _
  rw [rxRound_message rfl (by rw [hfield]; simp) (by rw [hfield]; exact m.length_lt)
    (by rw [hfield, List.take_left]; exact m.length_lt)]
  simp only [word_bytes (x := m.len), Message.of_fields]
  rw [hlen, hdrop]

/-- A read that is cut between messages: they are handled, and nothing is printed. -/
theorem rxRounds_encodeAll {fuel : ℕ} (hfuel : (encodeAll ms).length < fuel) :
    rxRounds clock fuel (encodeAll ms) s = runSteps (handleMessage clock) ms s := by
  induction ms generalizing fuel s with
  | nil =>
      obtain ⟨k, rfl⟩ : ∃ k, fuel = k + 1 := ⟨fuel - 1, by omega⟩
      rfl
  | cons m ms ih =>
      obtain ⟨k, rfl⟩ : ∃ k, fuel = k + 1 := ⟨fuel - 1, by omega⟩
      rw [encodeAll_cons, List.length_append, Message.length_encode] at hfuel
      rw [encodeAll_cons, rxRounds, rxRound_encode, runSteps_cons]
      cases handleMessage clock m s with
      | none => rfl
      | some t =>
          by_cases hnil : encodeAll ms = []
          · -- the last message of the read
            have hms : ms = [] := by
              have hmessages : messages (encodeAll ms) = ms := messages_encodeAll
              rw [← hmessages, hnil, messages_nil]
            subst hms
            rfl
          · simp only [Option.map_some, Option.bind_some, if_neg hnil]
            exact ih (by omega)

theorem step_encodeAll : step clock (.packet fd (encodeAll ms)) s
    = runSteps (handleMessage clock) ms { s with siDlmsoctpDataFd := fd } :=
  rxRounds_encodeAll (Nat.lt_succ_self _)

theorem runSteps_handleMessage_siDlmsoctpDataFd
    (h : runSteps (handleMessage clock) ms s = some t) :
    t.siDlmsoctpDataFd = s.siDlmsoctpDataFd := by
  induction ms generalizing s with
  | nil => rw [← Option.some.inj h]
  | cons m ms ih =>
      obtain ⟨u, hu, hrest⟩ := Option.bind_eq_some_iff.mp h
      exact (ih hrest).trans (handleMessage_siDlmsoctpDataFd hu)

/-- Reads cut between messages: all the messages are handled, whatever the groups. -/
theorem runSteps_groups {groups : List (List Message)} (hfd : s.siDlmsoctpDataFd = fd) :
    runSteps (step clock) (groups.map fun g => .packet fd (encodeAll g)) s
      = runSteps (handleMessage clock) groups.flatten s := by
  induction groups generalizing s with
  | nil => rfl
  | cons g groups ih =>
      have hs : ({ s with siDlmsoctpDataFd := fd } : State) = s := by rw [← hfd]
      rw [List.map_cons, runSteps_cons, step_encodeAll, hs, List.flatten_cons, runSteps_append]
      cases hg : runSteps (handleMessage clock) g s with
      | none => rfl
      | some t =>
          exact ih ((runSteps_handleMessage_siDlmsoctpDataFd hg).trans hfd)

/-- The same from any state: the first read sets the descriptor. -/
theorem runSteps_groups_of_ne_nil {groups : List (List Message)} (hne : groups ≠ []) :
    runSteps (step clock) (groups.map fun g => .packet fd (encodeAll g)) s
      = runSteps (handleMessage clock) groups.flatten { s with siDlmsoctpDataFd := fd } := by
  cases groups with
  | nil => exact absurd rfl hne
  | cons g groups =>
      rw [← runSteps_groups (s := { s with siDlmsoctpDataFd := fd }) rfl]
      rfl

end Whole

/-! ## Cuts -/

/-- The reads in which a stream of messages may arrive. -/
structure Arrives (ms : List Message) (reads : List (List UInt8)) : Prop where
  flatten : reads.flatten = encodeAll ms
  size : ∀ r ∈ reads, r ≠ [] ∧ r.length ≤ maxBufferSize

/-- The messages that are handled when the reads arrive. -/
def actedOn (reads : List (List UInt8)) : List Message := reads.flatMap messages

/-- Exactly the messages sent are handled, in order, and with the same effects as if each
had arrived alone. -/
def Independent (ms : List Message) (reads : List (List UInt8)) : Prop :=
  actedOn reads = ms ∧ ∀ clock fd s,
    runSteps (step clock) (reads.map (.packet fd)) s
      = runSteps (step clock) (ms.map fun m => .packet fd m.encode) s

/-- No read ends inside a message. -/
def CutsBetween (ms : List Message) (reads : List (List UInt8)) : Prop :=
  ∀ k, ∃ j, (reads.take k).flatten = encodeAll (ms.take j)

section Cuts

variable {ms : List Message} {reads : List (List UInt8)}

theorem encodeAll_flatMap_length_le (reads : List (List UInt8)) :
    (encodeAll (actedOn reads)).length ≤ reads.flatten.length := by
  induction reads with
  | nil => exact le_rfl
  | cons r reads ih =>
      have hr := (messages_at_front r).length_le
      unfold actedOn at ih ⊢
      rw [List.flatMap_cons, encodeAll_append, List.length_append, List.flatten_cons,
        List.length_append]
      exact Nat.add_le_add hr ih

/-- If no byte is lost, every read consists of whole messages. -/
theorem whole_of_length_eq (h : (encodeAll (actedOn reads)).length = reads.flatten.length) :
    ∀ r ∈ reads, encodeAll (messages r) = r := by
  induction reads with
  | nil => exact fun r hr => absurd hr List.not_mem_nil
  | cons r reads ih =>
      have hr := messages_at_front r
      have hle := hr.length_le
      have hrest := encodeAll_flatMap_length_le reads
      have hsum : (encodeAll (messages r)).length + (encodeAll (actedOn reads)).length
          = r.length + reads.flatten.length := by
        rw [← List.length_append, ← encodeAll_append, ← List.length_append]
        exact h
      intro q hq
      rcases List.mem_cons.mp hq with rfl | hq
      · exact hr.eq_of_length (by omega)
      · exact ih (by omega) q hq

/-- The reads as groups of whole messages. -/
theorem flatten_eq_of_whole (h : ∀ r ∈ reads, encodeAll (messages r) = r) :
    reads.flatten = encodeAll (actedOn reads) := by
  induction reads with
  | nil => rfl
  | cons r reads ih =>
      unfold actedOn at ih ⊢
      rw [List.flatten_cons, List.flatMap_cons, encodeAll_append, h r List.mem_cons_self,
        ih fun q hq => h q (List.mem_cons_of_mem _ hq)]

theorem cutsBetween_of_whole (h : ∀ r ∈ reads, encodeAll (messages r) = r)
    (hms : actedOn reads = ms) : CutsBetween ms reads := by
  intro k
  refine ⟨(actedOn (reads.take k)).length, ?_⟩
  have hprefix : actedOn (reads.take k) = ms.take (actedOn (reads.take k)).length := by
    rw [← hms]
    unfold actedOn
    nth_rewrite 3 [← List.take_append_drop k reads]
    rw [List.flatMap_append, List.take_left]
  rw [← hprefix]
  exact flatten_eq_of_whole fun r hr => h r (List.mem_of_mem_take hr)

/-- The first of the reads that are cut between messages, and the others. -/
theorem CutsBetween.cons {r : List UInt8} (h : CutsBetween ms (r :: reads)) :
    ∃ j, r = encodeAll (ms.take j) ∧ CutsBetween (ms.drop j) reads := by
  obtain ⟨j, hj⟩ := h 1
  have hr : r = encodeAll (ms.take j) := by
    rw [← hj]
    exact (List.append_nil r).symm
  refine ⟨j, hr, fun k => ?_⟩
  obtain ⟨i, hi⟩ := h (k + 1)
  have hi : r ++ (reads.take k).flatten = encodeAll (ms.take i) := hi
  refine ⟨i - j, List.append_cancel_left (hi.trans ?_)⟩
  rw [hr, ← encodeAll_append]
  rcases le_or_gt j i with hle | hlt
  · rw [← List.take_add, Nat.add_sub_cancel' hle]
  · -- an earlier cut: nothing has come in between
    rw [Nat.sub_eq_zero_of_le hlt.le, List.take_zero, List.append_nil]
    rw [hr] at hi
    have hfront : encodeAll (ms.take i) <+: encodeAll (ms.take j) := by
      obtain ⟨tail, htail⟩ := List.take_prefix_take_left hlt.le (l := ms)
      exact ⟨encodeAll tail, by rw [← encodeAll_append, htail]⟩
    have hback : encodeAll (ms.take j) <+: encodeAll (ms.take i) := ⟨_, hi⟩
    exact hfront.eq_of_length (Nat.le_antisymm hfront.length_le hback.length_le)

/-- Reads that are cut between messages are groups of them. -/
theorem CutsBetween.groups (h : CutsBetween ms reads) (hflat : reads.flatten = encodeAll ms) :
    ∃ groups : List (List Message), groups.flatten = ms ∧ reads = groups.map encodeAll := by
  induction reads generalizing ms with
  | nil =>
      refine ⟨[], ?_, rfl⟩
      have hmessages : messages (encodeAll ms) = ms := messages_encodeAll
      rw [← hmessages, ← hflat]
      exact messages_nil.symm
  | cons r reads ih =>
      obtain ⟨j, hr, hrest⟩ := h.cons
      have hflat' : reads.flatten = encodeAll (ms.drop j) := by
        rw [List.flatten_cons, hr] at hflat
        apply List.append_cancel_left (hflat.trans ?_)
        rw [← encodeAll_append, List.take_append_drop]
      obtain ⟨groups, hgroups, hreads⟩ := ih hrest hflat'
      refine ⟨ms.take j :: groups, ?_, ?_⟩
      · rw [List.flatten_cons, hgroups, List.take_append_drop]
      · rw [List.map_cons, ← hr, hreads]

/-- Messages that arrive in groups are handled as if each had arrived alone. -/
theorem independent_of_groups {groups : List (List Message)} (hgroups : groups.flatten = ms)
    (hne : ∀ g ∈ groups, g ≠ []) : Independent ms (groups.map encodeAll) := by
  constructor
  · unfold actedOn
    rw [List.flatMap_map, ← hgroups]
    simp only [messages_encodeAll, List.flatMap_id']
  · intro clock fd s
    rw [List.map_map]
    cases groups with
    | nil =>
        subst hgroups
        rfl
    | cons g groups =>
        have hms : ms.map (fun m => [m]) ≠ [] := by
          intro hnil
          rw [List.map_eq_nil_iff.mp hnil] at hgroups
          exact hne g List.mem_cons_self (List.flatten_eq_nil_iff.mp hgroups g List.mem_cons_self)
        have halone : ms.map (fun m => Event.packet fd m.encode)
            = (ms.map fun m => [m]).map fun g => Event.packet fd (encodeAll g) := by
          rw [List.map_map]
          apply List.map_congr_left
          intro m _
          exact congrArg (Event.packet fd) (List.append_nil _).symm
        have hsingle : (ms.map fun m => [m]).flatten = ms := by
          rw [← List.flatMap_def, List.flatMap_singleton']
        rw [halone, runSteps_groups_of_ne_nil hms, hsingle, ← hgroups]
        exact runSteps_groups_of_ne_nil (List.cons_ne_nil g groups)

/-- **Segmentation.**  However TCP cuts the messages into reads, exactly the messages are
handled, in order and as if each had arrived alone, if and only if no read ends inside a
message. -/
theorem dlmsotcp_reads_independent_iff (ms : List Message) (reads : List (List UInt8))
    (harr : Arrives ms reads) : Independent ms reads ↔ CutsBetween ms reads := by
  constructor
  · rintro ⟨hms, -⟩
    have hlength : (encodeAll (actedOn reads)).length = reads.flatten.length := by
      rw [hms, harr.flatten]
    exact cutsBetween_of_whole (whole_of_length_eq hlength) hms
  · intro hcuts
    obtain ⟨groups, hgroups, rfl⟩ := hcuts.groups harr.flatten
    apply independent_of_groups hgroups
    intro g hg hnil
    apply (harr.size (encodeAll g) (List.mem_map_of_mem hg)).1
    rw [hnil]
    rfl

end Cuts

/-! ### A cut inside a message -/

/-- The client asks for the list of nodes. -/
def listRequest : Message := ⟨1, 0, [3], by decide⟩

/-- It arrives in two reads, the second of which starts inside the header. -/
def cutInside : List (List UInt8) := [[0, 1, 0, 1], [0, 0, 0, 1, 3]]

/-- Two messages that arrive in one read. -/
def coalesced : List (List UInt8) := [encodeAll [listRequest, listRequest]]

/-- Neither read holds a whole header, and the message is lost. -/
theorem dlmsotcp_cut_message_lost :
    ¬ ∀ (ms : List Message) (reads : List (List UInt8)), Arrives ms reads →
      Independent ms reads := by
  intro h
  have harr : Arrives [listRequest] cutInside := ⟨by decide, by decide⟩
  have hacted := (h [listRequest] cutInside harr).1
  have hlost : actedOn cutInside = [] := by
    unfold actedOn cutInside
    rw [List.flatMap_cons, List.flatMap_cons, messages.eq_2 _ (by simp), messages.eq_2 _ (by simp)]
    rfl
  rw [hlost] at hacted
  exact absurd hacted (by simp)

/-- The rule applies to messages that arrive together. -/
theorem dlmsotcp_coalesced_independent_iff :
    Independent [listRequest, listRequest] coalesced
      ↔ CutsBetween [listRequest, listRequest] coalesced :=
  dlmsotcp_reads_independent_iff _ _ ⟨rfl, by decide⟩

end Dlmsotcp
