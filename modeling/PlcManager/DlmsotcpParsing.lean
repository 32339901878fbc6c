/-
# A packet is parsed as a grammar says

The concentrator's packets are sequences of messages: version 1, source, destination,
length, as many bytes as the length says, fewer than `MAX_LENGTH_432_DATA`.
`dlmsotcp_RxProcess` acts on the messages of the longest front of the packet that is such a
sequence, one after the other, and on nothing behind it; it prints a text when what follows
has the header of another version.
-/
import PlcManager.DlmsotcpNodes
import PlcManager.DlmsotcpSegments

namespace Dlmsotcp

/-! ## The longest front -/

/-- `ms` are the messages of the longest front of `buf` that is a sequence of messages. -/
structure LongestFront (buf : List UInt8) (ms : List Message) : Prop where
  front : encodeAll ms <+: buf
  longest : ∀ ns, encodeAll ns <+: buf → (encodeAll ns).length ≤ (encodeAll ms).length

section Front

variable {buf rest : List UInt8} {ms ns : List Message}

theorem messages_append : messages (encodeAll ms ++ rest) = ms ++ messages rest := by
  induction ms with
  | nil => rfl
  | cons m ms ih => rw [encodeAll_cons, List.append_assoc, messages_encode, ih, List.cons_append]

/-- Every sequence of messages at the front of a packet is read. -/
theorem prefix_messages (h : encodeAll ns <+: buf) : ns <+: messages buf := by
  obtain ⟨rest, rfl⟩ := h
  rw [messages_append]
  exact List.prefix_append _ _

theorem longestFront_messages (buf : List UInt8) : LongestFront buf (messages buf) where
  front := messages_at_front buf
  longest ns h := by
    obtain ⟨ms, hms⟩ := prefix_messages h
    rw [← hms, encodeAll_append, List.length_append]
    omega

/-- There is one longest front only. -/
theorem LongestFront.eq_messages (h : LongestFront buf ms) : ms = messages buf := by
  obtain ⟨ns, hns⟩ := prefix_messages h.front
  have hlen := h.longest _ (messages_at_front buf)
  rw [← hns, encodeAll_append, List.length_append] at hlen
  cases ns with
  | nil => rw [← hns, List.append_nil]
  | cons n ns =>
      rw [encodeAll_cons, List.length_append, Message.length_encode] at hlen
      omega

/-- Behind the messages of a packet there is no further one. -/
theorem messages_rest (h : buf = encodeAll (messages buf) ++ rest) : messages rest = [] := by
  have hall := congrArg messages h
  rw [messages_append] at hall
  exact List.self_eq_append_right.mp hall

end Front

/-! ## The rounds -/

/-- What is printed about the bytes that are not acted on. -/
def refusal : List UInt8 → List Output
  | v1 :: v0 :: _ :: _ :: _ :: _ :: _ :: _ :: _ =>
      if word v1 v0 ≠ 1 then [.printf badVersionText []] else []
  | _ => []

section Rounds

variable {clock : ℕ → ℕ} {rest : List UInt8} {ms : List Message} {s : State} {fuel : ℕ}

/-- The round that finds no message. -/
theorem rxRound_rest (h : messages rest = []) :
    rxRound clock rest s = some (s.emit (refusal rest), none) := by
  by_cases hshort : rest.length < 8
  · have hno : refusal rest = [] := by
      unfold refusal
      split
      · simp only [List.length_cons] at hshort
        omega
      · rfl
    rw [rxRound, if_pos hshort, hno, State.emit_nil]
  · obtain ⟨v1, v0, s1, s0, d1, d0, l1, l0, tail, rfl⟩ : ∃ v1 v0 s1 s0 d1 d0 l1 l0 tail,
        rest = v1 :: v0 :: s1 :: s0 :: d1 :: d0 :: l1 :: l0 :: tail := by
      by_contra hno
      push Not at hno
      exact hshort (length_lt_of_no_header fun v1 v0 s1 s0 d1 d0 l1 l0 tail heq =>
        hno v1 v0 s1 s0 d1 d0 l1 l0 tail heq)
    have hincomplete : ¬ (word v1 v0 = 1 ∧ (word l1 l0).toNat ≤ tail.length
        ∧ (word l1 l0).toNat < maxLength432Data) := by
      intro hfits
      rw [messages, dif_pos hfits] at h
      cases h
    rw [rxRound_stop hincomplete, refusal]
    split_ifs
    · rfl
    · rw [State.emit_nil]

/-- The rounds act on the messages at the front, then one more finds none. -/
theorem rxRounds_front (h : messages rest = []) (hfuel : (encodeAll ms ++ rest).length < fuel) :
    rxRounds clock fuel (encodeAll ms ++ rest) s
      = (runSteps (handleMessage clock) ms s).map fun s' => s'.emit (refusal rest) := by
  induction ms generalizing fuel s with
  | nil =>
      obtain ⟨k, rfl⟩ : ∃ k, fuel = k + 1 := ⟨fuel - 1, by omega⟩
      rw [encodeAll_nil, List.nil_append, rxRounds, rxRound_rest h]
      rfl
  | cons m ms ih =>
      obtain ⟨k, rfl⟩ : ∃ k, fuel = k + 1 := ⟨fuel - 1, by omega⟩
      rw [encodeAll_cons, List.append_assoc, List.length_append, Message.length_encode] at hfuel
      rw [encodeAll_cons, List.append_assoc, rxRounds, rxRound_encode, runSteps_cons]
      cases handleMessage clock m s with
      | none => rfl
      | some t =>
          by_cases hnil : encodeAll ms ++ rest = []
          · -- the packet ends with this message
            obtain ⟨hms, hrest⟩ := List.append_eq_nil_iff.mp hnil
            have hmessages : messages (encodeAll ms) = ms := messages_encodeAll
            rw [hms, messages_nil] at hmessages
            subst hrest
            rw [← hmessages]
            simp [refusal]
          · simp only [Option.map_some, Option.bind_some, if_neg hnil]
            exact ih (by omega)

theorem dlmsotcpRxProcess_eq (clock : ℕ → ℕ) (buf : List UInt8) (s : State) :
    dlmsotcpRxProcess clock buf s = (runSteps (handleMessage clock) (messages buf) s).map
      fun s' => s'.emit (refusal (buf.drop (encodeAll (messages buf)).length)) := by
  obtain ⟨rest, hrest⟩ := messages_at_front buf
  have hrounds : rxRounds clock (buf.length + 1) (encodeAll (messages buf) ++ rest) s = _ :=
    rxRounds_front (messages_rest hrest.symm) (by rw [hrest]; omega)
  have hdrop : buf.drop (encodeAll (messages buf)).length = rest := by
    conv_lhs => rw [← hrest, messages_append, messages_rest hrest.symm, List.append_nil]
    exact List.drop_left
  rw [hrest] at hrounds
  rw [dlmsotcpRxProcess, hrounds, hdrop]

end Rounds

/-! ## Reachable states -/

section Reachable

variable {clock : ℕ → ℕ} {s : State} {w w' : Server} {e : ServerEvent} {bytes : List UInt8}
  {i : ℕ} {node : ConnectedNode}

theorem sameLists_notifyClient : s.SameLists (notifyClient bytes s) := by
  unfold notifyClient
  split_ifs
  · exact ⟨rfl, rfl, rfl, (State.requests_emit _).trans (List.append_nil _)⟩
  · exact ⟨rfl, rfl, rfl, rfl⟩

theorem sameLists_setNode : s.SameLists (s.setNode i node) := ⟨rfl, rfl, rfl, rfl⟩

theorem State.SameLists.trans {t u : State} (h : s.SameLists t) (h' : t.SameLists u) :
    s.SameLists u :=
  ⟨h'.heap.trans h.heap, h'.free.trans h.free, h'.pending.trans h.pending,
    h'.requests.trans h.requests⟩

theorem sameLists_listRecords {ptrMsg : Mem UInt8} : s.SameLists (listRecords ptrMsg s) := by
  unfold listRecords
  apply forRange_invariant (fun t => s.SameLists t) ⟨rfl, rfl, rfl, rfl⟩
  intro i t _ _ ht
  rw [storeRecord_eq]
  split_ifs
  · exact ht
  · exact ht.trans sameLists_setNode

theorem sameLists_closed : s.SameLists (lastConnectionClosed s) := by
  unfold lastConnectionClosed dlmsotcpClose432
  refine forRange_invariant (fun t => s.SameLists t) ⟨rfl, rfl, rfl, rfl⟩ ?_
  intro i t _ _ ht
  dsimp only
  split_ifs
  · exact ⟨ht.heap, ht.free, ht.pending,
      ((State.requests_emit _).trans (List.append_nil _)).trans ht.requests⟩
  · exact ht

/-- Only packets and confirms touch the message lists. -/
theorem serverStep_sameLists (hcore : ∀ e', e ≠ .core e')
    (h : serverStep clock e w = some w') : w.core.SameLists w'.core := by
  cases e with
  | core e => exact absurd rfl (hcore e)
  | closed =>
      obtain rfl := Option.some.inj h
      dsimp only
      exact sameLists_closed
  | joinInd pucDeviceId ucDeviceIdLen usDstAddress pucMac =>
      obtain rfl := Option.some.inj h
      rw [join_core]
      split_ifs
      · exact sameLists_setNode.trans sameLists_notifyClient
      · exact sameLists_setNode
  | leaveInd usDstAddress =>
      obtain rfl := Option.some.inj h
      rw [leave_core]
      exact sameLists_setNode.trans sameLists_notifyClient
  | response ptrMsg len =>
      obtain rfl := Option.some.inj h
      rw [response_core]
      split_ifs
      · exact sameLists_listRecords
      · exact ⟨rfl, rfl, rfl, rfl⟩
  | dataInd ucDstLsap ucSrcLsap usDst srcAddress pucData ucLsduLen ucLinkClass =>
      obtain rfl := Option.some.inj h
      unfold dlmsotcpCl432DlDataIndCb
      split_ifs
      · exact sameLists_notifyClient
      · exact ⟨rfl, rfl, rfl, rfl⟩

/-- Every event that comes to its end keeps the buffers. -/
theorem serverStep_conserved (hw : w.core.Conserved) (h : serverStep clock e w = some w') :
    w'.core.Conserved := by
  by_cases hcore : ∀ e', e ≠ .core e'
  · obtain ⟨fs, ps, hholds, -⟩ := hw
    exact ((serverStep_sameLists hcore h).holds hholds).conserved
  · push Not at hcore
    obtain ⟨e, rfl⟩ := hcore
    obtain ⟨t, ht, rfl⟩ := Option.map_eq_some_iff.mp h
    obtain ⟨t', ht', hconserved⟩ := step_conserved hw (findsBuffers_of_step hw ht)
    cases ht.symm.trans ht'
    exact hconserved

theorem conserved_of_run {evs : List ServerEvent} (hw : w.core.Conserved)
    (hrun : runSteps (serverStep clock) evs w = some w') : w'.core.Conserved := by
  induction evs generalizing w with
  | nil => rwa [← Option.some.inj hrun]
  | cons e evs ih =>
      obtain ⟨u, hu, hrest⟩ := Option.bind_eq_some_iff.mp hrun
      exact ih (serverStep_conserved hw hu) hrest

end Reachable

/-- **A packet is parsed as the grammar says.**  In every state that a run reaches, with
whatever descriptor the packet comes from, `dlmsotcp_RxProcess` comes to its end without
reading behind the packet, and what it has done is what the messages of the longest front ask
for, one after the other, and the text about the header that follows them, if each data
message finds a free buffer. -/
theorem dlmsotcp_packet_parsing (clock : ℕ → ℕ) (appId : ℤ) (memory : ℕ → XDlmsMsg)
    (behind : ℕ → ConnectedNode) (evs : List ServerEvent) (w : Server)
    (hrun : runSteps (serverStep clock) evs (serverStarted appId memory behind) = some w)
    (fd : ℤ) (buf : List UInt8)
    (hbuffers : ∀ ms, LongestFront buf ms → AlongSteps (handleMessage clock) FindsBuffer ms
      { w.core with siDlmsoctpDataFd := fd }) :
    ∃ ms s', LongestFront buf ms
      ∧ runSteps (handleMessage clock) ms { w.core with siDlmsoctpDataFd := fd } = some s'
      ∧ dlmsotcpRxProcess clock buf { w.core with siDlmsoctpDataFd := fd }
        = some (s'.emit (refusal (buf.drop (encodeAll ms).length))) := by
  have hstart : (serverStarted appId memory behind).core.Conserved :=
    (holds_started appId memory behind).conserved
  obtain ⟨fs, ps, hholds, -⟩ := conserved_of_run hstart hrun
  have hconserved : State.Conserved { w.core with siDlmsoctpDataFd := fd } :=
    State.Holds.conserved ⟨hholds.toLists.congr rfl rfl rfl, hholds.perm⟩
  have hfront := longestFront_messages buf
  obtain ⟨s', hs', -⟩ := runSteps_induction (I := fun _ s => s.Conserved)
    (fun _ _ _ hs hb => handleMessage_conserved clock hs hb) (messages buf) [] _ hconserved
    (hbuffers _ hfront)
  exact ⟨messages buf, s', hfront, hs', by rw [dlmsotcpRxProcess_eq, hs', Option.map_some]⟩

/-- A data message for node 3, then the header of a message of version 2. -/
def dataThenOther : List UInt8 := emptyMessage ++ [0, 2, 0, 1, 0, 0, 0, 0]

/-- The data message finds a buffer after the start, and the rest is only printed about. -/
theorem dlmsotcp_packet_parsing_two : ∃ ms s', LongestFront dataThenOther ms
    ∧ runSteps (handleMessage fun _ => 0) ms
        { (serverStarted 3 zeroMemory zeroNodes).core with siDlmsoctpDataFd := 7 } = some s'
    ∧ dlmsotcpRxProcess (fun _ => 0) dataThenOther
        { (serverStarted 3 zeroMemory zeroNodes).core with siDlmsoctpDataFd := 7 }
      = some (s'.emit (refusal (dataThenOther.drop (encodeAll ms).length))) := by
  refine dlmsotcp_packet_parsing (fun _ => 0) 3 zeroMemory zeroNodes [] _ rfl 7 dataThenOther
    fun ms hms => ?_
  have hone : messages dataThenOther = [⟨2, 3, [], by decide⟩] := by
    have h : dataThenOther = Message.encode ⟨2, 3, [], by decide⟩ ++ [0, 2, 0, 1, 0, 0, 0, 0] :=
      rfl
    rw [h, messages_encode]
    rw [messages, dif_neg (by decide)]
  rw [hms.eq_messages, hone]
  refine ⟨fun _ => ?_, fun _ _ => trivial⟩
  have hholds := holds_started 3 zeroMemory zeroNodes
  intro hnone
  have hempty := hholds.free.pxHead_eq_none_iff.mp hnone
  cases hempty

end Dlmsotcp
