/-
# Packets are lists of messages

A packet from the concentrator is read as the longest list of complete messages of
version 1 at its front.  `dlmsotcp_RxProcess` handles these messages one after the
other, and prints a text if it stops at another version.
-/
import PlcManager.DlmsotcpLists
import PlcManager.Runs

namespace Dlmsotcp

/-! ## Messages -/

/-- A complete message with a payload that fits a message buffer. -/
structure Message where
  source : UInt16
  dest : UInt16
  payload : List UInt8
  length_lt : payload.length < maxLength432Data

namespace Message

/-- The length field. -/
def len (m : Message) : UInt16 := UInt16.ofNat m.payload.length

theorem toNat_len (m : Message) : m.len.toNat = m.payload.length := by
  have h := m.length_lt
  unfold maxLength432Data at h
  rw [len, UInt16.toNat_ofNat']
  exact Nat.mod_eq_of_lt (by omega)

/-- Messages that are forwarded to a node; the others are commands to the module. -/
def IsData (m : Message) : Prop := ¬ (m.source = 1 ∧ m.dest = 0 ∧ 1 ≤ m.len)

instance (m : Message) : Decidable m.IsData := inferInstanceAs (Decidable (¬ _))

/-- The request for a data message: the lsap, destination, length and bytes it came
with. -/
def request (m : Message) : DataRequest :=
  ⟨1, (m.source &&& 0xff).toUInt8, m.dest, m.payload, m.len, 0⟩

end Message

/-- Sixteen bits of a header. -/
def word (hi lo : UInt8) : UInt16 := (hi.toUInt16 <<< 8) + lo.toUInt16

/-- The messages of a packet. -/
def messages : List UInt8 → List Message
  | v1 :: v0 :: s1 :: s0 :: d1 :: d0 :: l1 :: l0 :: rest =>
      if h : word v1 v0 = 1 ∧ (word l1 l0).toNat ≤ rest.length
          ∧ (word l1 l0).toNat < maxLength432Data then
        ⟨word s1 s0, word d1 d0, rest.take (word l1 l0).toNat,
            (List.length_take_le _ _).trans_lt h.2.2⟩
          :: messages (rest.drop (word l1 l0).toNat)
      else []
  | _ => []
  termination_by buf => buf.length
  decreasing_by
    simp only [List.length_drop, List.length_cons]
    omega

/-- What `dlmsotcp_RxProcess` does with a message. -/
def handleMessage (clock : ℕ → ℕ) (m : Message) (s : State) : Option State :=
  rxMessage clock m.source m.dest m.len m.payload s

/-! ## The rounds -/

section Rounds

variable {clock : ℕ → ℕ} {s : State} {rest : List UInt8} {usSource usDest usDlmsLen : UInt16}

theorem readByte_take {n i : ℕ} (hi : i < n) : readByte (rest.take n) i = readByte rest i := by
  rw [readByte, readByte, List.getElem?_take_of_lt hi]

theorem readWord_take {n i : ℕ} (hi : i + 1 < n) : readWord (rest.take n) i = readWord rest i := by
  rw [readWord, readWord, readByte_take (by omega), readByte_take hi]

/-- Nothing behind a message is looked at. -/
theorem rxMessage_take (hlen : usDlmsLen.toNat ≤ rest.length) :
    rxMessage clock usSource usDest usDlmsLen (rest.take usDlmsLen.toNat) s
      = rxMessage clock usSource usDest usDlmsLen rest s := by
  have hbytes : readBytes (rest.take usDlmsLen.toNat) usDlmsLen.toNat
      = readBytes rest usDlmsLen.toNat := by
    rw [readBytes, readBytes, if_pos hlen, if_pos (by rw [List.length_take]; omega), List.take_take,
      Nat.min_self]
  unfold rxMessage
  by_cases hcustom : usSource = 1 ∧ usDest = 0 ∧ 1 ≤ usDlmsLen
  · rw [if_pos hcustom, if_pos hcustom]
    have hpos : 0 < usDlmsLen.toNat := by
      exact Nat.lt_of_succ_le (UInt16.le_iff_toNat_le.mp hcustom.2.2)
    unfold customMessage
    rw [readByte_take hpos]
    by_cases hthree : usDlmsLen = 3
    · rw [readWord_take (show 1 + 1 < usDlmsLen.toNat by rw [hthree]; decide)]
    · simp only [if_neg hthree]
  · rw [if_neg hcustom, if_neg hcustom, queueMessage, queueMessage, hbytes]

/-- A round that finds a header. -/
theorem rxRound_header {v1 v0 s1 s0 d1 d0 l1 l0 : UInt8} :
    rxRound clock (v1 :: v0 :: s1 :: s0 :: d1 :: d0 :: l1 :: l0 :: rest) s
      = if word v1 v0 ≠ 1 then some (s.emit [.printf badVersionText []], none)
        else if rest.length < (word l1 l0).toNat then some (s, none)
        else if maxLength432Data ≤ (word l1 l0).toNat then some (s, none)
        else (rxMessage clock (word s1 s0) (word d1 d0) (word l1 l0) rest s).map fun s' =>
          (s', if rest.drop (word l1 l0).toNat = [] then none
            else some (rest.drop (word l1 l0).toNat)) := by
  set buf := v1 :: v0 :: s1 :: s0 :: d1 :: d0 :: l1 :: l0 :: rest with hbuf
  have hlength : buf.length = rest.length + 8 := by simp [hbuf]
  have h0 : readWord buf 0 = some (word v1 v0) := rfl
  have h2 : readWord buf 2 = some (word s1 s0) := rfl
  have h4 : readWord buf 4 = some (word d1 d0) := rfl
  have h6 : readWord buf 6 = some (word l1 l0) := rfl
  unfold rxRound
  rw [if_neg (by omega), h0, Option.bind_some, h2, Option.bind_some, h4, Option.bind_some, h6,
    Option.bind_some]
  by_cases hversion : word v1 v0 ≠ 1
  · rw [if_pos hversion, if_pos hversion]
  rw [if_neg hversion, if_neg hversion]
  by_cases hshort : rest.length < (word l1 l0).toNat
  · rw [if_pos hshort, if_pos (by omega)]
  rw [if_neg hshort, if_neg (by omega)]
  by_cases hmax : maxLength432Data ≤ (word l1 l0).toNat
  · rw [if_pos hmax, if_pos hmax]
  rw [if_neg hmax, if_neg hmax, if_neg (by omega)]
  have hdrop : buf.drop (8 + (word l1 l0).toNat) = rest.drop (word l1 l0).toNat := by
    rw [Nat.add_comm, hbuf]
    rfl
  have hend : buf.length - 8 - (word l1 l0).toNat ≤ 0 ↔ rest.drop (word l1 l0).toNat = [] := by
    rw [List.drop_eq_nil_iff]
    omega
  apply congrArg (fun g => Option.map g _)
  funext s'
  rw [hdrop]
  by_cases hnil : rest.drop (word l1 l0).toNat = []
  · rw [if_pos hnil, if_pos (hend.mpr hnil)]
  · rw [if_neg hnil, if_neg (mt hend.mp hnil)]

/-- A round on a complete message handles it. -/
theorem rxRound_message {v1 v0 s1 s0 d1 d0 l1 l0 : UInt8} (hversion : word v1 v0 = 1)
    (hlen : (word l1 l0).toNat ≤ rest.length) (hmax : (word l1 l0).toNat < maxLength432Data)
    (htake : (rest.take (word l1 l0).toNat).length < maxLength432Data) :
    rxRound clock (v1 :: v0 :: s1 :: s0 :: d1 :: d0 :: l1 :: l0 :: rest) s
      = (handleMessage clock ⟨word s1 s0, word d1 d0, rest.take (word l1 l0).toNat, htake⟩ s).map
        fun s' => (s', if rest.drop (word l1 l0).toNat = [] then none
          else some (rest.drop (word l1 l0).toNat)) := by
  have hmsg : Message.len ⟨word s1 s0, word d1 d0, rest.take (word l1 l0).toNat, htake⟩
      = word l1 l0 := by
    rw [Message.len, List.length_take, Nat.min_eq_left hlen, UInt16.ofNat_toNat]
  rw [rxRound_header, if_neg (not_not.mpr hversion), if_neg (by omega), if_neg (by omega),
    handleMessage, hmsg, rxMessage_take hlen]

/-- A round that finds no complete message is the last one. -/
theorem rxRound_stop {v1 v0 s1 s0 d1 d0 l1 l0 : UInt8}
    (hno : ¬ (word v1 v0 = 1 ∧ (word l1 l0).toNat ≤ rest.length
      ∧ (word l1 l0).toNat < maxLength432Data)) :
    rxRound clock (v1 :: v0 :: s1 :: s0 :: d1 :: d0 :: l1 :: l0 :: rest) s
      = some (if word v1 v0 ≠ 1 then s.emit [.printf badVersionText []] else s, none) := by
  rw [rxRound_header]
  by_cases hversion : word v1 v0 ≠ 1
  · rw [if_pos hversion, if_pos hversion]
  rw [if_neg hversion, if_neg hversion]
  by_cases hshort : rest.length < (word l1 l0).toNat
  · rw [if_pos hshort]
  rw [if_neg hshort]
  by_cases hmax : maxLength432Data ≤ (word l1 l0).toNat
  · rw [if_pos hmax]
  · exact absurd ⟨not_not.mp hversion, not_lt.mp hshort, not_le.mp hmax⟩ hno

/-- Less than a header. -/
theorem length_lt_of_no_header : ∀ {buf : List UInt8},
    (∀ v1 v0 s1 s0 d1 d0 l1 l0 rest, buf = v1 :: v0 :: s1 :: s0 :: d1 :: d0 :: l1 :: l0 :: rest →
      False) → buf.length < 8
  | [], _ | [_], _ | [_, _], _ | [_, _, _], _ | [_, _, _, _], _ | [_, _, _, _, _], _
  | [_, _, _, _, _, _], _ | [_, _, _, _, _, _, _], _ => by simp
  | _ :: _ :: _ :: _ :: _ :: _ :: _ :: _ :: _, h => (h _ _ _ _ _ _ _ _ _ rfl).elim

theorem messages_nil : messages [] = [] := messages.eq_2 [] (by simp)

/-- The rounds handle the messages of the packet, and print at most one text. -/
theorem rxRounds_eq (clock : ℕ → ℕ) (buf : List UInt8) : ∃ outs : List Output,
    (outs = [] ∨ outs = [.printf badVersionText []]) ∧
      ∀ fuel s, buf.length < fuel →
        rxRounds clock fuel buf s
          = (runSteps (handleMessage clock) (messages buf) s).map fun s' => s'.emit outs := by
  induction buf using messages.induct with
  | case1 v1 v0 s1 s0 d1 d0 l1 l0 rest h ih =>
      obtain ⟨outs, houts, hrounds⟩ := ih
      have htake := (List.length_take_le (word l1 l0).toNat rest).trans_lt h.2.2
      by_cases hend : rest.drop (word l1 l0).toNat = []
      · refine ⟨[], Or.inl rfl, fun fuel s hfuel => ?_⟩
        obtain ⟨k, rfl⟩ : ∃ k, fuel = k + 1 := ⟨fuel - 1, by omega⟩
        rw [rxRounds, rxRound_message h.1 h.2.1 h.2.2 htake, messages, dif_pos h, runSteps_cons,
          hend, messages_nil]
        cases handleMessage clock
            ⟨word s1 s0, word d1 d0, rest.take (word l1 l0).toNat, htake⟩ s with
        | none => rfl
        | some t => simp
      · refine ⟨outs, houts, fun fuel s hfuel => ?_⟩
        obtain ⟨k, rfl⟩ : ∃ k, fuel = k + 1 := ⟨fuel - 1, by omega⟩
        rw [rxRounds, rxRound_message h.1 h.2.1 h.2.2 htake, messages, dif_pos h, runSteps_cons,
          if_neg hend]
        cases handleMessage clock
            ⟨word s1 s0, word d1 d0, rest.take (word l1 l0).toNat, htake⟩ s with
        | none => rfl
        | some t =>
            simp only [List.length_cons] at hfuel
            exact hrounds k t (by rw [List.length_drop]; omega)
  | case2 v1 v0 s1 s0 d1 d0 l1 l0 rest h =>
      refine ⟨if word v1 v0 ≠ 1 then [.printf badVersionText []] else [], ?_, ?_⟩
      · split_ifs
        · exact Or.inr rfl
        · exact Or.inl rfl
      · intro fuel s hfuel
        obtain ⟨k, rfl⟩ : ∃ k, fuel = k + 1 := ⟨fuel - 1, by omega⟩
        rw [rxRounds, rxRound_stop h, messages, dif_neg h]
        split_ifs
        · rfl
        · simp
  | case3 buf hshort =>
      refine ⟨[], Or.inl rfl, fun fuel s hfuel => ?_⟩
      obtain ⟨k, rfl⟩ : ∃ k, fuel = k + 1 := ⟨fuel - 1, by omega⟩
      rw [rxRounds, rxRound, if_pos (length_lt_of_no_header hshort), messages.eq_2 buf hshort]
      simp

/-- **A packet is its messages.** -/
theorem step_packet (clock : ℕ → ℕ) (fd : ℤ) (buf : List UInt8) : ∃ outs : List Output,
    (outs = [] ∨ outs = [.printf badVersionText []]) ∧
      ∀ s, step clock (.packet fd buf) s
        = (runSteps (handleMessage clock) (messages buf) { s with siDlmsoctpDataFd := fd }).map
            fun s' => s'.emit outs := by
  obtain ⟨outs, houts, hrounds⟩ := rxRounds_eq clock buf
  exact ⟨outs, houts, fun s => hrounds _ _ (Nat.lt_succ_self _)⟩

end Rounds

/-! ## What a message does to the lists -/

/-- The buffers, the lists and the requests are the same. -/
structure State.SameLists (s t : State) : Prop where
  heap : t.heap = s.heap
  free : t.xFreeMessagesList = s.xFreeMessagesList
  pending : t.xPendingCfmMessagesList = s.xPendingCfmMessagesList
  requests : t.requests = s.requests

section Effect

variable (clock : ℕ → ℕ) {s t : State} {m : Message} {f : ℕ} {fs ps : List ℕ}

theorem State.SameLists.holds (h : s.SameLists t) (hs : s.Holds fs ps) : t.Holds fs ps :=
  ⟨hs.toLists.congr h.free h.pending (by rw [h.heap]), hs.perm⟩

theorem State.SameLists.outbox (h : s.SameLists t) : t.outbox ps = s.outbox ps := by
  rw [State.outbox, State.outbox, State.requestsOf, State.requestsOf, h.heap, h.requests]

/-- The list of nodes goes to the socket. -/
theorem sameLists_sendList : s.SameLists (sendList432Connections s) := by
  unfold sendList432Connections
  split_ifs with hsend
  · apply forRange_invariant (fun t => s.SameLists t) ⟨rfl, rfl, rfl, rfl⟩
    intro i t _ _ h
    split_ifs
    · exact ⟨h.heap, h.free, h.pending,
        (State.requests_emit _).trans ((List.append_nil _).trans h.requests)⟩
    · exact h
  · exact ⟨rfl, rfl, rfl, rfl⟩

/-- A command reads its payload and leaves the lists alone. -/
theorem customMessage_spec (hlen : 1 ≤ m.len) :
    ∃ t, customMessage m.len m.payload s = some t ∧ s.SameLists t := by
  have hpos : 0 < m.payload.length := by
    rw [← m.toNat_len]
    exact Nat.lt_of_succ_le (UInt16.le_iff_toNat_le.mp hlen)
  have hcmd : readByte m.payload 0 = some m.payload[0] := List.getElem?_eq_getElem hpos
  have hid : m.len = 3 → ∃ deviceId, readWord m.payload 1 = some deviceId := by
    intro hthree
    have hlength : m.payload.length = 3 := by
      rw [← m.toNat_len, hthree]
      rfl
    rw [readWord, readByte, readByte, List.getElem?_eq_getElem (by omega),
      List.getElem?_eq_getElem (by omega)]
    exact ⟨_, rfl⟩
  unfold customMessage
  rw [hcmd, Option.bind_some]
  split_ifs with h3 h4 hl4 h5 hl5 h6 hl6
  · have h := sameLists_sendList (s := { s with iEnableNotifications := true })
    exact ⟨_, rfl, h.heap, h.free, h.pending, h.requests⟩
  · obtain ⟨deviceId, hread⟩ := hid hl4
    rw [hread]
    exact ⟨_, rfl, rfl, rfl, rfl, (State.requests_emit _).trans (List.append_nil _)⟩
  · exact ⟨s, rfl, rfl, rfl, rfl, rfl⟩
  · obtain ⟨deviceId, hread⟩ := hid hl5
    rw [hread]
    exact ⟨_, rfl, rfl, rfl, rfl, rfl⟩
  · exact ⟨s, rfl, rfl, rfl, rfl, rfl⟩
  · obtain ⟨deviceId, hread⟩ := hid hl6
    rw [hread]
    exact ⟨_, rfl, rfl, rfl, rfl, rfl⟩
  · exact ⟨s, rfl, rfl, rfl, rfl, rfl⟩
  · exact ⟨s, rfl, rfl, rfl, rfl, rfl⟩

/-- A command changes nothing that can be seen of the lists. -/
theorem handleMessage_command (hm : ¬ m.IsData) (h : s.Holds fs ps) :
    ∃ s', handleMessage clock m s = some s' ∧ s'.Holds fs ps ∧ s'.outbox ps = s.outbox ps := by
  have hcustom := not_not.mp hm
  obtain ⟨t, ht, hsame⟩ := customMessage_spec (s := s) hcustom.2.2
  refine ⟨t, ?_, hsame.holds h, hsame.outbox⟩
  rw [handleMessage, rxMessage, if_pos hcustom, ht]

/-- A data message that finds a free buffer is accepted, and the first pending message
may be given up. -/
theorem handleMessage_data (hm : m.IsData) (h : s.Holds (f :: fs) ps) :
    ∃ s' fs' ps', handleMessage clock m s = some s' ∧ s'.Holds fs' ps' ∧ ps' ≠ []
      ∧ (s'.outbox ps' = (s.outbox ps).accept m.request
        ∨ s'.outbox ps' = ((s.outbox ps).accept m.request).remove) := by
  obtain ⟨t, hqueue, ht, hout⟩ := h.queueMessage clock m.source m.dest m.len m.toNat_len.le
  rw [m.toNat_len, List.take_length] at hout
  have hhandle : handleMessage clock m s = checkPendingQueue clock t := by
    rw [handleMessage, rxMessage, if_neg hm, hqueue, Option.bind_some]
  obtain ⟨s', hcheck, ⟨hs', hout'⟩ | ⟨p, qs, hps, hqs, hs', hout'⟩⟩ :=
    ht.checkPendingQueue clock
  · exact ⟨s', fs, ps ++ [f], hhandle.trans hcheck, hs', by simp, Or.inl (hout'.trans hout)⟩
  · refine ⟨s', fs ++ [p], qs, hhandle.trans hcheck, hs', hqs, Or.inr (hout'.trans ?_)⟩
    rw [hout]
    rfl

/-- A data message that finds no free buffer makes the code follow a NULL pointer. -/
theorem handleMessage_full (hm : m.IsData) (h : s.Holds [] ps) :
    handleMessage clock m s = none := by
  rw [handleMessage, rxMessage, if_neg hm, h.queueMessage_full]
  rfl

end Effect

end Dlmsotcp
