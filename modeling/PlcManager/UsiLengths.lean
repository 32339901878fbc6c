/-
# Three readings of a length

The length of a message is taken from its header three times: by `_check_integrity_len`, by
`_doEoMsg` and by `_process_msg`.  The first and the last take eleven bits for the PRIME API
before they look at the length.  `_doEoMsg` refuses a message of length zero while it has
taken ten bits only, so that a PRIME API payload of 1024 bytes is empty to it.
-/
import PlcManager.UsiSoundness

namespace Usi

/-! ## Messages that should be handed over -/

/-- The type of a message whose first mark is at `p`. -/
def typeAt (m : Mem UInt8) (p : ℕ) : UInt8 := typeProtocol (m.cell (p + 2))

/-- How many of the `d` bytes of a message are payload. -/
def payloadLen (t : UInt8) (d : ℕ) : ℕ := d - 2 - crcLen t

/-- The `d` bytes behind the mark at `p` have the length that their header announces, end with
the CRC of header and payload, and are not empty unless they are a RESET or a REBOOT. -/
structure Intact (m : Mem UInt8) (p d : ℕ) : Prop where
  length : checkIntegrityLen m p d = true
  crc : m.slice (p + 1 + (d - crcLen (typeAt m p))) (crcLen (typeAt m p))
    = crcBytes (typeAt m p) (usiCrc (typeAt m p) (m.slice (p + 1) (d - crcLen (typeAt m p))))
  payload : payloadLen (typeAt m p) d ≠ 0 ∨ typeAt m p = protocolMngpPrimeReset
    ∨ typeAt m p = protocolMngpPrimeReboot

instance (m : Mem UInt8) (p d : ℕ) : Decidable (Intact m p d) :=
  decidable_of_iff (checkIntegrityLen m p d = true
    ∧ m.slice (p + 1 + (d - crcLen (typeAt m p))) (crcLen (typeAt m p))
      = crcBytes (typeAt m p) (usiCrc (typeAt m p) (m.slice (p + 1) (d - crcLen (typeAt m p))))
    ∧ (payloadLen (typeAt m p) d ≠ 0 ∨ typeAt m p = protocolMngpPrimeReset
      ∨ typeAt m p = protocolMngpPrimeReboot))
    ⟨fun h => ⟨h.1, h.2.1, h.2.2⟩, fun h => ⟨h.length, h.crc, h.payload⟩⟩

/-- `_process_msg` calls the callback of the message behind the mark at `p` once, with `n`
payload bytes, and with the two header bytes in front for the management types.  Whatever
`write` answers, nothing else is called; with some answers `_process_msg` returns. -/
def HandsOver (s : State) (p n : ℕ) : Prop :=
  (∃ w r, processMsg w s (p + 1) = some r) ∧
    ∀ w s' ev r, processMsg w s (p + 1) = some (s', ev, r) →
      received ev = [(usiProtId2idx (typeAt s.pucRxbuf0 p),
        deliveredSlice s.pucRxbuf0 (typeAt s.pucRxbuf0 p) (p + 1) n)]

/-- The message is accepted by `_doEoMsg` and handed over with its payload. -/
def LengthsAgree (s : State) (p d : ℕ) : Prop :=
  doEoMsg s.pucRxbuf0 (p + 1) d = true
    ∧ HandsOver s p (payloadLen (typeAt s.pucRxbuf0 p) d)

/-! ## The lengths -/

section Lengths

variable {m : Mem UInt8} {p d : ℕ}

theorem xlenProtocol_eq (a b c : UInt8) :
    xlenProtocol a b c = lenProtocol a b ∨ xlenProtocol a b c = lenProtocol a b + 1024 := by
  have hbit : c.toNat &&& 0x80 = 0 ∨ c.toNat &&& 0x80 = 128 := by
    rw [show (0x80 : ℕ) = 2 ^ 7 by rfl, Nat.and_two_pow]
    cases c.toNat.testBit 7
    · exact .inl rfl
    · exact .inr rfl
  unfold xlenProtocol lenProtocol
  rcases hbit with hbit | hbit
  · exact .inl (by rw [hbit]; rfl)
  · exact .inr (by rw [hbit]; rfl)

theorem lenProtocol_lt (a b : UInt8) : lenProtocol a b < 1024 := by
  have ha := a.toNat_lt
  have hb := b.toNat_lt
  unfold lenProtocol
  rw [Nat.shiftLeft_eq, Nat.shiftRight_eq_div_pow]
  omega

/-- Ten bits are zero for an empty payload, and for 1024 bytes of the PRIME API. -/
theorem lenProtocol_eq_zero_iff : lenProtocol (m.cell p) (m.cell (p + 1)) = 0
    ↔ announcedLen m p = 0 ∨ typeProtocol (m.cell (p + 1)) = protocolPrimeApi
      ∧ announcedLen m p = 1024 := by
  have hlt := lenProtocol_lt (m.cell p) (m.cell (p + 1))
  unfold announcedLen
  by_cases hapi : typeProtocol (m.cell (p + 1)) = protocolPrimeApi
  · rw [if_pos hapi]
    rcases xlenProtocol_eq (m.cell p) (m.cell (p + 1)) (m.cell (p + 2)) with h | h
    · rw [h]
      exact ⟨.inl, fun h' => h'.resolve_right fun h1024 => by omega⟩
    · rw [h]
      exact ⟨fun h0 => .inr ⟨hapi, by omega⟩, fun h' => by omega⟩
  · rw [if_neg hapi]
    exact ⟨.inl, fun h' => h'.resolve_right fun h1024 => hapi h1024.1⟩

namespace Intact

variable (h : Intact m p d)
include h

theorem known : typeAt m p ∈ checkedProtocols := (checkIntegrityLen_iff.mp h.length).2.1

/-- The length check leaves no room between payload and CRC. -/
theorem announced : announcedLen m (p + 1) = payloadLen (typeAt m p) d
    ∧ d = payloadLen (typeAt m p) d + 2 + crcLen (typeAt m p) := by
  have hlen : announcedLen m (p + 1) + 2 + crcLen (typeAt m p) = d :=
    (checkIntegrityLen_iff.mp h.length).2.2
  unfold payloadLen
  omega

/-- `_doEoMsg` looks at ten bits of the length. -/
theorem doEoMsg_iff : doEoMsg m (p + 1) d = true
    ↔ ¬ (typeAt m p = protocolPrimeApi ∧ payloadLen (typeAt m p) d = 1024) := by
  obtain ⟨hlen, hd⟩ := h.announced
  have hcrc := h.crc
  have h4 : 4 ≤ d := (checkIntegrityLen_iff.mp h.length).1
  rw [show d - crcLen (typeAt m p) = payloadLen (typeAt m p) d + 2 by omega] at hcrc
  have hreset : typeAt m p = protocolMngpPrimeReset ∨ typeAt m p = protocolMngpPrimeReboot →
      typeAt m p ≠ protocolPrimeApi := by
    rintro (ht | ht) <;> rw [ht] <;> decide
  rw [Usi.doEoMsg_iff, lenProtocol_eq_zero_iff, hlen, rxCrc_eq_iff]
  change 4 ≤ d ∧ ¬ ((payloadLen (typeAt m p) d = 0 ∨ typeAt m p = protocolPrimeApi
      ∧ payloadLen (typeAt m p) d = 1024) ∧ ¬ (typeAt m p = protocolMngpPrimeReset
        ∨ typeAt m p = protocolMngpPrimeReboot)) ∧ typeAt m p ∈ checkedProtocols
    ∧ m.slice (p + 1 + d - crcLen (typeAt m p)) (crcLen (typeAt m p)) = _ ↔ _
  rw [show p + 1 + d - crcLen (typeAt m p) = p + 1 + (payloadLen (typeAt m p) d + 2) by omega]
  constructor
  · rintro ⟨-, hguard, -⟩ hapi
    exact hguard ⟨.inr hapi, fun ht => hreset ht hapi.1⟩
  · intro hno
    refine ⟨h4, ?_, h.known, hcrc⟩
    rintro ⟨hzero | hapi, hother⟩
    · exact hother (h.payload.resolve_left (not_not.mpr hzero))
    · exact hno hapi

end Intact

/-- What `_process_msg` does with an intact message. -/
theorem Intact.handsOver {s : State} (h : Intact s.pucRxbuf0 p d)
    (hreg : s.usiCfgMapProtocols (usiProtId2idx (typeAt s.pucRxbuf0 p)) ≠ none) :
    HandsOver s p (payloadLen (typeAt s.pucRxbuf0 p) d) := by
  obtain ⟨pf, hpf⟩ := Option.ne_none_iff_exists'.mp hreg
  have hdispatch := dispatch_eq (p := p + 1) (n := payloadLen (typeAt s.pucRxbuf0 p) d) h.known hpf
  have hguard : ¬ (announcedLen s.pucRxbuf0 (p + 1) = 0
      ∧ ¬ (typeAt s.pucRxbuf0 p = protocolMngpPrimeReset
        ∨ typeAt s.pucRxbuf0 p = protocolMngpPrimeReboot)) := by
    rw [h.announced.1]
    exact fun hbad => hbad.2 (h.payload.resolve_left (not_not.mpr hbad.1))
  refine ⟨⟨_, processMsg_refuse s (p + 1)⟩, fun w s' ev r hrun => ?_⟩
  exact received_of_dispatch (t := typeAt s.pucRxbuf0 p) rfl h.announced.1
    (h.announced.1 ▸ hguard) hdispatch hrun

end Lengths

/-- **When the three lengths agree.**  An intact message with a registered callback is accepted
and handed over, unless it is a PRIME API message with 1024 payload bytes. -/
theorem usi_lengths_agree_iff (s : State) (p d : ℕ) (hintact : Intact s.pucRxbuf0 p d)
    (hreg : s.usiCfgMapProtocols (usiProtId2idx (typeAt s.pucRxbuf0 p)) ≠ none) :
    LengthsAgree s p d ↔ ¬ (typeAt s.pucRxbuf0 p = protocolPrimeApi
      ∧ payloadLen (typeAt s.pucRxbuf0 p) d = 1024) := by
  rw [← hintact.doEoMsg_iff]
  exact ⟨fun h => h.1, fun h => ⟨h, hintact.handsOver hreg⟩⟩

/-! ## Examples -/

/-- A receiver with a callback for the PRIME API and the buffer `m`. -/
def apiReceiver (m : Mem UInt8) : State :=
  { State.static (fun _ => 0) (fun _ => 0) with
    pucRxbuf0 := m
    usiCfgMapProtocols := fun i => if i = usiProtId2idx protocolPrimeApi then some fun _ => 1
      else none }

/-- A PRIME API message of 1024 payload bytes `0x80 0 0 …`, whose first bit is the eleventh one
of the length. -/
def kilobyteMessage : Mem UInt8 :=
  Mem.init fun i => match i with
    | 0 => 0x7e
    | 2 => 0x30
    | 3 => 0x80
    | 1027 => 0xb0
    | _ => 0

/-- The message of 1024 payload bytes passes the length check and has the right CRC, and
`_doEoMsg` refuses it. -/
theorem kilobyte_refused : ¬ ∀ s p d, Intact s.pucRxbuf0 p d →
    s.usiCfgMapProtocols (usiProtId2idx (typeAt s.pucRxbuf0 p)) ≠ none → LengthsAgree s p d := by
  intro hclaim
  have hintact : Intact kilobyteMessage 0 1027 := by decide +kernel
  have hagree := hclaim (apiReceiver kilobyteMessage) 0 1027 hintact (by decide)
  have hrefused : doEoMsg kilobyteMessage 1 1027 = false := by decide +kernel
  rw [LengthsAgree] at hagree
  exact absurd (hagree.1.symm.trans hrefused) (by decide)

/-- A PRIME API message of one payload byte. -/
def oneByteMessage : Mem UInt8 :=
  Mem.init fun i => match i with
    | 0 => 0x7e
    | 2 => 0x70
    | 3 => 0x55
    | 4 => 0x25
    | _ => 0

theorem usi_lengths_agree_one_byte : LengthsAgree (apiReceiver oneByteMessage) 0 4 :=
  (usi_lengths_agree_iff (apiReceiver oneByteMessage) 0 4 (by decide) (by decide)).mpr (by decide)

end Usi
