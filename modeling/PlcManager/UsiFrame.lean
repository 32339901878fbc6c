/-
# The frame format

What goes over the serial line, said without buffers: a message is a type and a
payload; its `body` is the two header bytes, the payload and the CRC of both; its
frame is the stuffed body between two marks.  `UsiMsg` are the messages a
receiver accepts.  The header operators and the CRC bytes are shown to be
inverse to each other here, so that later modules need no bit arithmetic.
-/
import PlcManager.UsiTransmit

namespace Usi

/-! ## Bytes of a number -/

/-- Four bytes put together give the number they were taken from. -/
theorem bytes32_assemble (c : UInt32) :
    ((c >>> 24).toUInt8.toUInt32 <<< 24) ||| ((c >>> 16).toUInt8.toUInt32 <<< 16)
      ||| ((c >>> 8).toUInt8.toUInt32 <<< 8) ||| c.toUInt8.toUInt32 = c := by
  apply UInt32.toBitVec_inj.mp
  apply BitVec.eq_of_getLsbD_eq
  intro i hi
  simp [-UInt32.toUInt32_toUInt8]
  interval_cases i <;> simp

/-- The bytes of a number put together from four bytes. -/
theorem bytes32_split (a b c d : UInt8) (x : UInt32)
    (h : (a.toUInt32 <<< 24) ||| (b.toUInt32 <<< 16) ||| (c.toUInt32 <<< 8) ||| d.toUInt32 = x) :
    [a, b, c, d]
      = [(x >>> 24).toUInt8, (x >>> 16).toUInt8, (x >>> 8).toUInt8, x.toUInt8] := by
  subst h
  have ext8 : ∀ y z : UInt8, (∀ i < 8, y.toBitVec.getLsbD i = z.toBitVec.getLsbD i) → y = z :=
    fun y z hyz => UInt8.toBitVec_inj.mp (BitVec.eq_of_getLsbD_eq hyz)
  simp only [List.cons.injEq, and_true]
  refine ⟨ext8 _ _ ?_, ext8 _ _ ?_, ext8 _ _ ?_, ext8 _ _ ?_⟩ <;>
    (intro i hi; simp; try (interval_cases i <;> simp))

/-- Two bytes put together give the sixteen-bit number they were taken from. -/
theorem bytes16_assemble (c : UInt16) :
    ((c.toUInt32 >>> 8).toUInt8.toUInt32 <<< 8) ||| c.toUInt32.toUInt8.toUInt32
      = c.toUInt32 := by
  apply UInt32.toBitVec_inj.mp
  apply BitVec.eq_of_getLsbD_eq
  intro i hi
  simp only [UInt32.toBitVec_or, UInt32.toBitVec_shiftLeft, UInt8.toBitVec_toUInt32,
    UInt32.toBitVec_toUInt8, UInt16.toBitVec_toUInt32, UInt32.toBitVec_shiftRight,
    BitVec.getLsbD_or]
  interval_cases i <;> simp

/-- The bytes of a number put together from two bytes. -/
theorem bytes16_split (a b : UInt8) (x : UInt32) (h : (a.toUInt32 <<< 8) ||| b.toUInt32 = x) :
    [a, b] = [(x >>> 8).toUInt8, x.toUInt8] := by
  subst h
  congr 1
  · apply UInt8.toBitVec_inj.mp
    apply BitVec.eq_of_getLsbD_eq
    intro i hi
    simp
    interval_cases i <;> simp
  · congr 1
    apply UInt8.toBitVec_inj.mp
    apply BitVec.eq_of_getLsbD_eq
    intro i hi
    simp

/-! ## The header -/

/-- The two header bytes of a message of type `t` with `n` payload bytes. -/
def header (t : UInt8) (n : ℕ) : List UInt8 :=
  [lenHiProtocol n, lenLoProtocol n + typeProtocol t]

@[simp] theorem length_header (t : UInt8) (n : ℕ) : (header t n).length = 2 := rfl

theorem toNat_lenHiProtocol {n : ℕ} (h : n < 1024) : (lenHiProtocol n).toNat = n / 4 := by
  have h8 : (n >>> 2) &&& 0xff = n / 4 % 256 := by
    rw [Nat.shiftRight_eq_div_pow]
    exact Nat.and_two_pow_sub_one_eq_mod (n / 4) 8
  rw [lenHiProtocol, h8]
  simp
  omega

theorem lenLoProtocol_eq (n : ℕ) : lenLoProtocol n = UInt8.ofNat (n % 4 * 64) := by
  have hm : n &&& 3 = n % 4 := Nat.and_two_pow_sub_one_eq_mod n 2
  rw [lenLoProtocol, show (0xc0 : ℕ) = 3 <<< 6 by decide, ← Nat.shiftLeft_and_distrib, hm,
    Nat.shiftLeft_eq]

theorem toNat_typeProtocol (t : UInt8) : (typeProtocol t).toNat = t.toNat % 64 := by
  have := Nat.and_two_pow_sub_one_eq_mod t.toNat 6
  simpa [typeProtocol] using this

theorem toNat_headerLo (t : UInt8) (n : ℕ) :
    (lenLoProtocol n + typeProtocol t).toNat = n % 4 * 64 + t.toNat % 64 := by
  rw [lenLoProtocol_eq, UInt8.toNat_add, toNat_typeProtocol]
  simp
  omega

/-- The type comes back out of the header. -/
theorem typeProtocol_header (t : UInt8) (n : ℕ) :
    typeProtocol (lenLoProtocol n + typeProtocol t) = typeProtocol t := by
  apply UInt8.toNat_inj.mp
  rw [toNat_typeProtocol, toNat_headerLo, toNat_typeProtocol]
  omega

/-- The length comes back out of the header. -/
theorem lenProtocol_header (t : UInt8) {n : ℕ} (h : n < 1024) :
    lenProtocol (lenHiProtocol n) (lenLoProtocol n + typeProtocol t) = n := by
  rw [lenProtocol, toNat_lenHiProtocol h, toNat_headerLo, Nat.shiftLeft_eq,
    Nat.shiftRight_eq_div_pow]
  omega

/-- The extended bit of a length that ten bits hold. -/
theorem lenExProtocol_of_lt {n : ℕ} (h : n < 1024) : lenExProtocol n = 0 := by
  have hbit : n &&& 0x0400 = 0 := by
    have hand := Nat.and_two_pow n 10
    rw [Nat.testBit_lt_two_pow h] at hand
    simpa using hand
  rw [lenExProtocol, hbit]
  rfl

theorem toNat_cmdProtocol (a : UInt8) : (cmdProtocol a).toNat = a.toNat % 128 := by
  have := Nat.and_two_pow_sub_one_eq_mod a.toNat 7
  simpa [cmdProtocol] using this

/-- Without the extended bit the two length operators agree. -/
theorem xlenProtocol_of_lt {a b c : UInt8} (h : c < 0x80) :
    xlenProtocol a b c = lenProtocol a b := by
  have hc : c.toNat < 2 ^ 7 := h
  have h0 : c.toNat &&& 0x80 = 0 := by
    apply Nat.eq_of_testBit_eq
    intro i
    rw [Nat.testBit_and, Nat.zero_testBit, show (0x80 : ℕ) = 2 ^ 7 by rfl, Nat.testBit_two_pow]
    by_cases hi : 7 = i
    · subst hi
      rw [Nat.testBit_lt_two_pow hc]
      rfl
    · simp [hi]
  rw [xlenProtocol, h0, lenProtocol]
  rfl

/-! ## CRC and body -/

/-- The CRC that the protocol of type `t` uses, over a list of bytes. -/
def usiCrc (t : UInt8) (buf : List UInt8) : UInt32 :=
  if t ∈ mngpProtocols then Pcrc.evalCrc32 buf 0
  else if t ∈ crc16Protocols then (Pcrc.evalCrc16 buf 0).toUInt32
  else (Pcrc.evalCrc8Usi buf 0).toUInt32

/-- `hal_pcrc_calc`, called the way the serial layer calls it. -/
theorem halPcrcCalc_usi (m : Mem UInt8) (puc ulLen : ℕ) (t : UInt8) :
    Pcrc.halPcrcCalc {} m puc ulLen Pcrc.halPcrcHtUsi (crcType t) false
      = usiCrc t (m.slice puc ulLen) := by
  have h1 : Pcrc.halPcrcCrcType32 ≠ Pcrc.halPcrcCrcType8 := by decide
  have h2 : Pcrc.halPcrcCrcType32 ≠ Pcrc.halPcrcCrcType16 := by decide
  have h3 : Pcrc.halPcrcCrcType16 ≠ Pcrc.halPcrcCrcType8 := by decide
  rw [Pcrc.halPcrcCalc_ht_usi]
  unfold usiCrc crcType
  split_ifs <;> simp_all

/-- The number of CRC bytes of a protocol. -/
def crcLen (t : UInt8) : ℕ :=
  if t ∈ mngpProtocols then 4 else if t ∈ crc16Protocols then 2 else 1

@[simp] theorem length_crcBytes (t : UInt8) (c : UInt32) : (crcBytes t c).length = crcLen t := by
  unfold crcBytes crcLen
  split_ifs <;> rfl

theorem crcLen_pos (t : UInt8) : 0 < crcLen t := by
  unfold crcLen
  split_ifs <;> omega

theorem crcLen_le (t : UInt8) : crcLen t ≤ 4 := by
  unfold crcLen
  split_ifs <;> omega

/-- What stands between the marks before stuffing. -/
def body (t : UInt8) (payload : List UInt8) : List UInt8 :=
  header t payload.length ++ payload ++ crcBytes t (usiCrc t (header t payload.length ++ payload))

@[simp] theorem length_body (t : UInt8) (payload : List UInt8) :
    (body t payload).length = payload.length + 2 + crcLen t := by
  simp [body]
  omega

/-- The frame on the wire. -/
def frame (t : UInt8) (payload : List UInt8) : List UInt8 :=
  usiEscapes.delimit (usiEscapes.stuff (body t payload))

/-! ## Messages a receiver accepts -/

/-- The types the dispatcher knows among those that fit the six-bit type field. -/
def receivedProtocols : List UInt8 :=
  mngpProtocols ++ [protocolSnifPrime, protocolAtpl230, protocolPrimeApi]

/-- The messages with a valid frame: a known type, a payload that the ten-bit length
field can announce (longer PRIME API payloads outgrow the receive buffer), no
extended bit, and an empty payload for RESET and REBOOT only. -/
structure UsiMsg where
  ucType : UInt8
  payload : List UInt8
  type_mem : ucType ∈ receivedProtocols
  length_lt : payload.length < 1024
  eq_of_nil : payload = [] → ucType = protocolMngpPrimeReset ∨ ucType = protocolMngpPrimeReboot
  head_lt : ucType = protocolPrimeApi → payload.headD 0 < 0x80

namespace UsiMsg

/-- The body of a message. -/
def body (u : UsiMsg) : List UInt8 := Usi.body u.ucType u.payload

/-- The text between the marks of a message's frame. -/
def text (u : UsiMsg) : List UInt8 := usiEscapes.stuff u.body

/-- The frame of a message. -/
def frame (u : UsiMsg) : List UInt8 := usiEscapes.delimit u.text

/-- What the callback is handed: management messages come with their header. -/
def delivered (u : UsiMsg) : List UInt8 :=
  if u.ucType ∈ mngpProtocols then header u.ucType u.payload.length ++ u.payload else u.payload

/-- The index of the callback a message is for. -/
def callbackIdx (u : UsiMsg) : ℕ := usiProtId2idx u.ucType

/-- Six bits hold every known type. -/
theorem typeProtocol_type (u : UsiMsg) : typeProtocol u.ucType = u.ucType := by
  have h : ∀ t ∈ receivedProtocols, typeProtocol t = t := by decide +kernel
  exact h u.ucType u.type_mem

theorem msgMark_not_mem_text (u : UsiMsg) : msgMark ∉ u.text :=
  usiEscapes.mark_not_mem_stuff u.body

theorem length_body (u : UsiMsg) : u.body.length = u.payload.length + 2 + crcLen u.ucType :=
  Usi.length_body u.ucType u.payload

/-- No message is too short for the checks. -/
theorem four_le_length_body (u : UsiMsg) : 4 ≤ u.body.length := by
  rw [u.length_body]
  have hpos := crcLen_pos u.ucType
  by_cases h : u.payload = []
  · have h4 : crcLen u.ucType = 4 := by
      rcases u.eq_of_nil h with ht | ht <;> rw [ht] <;> decide
    omega
  · have := List.length_pos_iff.mpr h
    omega

theorem text_ne_nil (u : UsiMsg) : u.text ≠ [] := by
  intro h
  have h1 : u.body.length ≤ u.text.length := usiEscapes.length_le_length_stuff u.body
  have h2 := u.four_le_length_body
  rw [h, List.length_nil] at h1
  omega

end UsiMsg

end Usi
