/-
# The CRC routines divide

The table-driven loops of `hal_pcrc.c` are divisions by a polynomial.  The CRC-32 and the
CRC-8 take a byte at the top of the register; the CRC-16 takes its bits at the bottom, and
so does the checksum of the serial protocol, whose polynomial is `x ^ 8 + 1`.  Hence every
value that the serial protocol puts behind a message detects bursts of its own length.
-/
import PlcManager.Pcrc
import PlcManager.ShiftRegister

namespace Pcrc

/-! ## Polynomials -/

/-- The polynomial of the CRC-32. -/
def crc32Generator : Generator 32 := ⟨0x04C11DB7, by decide⟩

/-- The polynomial of the CRC-16. -/
def crc16Generator : Generator 16 := ⟨0x1021, by decide⟩

/-- The polynomial of the CRC-8. -/
def crc8Generator : Generator 8 := ⟨0x07, by decide⟩

/-- The polynomial of the checksum. -/
def usiGenerator : Generator 8 := ⟨0x01, by decide⟩

/-- The bytes of a buffer. -/
def octets (buf : List UInt8) : List (BitVec 8) := buf.map UInt8.toBitVec

/-- The bits of a buffer, the most significant one of each byte first. -/
def bits (buf : List UInt8) : List Bool := (octets buf).flatMap Generator.byteBits

section Bits

variable {a b : List UInt8} {x : UInt8}

theorem octets_cons : octets (x :: a) = x.toBitVec :: octets a := rfl

theorem bits_cons : bits (x :: a) = Generator.byteBits x.toBitVec ++ bits a := rfl

theorem length_bits : (bits a).length = 8 * a.length := by
  induction a with
  | nil => rfl
  | cons x a ih =>
      rw [bits_cons, List.length_append, ih, List.length_cons]
      change 8 + 8 * a.length = _
      omega

theorem byteBits_injective {u v : BitVec 8}
    (h : Generator.byteBits u = Generator.byteBits v) : u = v := by
  apply BitVec.eq_of_toNat_eq
  rw [← Generator.binary_byteBits, ← Generator.binary_byteBits, h]

theorem bits_injective (hlen : a.length = b.length) (h : bits a = bits b) : a = b := by
  induction a generalizing b with
  | nil => exact (List.length_eq_zero_iff.mp hlen.symm).symm
  | cons x a ih =>
      cases b with
      | nil => cases hlen
      | cons y b =>
          rw [bits_cons, bits_cons] at h
          obtain ⟨hbyte, hrest⟩ := List.append_inj h rfl
          rw [UInt8.toBitVec_inj.mp (byteBits_injective hbyte), ih (Nat.succ.inj hlen) hrest]

end Bits

/-! ## The tables -/

theorem pulCrc32Table_eq : pulCrc32Table = (List.range 256).map fun i =>
    UInt32.ofBitVec (crc32Generator.shift 8 (BitVec.ofNat 32 i <<< 24)) := by
  decide +kernel

theorem pusCrc16Table_eq : pusCrc16Table = (List.range 256).map fun i =>
    UInt16.ofBitVec (crc16Generator.shift 8 (BitVec.ofNat 16 i <<< 8)) := by
  decide +kernel

theorem pucCrc8Table_eq : pucCrc8Table = (List.range 256).map fun i =>
    UInt8.ofBitVec (crc8Generator.shift 8 (BitVec.ofNat 8 i)) := by
  decide +kernel

/-- An entry of a table that is computed. -/
theorem getD_map_range {α : Type} (f : ℕ → α) (d : α) {i : ℕ} (h : i < 256) :
    ((List.range 256).map f).getD i d = f i := by
  rw [List.getD_eq_getElem _ _ (by simpa using h), List.getElem_map, List.getElem_range]

/-! ## One byte -/

section Step

variable {b : UInt8}

theorem crc32_step (ulCrc : UInt32) :
    ((ulCrc <<< 8) ^^^ pulCrc32Table.getD ((ulCrc >>> 24).toUInt8 ^^^ b).toNat 0).toBitVec
      = crc32Generator.byteIn ulCrc.toBitVec b.toBitVec := by
  have hindex : BitVec.ofNat 32 ((ulCrc >>> 24).toUInt8 ^^^ b).toNat
      = ulCrc.toBitVec >>> 24 ^^^ b.toBitVec.setWidth 32 := by
    apply BitVec.eq_of_toNat_eq
    have hcrc := ulCrc.toNat_lt
    have hb := b.toNat_lt
    have hhigh : ulCrc.toNat >>> 24 < 2 ^ 8 := by
      rw [Nat.shiftRight_eq_div_pow]
      omega
    have hlow : (ulCrc.toNat >>> 24) ^^^ b.toNat < 2 ^ 8 := Nat.xor_lt_two_pow hhigh hb
    have htop : (ulCrc >>> 24).toUInt8.toNat = ulCrc.toNat >>> 24 := by
      rw [UInt32.toNat_toUInt8, UInt32.toNat_shiftRight]
      exact Nat.mod_eq_of_lt hhigh
    rw [BitVec.toNat_ofNat, UInt8.toNat_xor, htop, BitVec.toNat_xor, BitVec.toNat_ushiftRight,
      BitVec.toNat_setWidth, UInt32.toNat_toBitVec, UInt8.toNat_toBitVec,
      Nat.mod_eq_of_lt (hlow.trans (by decide)), Nat.mod_eq_of_lt (hb.trans (by decide))]
  rw [crc32Generator.byteIn_eq (by decide), pulCrc32Table_eq, getD_map_range _ _ (UInt8.toNat_lt _),
    UInt32.toBitVec_xor, hindex]
  rfl

theorem crc16_step (usCrc : UInt16) :
    (pusCrc16Table.getD ((usCrc >>> 8) &&& 0xff).toNat 0 ^^^ (usCrc <<< 8)
        ^^^ (b.toUInt16 &&& 0x00ff)).toBitVec
      = crc16Generator.feed usCrc.toBitVec (Generator.byteBits b.toBitVec) := by
  have hcrc := usCrc.toNat_lt
  have hb := b.toNat_lt
  have hhigh : usCrc.toNat >>> 8 < 256 := by
    rw [Nat.shiftRight_eq_div_pow]
    omega
  have hmask : ∀ n : ℕ, n < 256 → n &&& 255 = n := by
    intro n hn
    rw [show (255 : ℕ) = 2 ^ 8 - 1 by rfl, Nat.and_two_pow_sub_one_eq_mod]
    exact Nat.mod_eq_of_lt hn
  have hindex : ((usCrc >>> 8) &&& 0xff).toNat = usCrc.toNat >>> 8 := by
    rw [UInt16.toNat_and, UInt16.toNat_shiftRight]
    exact hmask _ hhigh
  have hshift : BitVec.ofNat 16 (usCrc.toNat >>> 8) = usCrc.toBitVec >>> 8 := by
    apply BitVec.eq_of_toNat_eq
    rw [BitVec.toNat_ofNat, BitVec.toNat_ushiftRight, UInt16.toNat_toBitVec]
    exact Nat.mod_eq_of_lt (hhigh.trans (by decide))
  have hbyte : (b.toUInt16 &&& 0x00ff).toBitVec = b.toBitVec.setWidth 16 := by
    apply BitVec.eq_of_toNat_eq
    rw [UInt16.toNat_toBitVec, UInt16.toNat_and, BitVec.toNat_setWidth, UInt8.toNat_toBitVec,
      Nat.mod_eq_of_lt (hb.trans (by decide))]
    exact hmask _ hb
  rw [crc16Generator.feed_byteBits_eq (by decide), pusCrc16Table_eq, hindex,
    getD_map_range _ _ hhigh, UInt16.toBitVec_xor, UInt16.toBitVec_xor, hshift, hbyte,
    BitVec.xor_comm (usCrc.toBitVec <<< 8)]
  rfl

theorem crc8_step (ucCrc : UInt8) :
    (pucCrc8Table.getD (ucCrc ^^^ b).toNat 0).toBitVec
      = crc8Generator.byteIn ucCrc.toBitVec b.toBitVec := by
  have hindex : BitVec.ofNat 8 (ucCrc ^^^ b).toNat = ucCrc.toBitVec ^^^ b.toBitVec :=
    BitVec.ofNat_toNat _ _
  rw [pucCrc8Table_eq, getD_map_range _ _ (UInt8.toNat_lt _), hindex, Generator.byteIn]
  simp

/-- Eight shifts turn the register of the checksum once round. -/
theorem usi_step (ucCrc : UInt8) :
    (ucCrc ^^^ b).toBitVec = usiGenerator.feed ucCrc.toBitVec (Generator.byteBits b.toBitVec) := by
  have hround : ∀ r : BitVec 8, usiGenerator.shift 8 r = r := by decide +kernel
  rw [usiGenerator.feed_byteBits (by decide), hround, UInt8.toBitVec_xor]
  simp

end Step

/-! ## The loops -/

section Loops

variable {ulCrcInit : UInt32}

theorem toBitVec_evalCrc32 (buf : List UInt8) :
    (evalCrc32 buf ulCrcInit).toBitVec
      = (octets buf).foldl crc32Generator.byteIn ulCrcInit.toBitVec := by
  unfold evalCrc32
  induction buf generalizing ulCrcInit with
  | nil => rfl
  | cons b buf ih => rw [List.foldl_cons, ih, crc32_step, octets_cons, List.foldl_cons]

theorem toBitVec_evalCrc16 (buf : List UInt8) :
    (evalCrc16 buf ulCrcInit).toBitVec
      = crc16Generator.feed (ulCrcInit.toBitVec.setWidth 16) (bits buf) := by
  have hloop : ∀ usCrc : UInt16, (buf.foldl (fun (usCrc : UInt16) b =>
      pusCrc16Table.getD ((usCrc >>> 8) &&& 0xff).toNat 0 ^^^ (usCrc <<< 8)
        ^^^ (b.toUInt16 &&& 0x00ff)) usCrc).toBitVec
      = crc16Generator.feed usCrc.toBitVec (bits buf) := by
    induction buf with
    | nil => exact fun _ => rfl
    | cons b buf ih =>
        intro usCrc
        rw [List.foldl_cons, ih, crc16_step, bits_cons, Generator.feed_append]
  exact hloop _

theorem toBitVec_evalCrc8 (buf : List UInt8) :
    (evalCrc8 buf ulCrcInit).toBitVec
      = (octets buf).foldl crc8Generator.byteIn (ulCrcInit.toBitVec.setWidth 8) := by
  have hloop : ∀ ucCrc : UInt8, (buf.foldl (fun ucCrc b =>
      pucCrc8Table.getD (ucCrc ^^^ b).toNat 0) ucCrc).toBitVec
      = (octets buf).foldl crc8Generator.byteIn ucCrc.toBitVec := by
    induction buf with
    | nil => exact fun _ => rfl
    | cons b buf ih =>
        intro ucCrc
        rw [List.foldl_cons, ih, crc8_step, octets_cons, List.foldl_cons]
  exact hloop _

theorem toBitVec_evalCrc8Usi (buf : List UInt8) :
    (evalCrc8Usi buf ulCrcInit).toBitVec
      = usiGenerator.feed (ulCrcInit.toBitVec.setWidth 8) (bits buf) := by
  have hloop : ∀ ucCrc : UInt8, (buf.foldl (fun ucCrc b => ucCrc ^^^ b) ucCrc).toBitVec
      = usiGenerator.feed ucCrc.toBitVec (bits buf) := by
    induction buf with
    | nil => exact fun _ => rfl
    | cons b buf ih =>
        intro ucCrc
        rw [List.foldl_cons, ih, usi_step, bits_cons, Generator.feed_append]
  exact hloop _

end Loops

/-- **The table-driven loops divide bit by bit.**  The CRC-32 and the CRC-8 add each byte to
the top of the register and shift it out, the CRC-16 shifts the bits of the buffer in at the
bottom. -/
theorem table_crcs_divide (buf : List UInt8) (ulCrcInit : UInt32) :
    (evalCrc32 buf ulCrcInit).toBitVec
        = (octets buf).foldl crc32Generator.byteIn ulCrcInit.toBitVec
      ∧ (evalCrc8 buf ulCrcInit).toBitVec
        = (octets buf).foldl crc8Generator.byteIn (ulCrcInit.toBitVec.setWidth 8)
      ∧ (evalCrc16 buf ulCrcInit).toBitVec
        = crc16Generator.feed (ulCrcInit.toBitVec.setWidth 16) (bits buf) :=
  ⟨toBitVec_evalCrc32 buf, toBitVec_evalCrc8 buf, toBitVec_evalCrc16 buf⟩

/-! ## Bursts -/

section Bursts

variable {buf buf' : List UInt8} {ucCrcType : UInt8} {w : ℕ}

/-- What differs in a burst leaves different remainders. -/
theorem feed_bits_ne (g : Generator w) {r : BitVec w} (hlen : buf.length = buf'.length)
    (hne : buf ≠ buf') (hburst : DifferWithin w (bits buf) (bits buf')) :
    g.feed r (bits buf) ≠ g.feed r (bits buf') :=
  g.feed_ne_of_burst (by rw [length_bits, length_bits, hlen])
    (fun h => hne (bits_injective hlen h)) hburst

theorem evalCrc8Usi_ne (hlen : buf.length = buf'.length) (hne : buf ≠ buf')
    (hburst : DifferWithin 8 (bits buf) (bits buf')) : evalCrc8Usi buf 0 ≠ evalCrc8Usi buf' 0 := by
  intro h
  have hbits := congrArg UInt8.toBitVec h
  rw [toBitVec_evalCrc8Usi, toBitVec_evalCrc8Usi] at hbits
  exact feed_bits_ne usiGenerator hlen hne hburst hbits

theorem evalCrc16_ne (hlen : buf.length = buf'.length) (hne : buf ≠ buf')
    (hburst : DifferWithin 16 (bits buf) (bits buf')) : evalCrc16 buf 0 ≠ evalCrc16 buf' 0 := by
  intro h
  have hbits := congrArg UInt16.toBitVec h
  rw [toBitVec_evalCrc16, toBitVec_evalCrc16] at hbits
  exact feed_bits_ne crc16Generator hlen hne hburst hbits

theorem evalCrc32_ne (hlen : buf.length = buf'.length) (hne : buf ≠ buf')
    (hburst : DifferWithin 32 (bits buf) (bits buf')) : evalCrc32 buf 0 ≠ evalCrc32 buf' 0 := by
  intro h
  have hbits := congrArg UInt32.toBitVec h
  have hzero : (0 : UInt32).toBitVec = crc32Generator.shift 32 0 :=
    (crc32Generator.shift_of_zero 32).symm
  rw [toBitVec_evalCrc32, toBitVec_evalCrc32, hzero, crc32Generator.foldl_byteIn (by decide),
    crc32Generator.foldl_byteIn (by decide)] at hbits
  exact feed_bits_ne crc32Generator hlen hne hburst (crc32Generator.shift_injective hbits)

end Bursts

/-- The number of CRC bits of a type. -/
def crcWidth : List (UInt8 × ℕ) :=
  [(halPcrcCrcType8, 8), (halPcrcCrcType16, 16), (halPcrcCrcType32, 32)]

/-- **The CRCs of the serial protocol detect bursts.**  Two buffers of one length that differ,
but only within as many consecutive bits as the CRC has, have different CRCs. -/
theorem usi_crc_detects_bursts (sna sna' : Sna) (m m' : Mem UInt8) (puc puc' ulLen : ℕ)
    (bV14Mode bV14Mode' : Bool) (ucCrcType : UInt8) (w : ℕ) (hw : (ucCrcType, w) ∈ crcWidth)
    (hne : m.slice puc ulLen ≠ m'.slice puc' ulLen)
    (hburst : DifferWithin w (bits (m.slice puc ulLen)) (bits (m'.slice puc' ulLen))) :
    halPcrcCalc sna m puc ulLen halPcrcHtUsi ucCrcType bV14Mode
      ≠ halPcrcCalc sna' m' puc' ulLen halPcrcHtUsi ucCrcType bV14Mode' := by
  have hlen : (m.slice puc ulLen).length = (m'.slice puc' ulLen).length := by
    rw [Mem.length_slice, Mem.length_slice]
  rw [halPcrcCalc_ht_usi, halPcrcCalc_ht_usi]
  simp only [crcWidth, List.mem_cons, Prod.mk.injEq, List.not_mem_nil, or_false] at hw
  rcases hw with ⟨rfl, rfl⟩ | ⟨rfl, rfl⟩ | ⟨rfl, rfl⟩
  · rw [if_pos rfl, if_pos rfl]
    intro h
    have hvalue := congrArg UInt32.toNat h
    rw [UInt8.toNat_toUInt32, UInt8.toNat_toUInt32] at hvalue
    exact evalCrc8Usi_ne hlen hne hburst (UInt8.toNat_inj.mp hvalue)
  · have h16 : halPcrcCrcType16 ≠ halPcrcCrcType8 := by decide
    rw [if_neg h16, if_neg h16, if_pos rfl, if_pos rfl]
    intro h
    have hvalue := congrArg UInt32.toNat h
    rw [UInt16.toNat_toUInt32, UInt16.toNat_toUInt32] at hvalue
    exact evalCrc16_ne hlen hne hburst (UInt16.toNat_inj.mp hvalue)
  · have h32 : halPcrcCrcType32 ≠ halPcrcCrcType8 := by decide
    have h32' : halPcrcCrcType32 ≠ halPcrcCrcType16 := by decide
    rw [if_neg h32, if_neg h32, if_neg h32', if_neg h32', if_pos rfl, if_pos rfl]
    exact evalCrc32_ne hlen hne hburst

/-- A burst over the edge of two bytes. -/
theorem usi_crc_detects_edge_burst :
    halPcrcCalc {} (Mem.init fun i => if i = 0 then 0x07 else 0xc0) 0 2 halPcrcHtUsi
        halPcrcCrcType8 false
      ≠ halPcrcCalc {} (Mem.init fun _ => 0) 0 2 halPcrcHtUsi halPcrcCrcType8 false :=
  usi_crc_detects_bursts _ _ _ _ _ _ _ _ _ _ 8 (by decide) (by decide)
    ⟨5, fun i hi => by
      by_contra hout
      apply hi
      rcases Nat.lt_or_ge i 16 with hlt | hge
      · have hbits : ∀ i < 16, ¬ (5 ≤ i ∧ i < 5 + 8) →
            (bits (Mem.slice (Mem.init fun i => if i = 0 then 0x07 else 0xc0) 0 2))[i]?
              = (bits (Mem.slice (Mem.init fun _ => 0) 0 2))[i]? := by decide
        exact hbits i hlt hout
      · rw [List.getElem?_eq_none (by rw [length_bits, Mem.length_slice]; exact hge),
          List.getElem?_eq_none (by rw [length_bits, Mem.length_slice]; exact hge)]⟩

end Pcrc
