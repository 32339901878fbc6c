/-
# Shifting the bytes of a buffer

The encoder makes room for an escape by a shift to the right, and the receiver closes gaps by
shifts to the left.  Both move a stretch that overlaps the place it goes to, byte by byte, and
both come to what a copy of the whole stretch comes to.

The index behind the byte at `us_idx` is a number of 16 bits.  So nothing is shifted from
byte 65535 of a long buffer to the byte behind it: that shift starts at byte 0.
-/
import PlcManager.UsiDecoder
import PlcManager.UsiEncoder

namespace Usi

/-! ## Buffers before and after -/

/-- Bytes `usIdx + 1` to `usIdx + usLen` are the old bytes `usIdx` to `usIdx + usLen - 1`, and
every other byte is as it was. -/
structure ShiftedRight (usIdx usLen : ℕ) (m m' : Mem UInt8) : Prop where
  moved : m'.slice (usIdx + 1) usLen = m.slice usIdx usLen
  others : ∀ j, j ≤ usIdx ∨ usIdx + usLen < j → m'.cell j = m.cell j

/-- In the buffer of `len` bytes at `pucBuf`, the first `len - n` bytes are the old bytes `n`
to `len - 1`, and the last `n` bytes are zero; nothing outside of it has changed. -/
structure ShiftedLeft (pucBuf n len : ℕ) (m m' : Mem UInt8) : Prop where
  moved : m'.slice pucBuf (len - n) = m.slice (pucBuf + n) (len - n)
  zeros : m'.slice (pucBuf + (len - n)) n = List.replicate n 0
  others : ∀ j, j < pucBuf ∨ pucBuf + len ≤ j → m'.cell j = m.cell j

/-- The right shift is right for all indices and counts that are admitted and stay inside the
`size` bytes of the buffer. -/
def ShiftsRight (admitted : UInt16 → UInt16 → Prop) (buf : Mem UInt8) (size : ℕ) : Prop :=
  ∀ usIdx usLen : UInt16, usIdx.toNat + usLen.toNat < size → admitted usIdx usLen →
    ShiftedRight usIdx.toNat usLen.toNat buf
      (usiShiftBufferRight buf usIdx.toNat usLen.toNat)

/-- The left shift is right for all counts, wherever the buffer lies. -/
def ShiftsLeft (m : Mem UInt8) : Prop :=
  ∀ pucBuf n len : ℕ, n ≤ len → len < 32768 →
    ShiftedLeft pucBuf n len m (usiShiftBufferLeft m pucBuf n len)

/-- The index behind `us_idx` has 16 bits, or nothing is to be shifted. -/
def HasNext (usIdx usLen : UInt16) : Prop := usIdx < 65535 ∨ usLen = 0

section Shifts

variable {m m' m'' : Mem UInt8} {usIdx usLen : UInt16} {i n len pucBuf : ℕ}

/-! ### To the right -/

theorem shiftedRight_of_lt (h : i + 1 < 65536) :
    ShiftedRight i n m (usiShiftBufferRight m i n) := by
  have hlen : (m.slice i n).length = n := Mem.length_slice
  have hmoved : (m.storeList (i + 1) (m.slice i n)).slice (i + 1) (m.slice i n).length
      = m.slice i n := Mem.slice_storeList
  rw [hlen] at hmoved
  rw [usiShiftBufferRight_of_lt h]
  constructor
  · exact hmoved
  · intro j hj
    apply Mem.cell_storeList_of_not_mem
    omega

/-- Nothing is shifted. -/
theorem shiftedRight_zero (i : ℕ) : ShiftedRight i 0 m (usiShiftBufferRight m i 0) := by
  rw [usiShiftBufferRight_eq]
  exact ⟨rfl, fun j _ => rfl⟩

/-- From byte 65535 the shift does not get to the byte behind it. -/
theorem cell_usiShiftBufferRight_last (usLen : UInt16) :
    (usiShiftBufferRight m 65535 usLen.toNat).cell 65536 = m.cell 65536 := by
  have hlt := usLen.toNat_lt
  rw [usiShiftBufferRight_eq]
  apply Mem.cell_storeList_of_not_mem
  right
  rw [List.length_dropLast, List.length_cons, Mem.length_slice]
  omega

/-- **The right shift.**  It is right in every buffer exactly if there is an index of 16 bits
behind `us_idx`, or nothing is to be shifted. -/
theorem shiftedRight_iff : (∀ m, ShiftedRight usIdx.toNat usLen.toNat m
    (usiShiftBufferRight m usIdx.toNat usLen.toNat)) ↔ HasNext usIdx usLen := by
  have hidx := usIdx.toNat_lt
  constructor
  · intro hall
    by_contra hnot
    obtain ⟨hlast, hsome⟩ := not_or.mp hnot
    have hge : 65535 ≤ usIdx.toNat := UInt16.not_lt.mp hlast
    have heq : usIdx.toNat = 65535 := by omega
    have hpos : usLen.toNat ≠ 0 := fun hzero => hsome (UInt16.toNat_inj.mp hzero)
    -- in a buffer with a one in byte 65535 only
    obtain ⟨m, hm⟩ : ∃ m : Mem UInt8, m = Mem.init fun j => if j = 65535 then 1 else 0 := ⟨_, rfl⟩
    have hmoved := (hall m).moved
    rw [heq] at hmoved
    have hcell := Mem.cell_of_slice hmoved (k := 0) (by rw [Mem.length_slice]; omega)
    rw [Mem.getElem_slice] at hcell
    have hone : m.cell 65536 = m.cell 65535 := by
      rw [← cell_usiShiftBufferRight_last usLen]
      exact hcell
    rw [hm] at hone
    exact absurd hone (by decide)
  · rintro (hlt | rfl) m
    · apply shiftedRight_of_lt
      have hlt' : usIdx.toNat < 65535 := hlt
      omega
    · exact shiftedRight_zero _

/-! ### To the left -/

theorem shiftedLeft (hn : n ≤ len) (hlen : len < 32768) :
    ShiftedLeft pucBuf n len m (usiShiftBufferLeft m pucBuf n len) := by
  have hmoved : (m.slice (pucBuf + n) (len - n)).length = len - n := Mem.length_slice
  obtain ⟨hfirst, hlast⟩ := Mem.slice_append
    (Mem.slice_storeList : (m.storeList pucBuf
      (m.slice (pucBuf + n) (len - n) ++ List.replicate n 0)).slice pucBuf _ = _)
  rw [hmoved] at hfirst hlast
  rw [List.length_replicate] at hlast
  rw [usiShiftBufferLeft_eq hn hlen]
  refine ⟨hfirst, hlast, fun j hj => ?_⟩
  apply Mem.cell_storeList_of_not_mem
  rw [List.length_append, hmoved, List.length_replicate]
  omega

/-! ### One after the other -/

/-- **There and back.**  A shift to the left by one takes a shift to the right back: only the
byte that had been shifted into the last place is now zero. -/
theorem ShiftedRight.back (hright : ShiftedRight i n m m')
    (hleft : ShiftedLeft i 1 (n + 1) m' m'') :
    m''.slice i n = m.slice i n ∧ m''.cell (i + n) = 0
      ∧ ∀ j, j < i ∨ i + n < j → m''.cell j = m.cell j := by
  refine ⟨hleft.moved.trans hright.moved, ?_, fun j hj => ?_⟩
  · exact (List.cons.inj hleft.zeros).1
  · rw [hleft.others j (by omega), hright.others j (by omega)]

end Shifts

/-- **Buffer shifts.**  In every buffer, the right shift is right for all indices and counts
that stay inside of it and have a next index, and so is the left shift for all counts. -/
theorem usi_buffer_shifts (buf : Mem UInt8) (size : ℕ) :
    ShiftsRight HasNext buf size ∧ ShiftsLeft buf := by
  constructor
  · intro usIdx usLen _ hnext
    exact shiftedRight_iff.mpr hnext buf
  · intro pucBuf n len hn hlen
    exact shiftedLeft hn hlen

/-- In a buffer of 65537 bytes, byte 65535 is shifted to byte 0, and not to the last byte. -/
theorem usi_shift_right_restarts :
    ¬ ∀ (buf : Mem UInt8) (size : ℕ), ShiftsRight (fun _ _ => True) buf size ∧ ShiftsLeft buf := by
  intro hclaim
  have hlaw := (hclaim (Mem.init fun j => if j = 65535 then 1 else 0) 65537).1 65535 1
    (by decide) trivial
  exact absurd hlaw.moved (by decide +kernel)

end Usi
