/-
# Division by a polynomial in a shift register

A register of `w` bits divides a word of bits by a polynomial of degree `w`: the register
is shifted up, and the polynomial is subtracted when a one falls out at the top.  The bits
of the word come in at the bottom, or, a byte at a time, at the top.

The register is linear over exclusive or.  When the polynomial has a constant term nothing
is lost by a shift, so that words that differ within `w` consecutive places leave different
remainders.
-/
import Mathlib

/-- A polynomial of degree `w` with a constant term; the bits of `poly` are the
coefficients below `w`. -/
structure Generator (w : ℕ) where
  poly : BitVec w
  odd : poly.getLsbD 0 = true

namespace Generator

variable {w : ℕ} (g : Generator w) {r s : BitVec w} {bits x y : List Bool}

/-! ## Shifts -/

/-- The bit `c` is shifted in at the bottom. -/
def shiftIn (r : BitVec w) (c : Bool) : BitVec w :=
  if r.msb then r.shiftConcat c ^^^ g.poly else r.shiftConcat c

/-- `n` zeros are shifted in. -/
def shift : ℕ → BitVec w → BitVec w
  | 0, r => r
  | n + 1, r => shift n (g.shiftIn r false)

/-- A word is shifted in, first bit first. -/
def feed (r : BitVec w) (bits : List Bool) : BitVec w := bits.foldl g.shiftIn r

@[simp] theorem shift_zero : g.shift 0 r = r := rfl

theorem shift_succ (n : ℕ) : g.shift (n + 1) r = g.shift n (g.shiftIn r false) := rfl

@[simp] theorem feed_nil : g.feed r [] = r := rfl

theorem feed_cons {c : Bool} : g.feed r (c :: bits) = g.feed (g.shiftIn r c) bits := rfl

theorem feed_append : g.feed r (x ++ y) = g.feed (g.feed r x) y := List.foldl_append

include g in
theorem width_pos : 0 < w := by
  rcases Nat.eq_zero_or_pos w with rfl | h
  · have hodd := g.odd
    rw [BitVec.eq_nil g.poly] at hodd
    cases hodd
  · exact h

theorem shift_add (m n : ℕ) : g.shift (m + n) r = g.shift n (g.shift m r) := by
  induction m generalizing r with
  | zero => rw [Nat.zero_add, shift_zero]
  | succ m ih => rw [Nat.succ_add, shift_succ, shift_succ, ih]

theorem shift_comm (m n : ℕ) : g.shift m (g.shift n r) = g.shift n (g.shift m r) := by
  rw [← shift_add, ← shift_add, Nat.add_comm]

/-! ## Linearity -/

theorem shiftConcat_xor (c d : Bool) :
    (r ^^^ s).shiftConcat (c ^^ d) = r.shiftConcat c ^^^ s.shiftConcat d := by
  ext i hi
  rw [BitVec.getElem_xor, BitVec.getElem_shiftConcat, BitVec.getElem_shiftConcat,
    BitVec.getElem_shiftConcat]
  split_ifs
  · rfl
  · rw [BitVec.getElem_xor]

theorem shiftIn_xor (c d : Bool) :
    g.shiftIn (r ^^^ s) (c ^^ d) = g.shiftIn r c ^^^ g.shiftIn s d := by
  unfold shiftIn
  rw [shiftConcat_xor, BitVec.msb_xor]
  cases r.msb <;> cases s.msb
  · rfl
  · exact BitVec.xor_assoc _ _ _
  · simp only [Bool.xor_false, if_true, Bool.false_eq_true, if_false]
    rw [BitVec.xor_assoc, BitVec.xor_comm (s.shiftConcat d), ← BitVec.xor_assoc]
  · -- the polynomial is subtracted twice
    simp only [Bool.xor_self, Bool.false_eq_true, if_false, if_true]
    rw [BitVec.xor_assoc (r.shiftConcat c), ← BitVec.xor_assoc g.poly,
      BitVec.xor_comm g.poly (s.shiftConcat d), BitVec.xor_assoc (s.shiftConcat d),
      BitVec.xor_self, BitVec.xor_zero]

theorem shift_xor (n : ℕ) : g.shift n (r ^^^ s) = g.shift n r ^^^ g.shift n s := by
  induction n generalizing r s with
  | zero => rfl
  | succ n ih =>
      have hstep : g.shiftIn (r ^^^ s) false = g.shiftIn r false ^^^ g.shiftIn s false :=
        g.shiftIn_xor false false
      rw [shift_succ, hstep, ih, shift_succ, shift_succ]

/-- What was in the register before is only shifted. -/
theorem feed_eq : g.feed r bits = g.shift bits.length r ^^^ g.feed 0 bits := by
  induction bits generalizing r with
  | nil => simp
  | cons c bits ih =>
      have hstep : g.shiftIn r c = g.shiftIn r false ^^^ g.shiftIn 0 c := by
        have h := g.shiftIn_xor (r := r) (s := 0) false c
        rwa [BitVec.ofNat_eq_ofNat, BitVec.xor_zero, Bool.false_xor] at h
      rw [feed_cons, ih, hstep, shift_xor, feed_cons, ih (r := g.shiftIn 0 c), List.length_cons,
        shift_succ, BitVec.xor_assoc]

/-! ## Nothing is lost -/

theorem shiftIn_false_eq_zero (h : g.shiftIn r false = 0) : r = 0 := by
  have hw := g.width_pos
  unfold shiftIn at h
  split_ifs at h with hmsb
  · -- a one falls out, and comes in again at the bottom
    have hbit := congrArg (fun v => v.getLsbD 0) h
    simp [BitVec.getLsbD_shiftConcat, g.odd] at hbit
  · apply BitVec.eq_of_getLsbD_eq
    intro i hi
    by_cases hlast : i = w - 1
    · rw [Bool.not_eq_true, BitVec.msb_eq_getLsbD_last] at hmsb
      rw [hlast, hmsb]
      simp
    · have hbit := congrArg (fun v => v.getLsbD (i + 1)) h
      simpa [BitVec.getLsbD_shiftConcat, BitVec.getLsbD_eq_getElem hi,
        show i + 1 < w by omega] using hbit

theorem shiftIn_left_injective {c : Bool} (h : g.shiftIn r c = g.shiftIn s c) : r = s := by
  have hzero : g.shiftIn (r ^^^ s) false = 0 := by
    have hxor := g.shiftIn_xor (r := r) (s := s) c c
    rw [Bool.xor_self, h, BitVec.xor_self] at hxor
    exact hxor
  exact BitVec.xor_eq_zero_iff.mp (g.shiftIn_false_eq_zero hzero)

theorem feed_left_injective (h : g.feed r bits = g.feed s bits) : r = s := by
  induction bits generalizing r s with
  | nil => exact h
  | cons c bits ih => exact g.shiftIn_left_injective (ih h)

theorem shift_injective {n : ℕ} (h : g.shift n r = g.shift n s) : r = s := by
  induction n generalizing r s with
  | zero => exact h
  | succ n ih => exact g.shiftIn_left_injective (ih h)

/-! ## Words that fit the register -/

/-- The number that a word spells. -/
def binary (bits : List Bool) : ℕ := bits.foldl (fun n c => n * 2 + c.toNat) 0

theorem binary_concat (bits : List Bool) (c : Bool) :
    binary (bits ++ [c]) = binary bits * 2 + c.toNat := by
  rw [binary, List.foldl_append]
  rfl

theorem binary_injective : ∀ {x y : List Bool}, x.length = y.length → binary x = binary y →
    x = y := by
  intro x
  induction x using List.reverseRecOn with
  | nil =>
      intro y hlen _
      exact (List.length_eq_zero_iff.mp hlen.symm).symm
  | append_singleton x c ih =>
      intro y hlen h
      rcases List.eq_nil_or_concat y with rfl | ⟨y, d, rfl⟩
      · simp at hlen
      · rw [List.concat_eq_append] at hlen h ⊢
        rw [binary_concat, binary_concat] at h
        have hc := c.toNat_lt
        have hd := d.toNat_lt
        simp only [List.length_append, List.length_singleton, Nat.add_right_cancel_iff] at hlen
        have hcd : c = d := by
          cases c <;> cases d <;> simp at h ⊢ <;> omega
        rw [ih hlen (by omega), hcd]

/-- A word that fits is just put in the register. -/
theorem toNat_feed (h : bits.length ≤ w) :
    (g.feed 0 bits).toNat = binary bits ∧ binary bits < 2 ^ bits.length := by
  induction bits using List.reverseRecOn with
  | nil => simp [binary]
  | append_singleton bits c ih =>
      rw [List.length_append, List.length_singleton] at h
      obtain ⟨hvalue, hlt⟩ := ih (by omega)
      have hreg : (g.feed 0 bits).toNat < 2 ^ bits.length := hvalue ▸ hlt
      have hmsb : (g.feed 0 bits).msb = false := by
        rw [BitVec.msb_eq_false_iff_two_mul_lt]
        have hpow : 2 ^ (bits.length + 1) ≤ 2 ^ w := Nat.pow_le_pow_right (by decide) h
        rw [Nat.pow_succ] at hpow
        omega
      have hstep : g.feed 0 (bits ++ [c]) = (g.feed 0 bits).shiftConcat c := by
        rw [feed_append, feed_cons, feed_nil, shiftIn, if_neg (by rw [hmsb]; decide)]
      have hc := c.toNat_lt
      rw [hstep, BitVec.toNat_shiftConcat_eq_of_lt h hreg, binary_concat, hvalue,
        List.length_append, List.length_singleton, Nat.pow_succ]
      exact ⟨rfl, by omega⟩

theorem feed_injective (hlen : x.length = y.length) (hle : x.length ≤ w)
    (h : g.feed r x = g.feed r y) : x = y := by
  have hx : g.feed r x = g.shift x.length r ^^^ g.feed 0 x := g.feed_eq
  have hy : g.feed r y = g.shift y.length r ^^^ g.feed 0 y := g.feed_eq
  rw [hx, hy, hlen, BitVec.xor_right_inj] at h
  apply binary_injective hlen
  rw [← (g.toNat_feed hle).1, ← (g.toNat_feed (hlen ▸ hle)).1, h]

end Generator

/-! ## Bursts -/

/-- Two words differ within `w` consecutive places. -/
def DifferWithin (w : ℕ) (x y : List Bool) : Prop :=
  ∃ k, ∀ i, x[i]? ≠ y[i]? → k ≤ i ∧ i < k + w

namespace DifferWithin

variable {w k : ℕ} {x y : List Bool}

/-- Words that agree in some places agree in a stretch of these places. -/
theorem stretch_eq (m n : ℕ) (h : ∀ i, m ≤ i → i < m + n → x[i]? = y[i]?) :
    (x.drop m).take n = (y.drop m).take n := by
  refine List.ext_getElem? fun i => ?_
  rw [List.getElem?_take, List.getElem?_take, List.getElem?_drop, List.getElem?_drop]
  split_ifs with hi
  · exact h (m + i) (by omega) (by omega)
  · rfl

/-- The word before, within and behind the window. -/
theorem parts (k w : ℕ) (x : List Bool) :
    x = x.take k ++ ((x.drop k).take w ++ x.drop (k + w)) := by
  rw [← List.drop_drop, List.take_append_drop, List.take_append_drop]

end DifferWithin

/-- **Bursts are detected.**  Words that differ, but only within as many consecutive places
as the register has, leave different remainders. -/
theorem Generator.feed_ne_of_burst {w : ℕ} (g : Generator w) {r : BitVec w} {x y : List Bool}
    (hlen : x.length = y.length) (hne : x ≠ y) (hburst : DifferWithin w x y) :
    g.feed r x ≠ g.feed r y := by
  obtain ⟨k, hk⟩ := hburst
  have hagree : ∀ i, ¬ (k ≤ i ∧ i < k + w) → x[i]? = y[i]? := fun i hi => by
    by_contra hdiffer
    exact hi (hk i hdiffer)
  have hfront : x.take k = y.take k := by
    have h := DifferWithin.stretch_eq 0 k fun i _ hi => hagree i (by omega)
    rwa [List.drop_zero, List.drop_zero] at h
  have hback : x.drop (k + w) = y.drop (k + w) := by
    have h := DifferWithin.stretch_eq (k + w) x.length fun i hi _ => hagree i (by omega)
    rwa [List.take_of_length_le (by rw [List.length_drop]; omega),
      List.take_of_length_le (by rw [List.length_drop]; omega)] at h
  intro h
  -- the remainders are equal in front of the common end, and there the window is in them
  rw [DifferWithin.parts k w x, DifferWithin.parts k w y, hfront, hback, feed_append, feed_append,
    feed_append, feed_append] at h
  have hwindow := g.feed_injective (by simp [hlen]) (List.length_take_le w (x.drop k))
    (g.feed_left_injective h)
  apply hne
  rw [DifferWithin.parts k w x, DifferWithin.parts k w y, hfront, hback, hwindow]

/-! ## Bytes -/

namespace Generator

variable {w : ℕ} (g : Generator w) {r : BitVec w} {b : BitVec 8} {bytes : List (BitVec 8)}

/-- The bits of a byte, the most significant one first. -/
def byteBits (b : BitVec 8) : List Bool :=
  [b.getMsbD 0, b.getMsbD 1, b.getMsbD 2, b.getMsbD 3, b.getMsbD 4, b.getMsbD 5, b.getMsbD 6,
    b.getMsbD 7]

/-- A byte is added to the top of the register, and its bits are shifted out. -/
def byteIn (r : BitVec w) (b : BitVec 8) : BitVec w :=
  g.shift 8 (r ^^^ (b.setWidth w <<< (w - 8)))

theorem binary_byteBits (b : BitVec 8) : binary (byteBits b) = b.toNat := by
  revert b
  decide +kernel

/-- A register whose upper bits are zero is only moved. -/
theorem shift_of_clear {n : ℕ} (h : ∀ i, w ≤ i + n → r.getLsbD i = false) :
    g.shift n r = r <<< n := by
  induction n generalizing r with
  | zero => simp
  | succ n ih =>
      have hmsb : r.msb = false := by
        rw [BitVec.msb_eq_getLsbD_last]
        exact h _ (by omega)
      have hstep : g.shiftIn r false = r <<< 1 := by
        rw [shiftIn, if_neg (by rw [hmsb]; decide)]
        ext i hi
        rw [BitVec.getElem_shiftConcat, BitVec.getElem_shiftLeft]
        rcases Nat.eq_zero_or_pos i with rfl | hpos
        · simp
        · simp [show i ≠ 0 by omega, show ¬ i < 1 by omega]
      rw [shift_succ, hstep, ih, ← BitVec.shiftLeft_add, Nat.add_comm]
      intro i hi
      rw [BitVec.getLsbD_shiftLeft]
      rcases Nat.eq_zero_or_pos i with rfl | hpos
      · simp
      · simp [h (i - 1) (by omega)]

theorem shift_of_zero (n : ℕ) : g.shift n 0 = 0 :=
  (g.shift_of_clear fun _ _ => BitVec.getLsbD_zero).trans (BitVec.zero_shiftLeft n)

/-- The lower bits are moved, and the upper ones are shifted out. -/
theorem shift_split {n : ℕ} (hn : n ≤ w) :
    g.shift n r = (r <<< n) ^^^ g.shift n ((r >>> (w - n)) <<< (w - n)) := by
  set high := (r >>> (w - n)) <<< (w - n) with hhigh
  have hbit : ∀ i, high.getLsbD i = if w - n ≤ i then r.getLsbD i else false := by
    intro i
    rw [hhigh, BitVec.getLsbD_shiftLeft, BitVec.getLsbD_ushiftRight]
    by_cases hi : w - n ≤ i
    · rw [if_pos hi, Nat.add_sub_cancel' hi]
      by_cases hw : i < w
      · simp [hw, show ¬ i < w - n by omega]
      · simp [hw, BitVec.getLsbD_of_ge r i (by omega)]
    · simp [hi, show i < w - n by omega]
  have hclear : ∀ i, w ≤ i + n → (r ^^^ high).getLsbD i = false := fun i hi => by
    rw [BitVec.getLsbD_xor, hbit, if_pos (by omega), Bool.xor_self]
  have hout : high <<< n = 0 := by
    apply BitVec.eq_of_getLsbD_eq
    intro i hi
    rw [BitVec.getLsbD_shiftLeft, hbit]
    by_cases h : i < n
    · simp [h]
    · simp [show ¬ w - n ≤ i - n by omega]
  have hsplit : r = (r ^^^ high) ^^^ high := by
    rw [BitVec.xor_assoc, BitVec.xor_self, BitVec.xor_zero]
  have hmoved : g.shift n (r ^^^ high) = r <<< n := by
    rw [g.shift_of_clear hclear, BitVec.shiftLeft_xor_distrib, hout]
    exact BitVec.xor_zero
  conv_lhs => rw [hsplit, shift_xor, hmoved]

section Byte

variable (hw : 8 ≤ w)
include hw

theorem feed_byteBits : g.feed r (byteBits b) = g.shift 8 r ^^^ b.setWidth w := by
  have hput : g.feed 0 (byteBits b) = b.setWidth w := by
    apply BitVec.eq_of_toNat_eq
    rw [(g.toNat_feed (show (byteBits b).length ≤ w from hw)).1, binary_byteBits,
      BitVec.toNat_setWidth, Nat.mod_eq_of_lt]
    exact b.isLt.trans_le (Nat.pow_le_pow_right (by decide) hw)
  rw [feed_eq, hput]
  rfl

/-- The register that takes bytes at the top is ahead by its own length. -/
theorem byteIn_shift : g.byteIn (g.shift w r) b = g.shift w (g.feed r (byteBits b)) := by
  have hclear : ∀ i, w ≤ i + (w - 8) → (b.setWidth w).getLsbD i = false := by
    intro i hi
    rw [BitVec.getLsbD_setWidth, BitVec.getLsbD_of_ge b i (by omega), Bool.and_false]
  have hbyte : g.shift w (b.setWidth w) = g.shift 8 (b.setWidth w <<< (w - 8)) := by
    rw [← g.shift_of_clear hclear, ← shift_add, Nat.sub_add_cancel hw]
  rw [byteIn, shift_xor, g.feed_byteBits hw, shift_xor, hbyte, shift_comm]

theorem foldl_byteIn :
    bytes.foldl g.byteIn (g.shift w r) = g.shift w (g.feed r (bytes.flatMap byteBits)) := by
  induction bytes generalizing r with
  | nil => rfl
  | cons b bytes ih =>
      rw [List.foldl_cons, g.byteIn_shift hw, ih, List.flatMap_cons, feed_append]

/-- A byte at the top, with a table for what is shifted out. -/
theorem byteIn_eq : g.byteIn r b
    = (r <<< 8) ^^^ g.shift 8 (((r >>> (w - 8)) ^^^ b.setWidth w) <<< (w - 8)) := by
  have hout : b.setWidth w <<< (w - 8) <<< 8 = 0 := by
    apply BitVec.eq_of_getLsbD_eq
    intro i hi
    rw [← BitVec.shiftLeft_add, Nat.sub_add_cancel hw, BitVec.getLsbD_shiftLeft]
    simp [hi]
  have hback : b.setWidth w <<< (w - 8) >>> (w - 8) = b.setWidth w := by
    apply BitVec.eq_of_getLsbD_eq
    intro i hi
    rw [BitVec.getLsbD_ushiftRight, BitVec.getLsbD_shiftLeft, BitVec.getLsbD_setWidth,
      BitVec.getLsbD_setWidth]
    by_cases h8 : i < 8
    · simp [hi, show w - 8 + i < w by omega]
    · simp [BitVec.getLsbD_of_ge b i (by omega)]
  rw [byteIn, g.shift_split hw, BitVec.shiftLeft_xor_distrib, hout,
    BitVec.ushiftRight_xor_distrib, hback]
  exact congrArg (· ^^^ _) BitVec.xor_zero

/-- A byte at the bottom, with a table for what is shifted out. -/
theorem feed_byteBits_eq : g.feed r (byteBits b)
    = (r <<< 8) ^^^ g.shift 8 ((r >>> (w - 8)) <<< (w - 8)) ^^^ b.setWidth w := by
  rw [g.feed_byteBits hw, ← g.shift_split hw]

end Byte

end Generator
