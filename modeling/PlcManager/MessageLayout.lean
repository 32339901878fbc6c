/-
# Layouts of messages

A message is a sequence of items.  An item is a byte, a word, a block whose length is
known beforehand, or data with its length in front.  A layout lists the items; its values
have a type of their own, so that data too long for the length in front of it does not
occur.

The module says how values are laid out as bytes, that they can be recovered from the
bytes, and which values stand at an address of a memory.
-/
import PlcManager.MessageReader

namespace Layout

/-! ## Items -/

/-- An item of a message. -/
inductive Item where
  | byte
  /-- Two bytes, the higher one first. -/
  | word
  | block (n : ℕ)
  /-- A byte that says how many bytes follow. -/
  | data8
  /-- A word that says how many bytes follow. -/
  | data16
  deriving DecidableEq, Repr

/-- What an item can hold. -/
@[reducible] def Item.Value : Item → Type
  | .byte => UInt8
  | .word => UInt16
  | .block n => {xs : List UInt8 // xs.length = n}
  | .data8 => {xs : List UInt8 // xs.length < 2 ^ 8}
  | .data16 => {xs : List UInt8 // xs.length < 2 ^ 16}

/-- The two bytes of a word. -/
def wordBytes (x : UInt16) : List UInt8 := [(x >>> 8).toUInt8, (x &&& 0xff).toUInt8]

/-- The bytes of an item. -/
def Item.encode : (f : Item) → f.Value → List UInt8
  | .byte, x => [x]
  | .word, x => wordBytes x
  | .block _, xs => xs.1
  | .data8, xs => UInt8.ofNat xs.1.length :: xs.1
  | .data16, xs => wordBytes (UInt16.ofNat xs.1.length) ++ xs.1

/-- The value of an item at an address. -/
def Item.valueAt (m : Mem UInt8) (i : ℕ) : (f : Item) → f.Value
  | .byte => m.cell i
  | .word => Read.wordAt m i
  | .block n => ⟨m.slice i n, Mem.length_slice⟩
  | .data8 => ⟨m.slice (i + 1) (m.cell i).toNat, by
      rw [Mem.length_slice]; exact (m.cell i).toNat_lt⟩
  | .data16 => ⟨m.slice (i + 2) (Read.wordAt m i).toNat, by
      rw [Mem.length_slice]; exact (Read.wordAt m i).toNat_lt⟩

/-- The number of bytes of an item at an address. -/
def Item.sizeAt (m : Mem UInt8) (i : ℕ) : Item → ℕ
  | .byte => 1
  | .word => 2
  | .block n => n
  | .data8 => 1 + (m.cell i).toNat
  | .data16 => 2 + (Read.wordAt m i).toNat

/-! ### Words -/

@[simp] theorem length_wordBytes (x : UInt16) : (wordBytes x).length = 2 := rfl

/-- A word is what its two bytes say. -/
theorem word_of_bytes (x : UInt16) :
    ((x >>> 8).toUInt8.toUInt16 <<< 8) + (x &&& 0xff).toUInt8.toUInt16 = x := by
  apply UInt16.toNat_inj.mp
  have hx := x.toNat_lt
  have hlow : (x.toNat % 256 &&& 255) = x.toNat % 256 := by
    rw [Nat.and_two_pow_sub_one_eq_mod (x.toNat % 256) 8]
    omega
  simp [UInt16.toNat_add, UInt16.toNat_shiftLeft, UInt16.toNat_shiftRight, Nat.shiftLeft_eq,
    Nat.shiftRight_eq_div_pow, hlow]
  omega

theorem wordBytes_injective : Function.Injective wordBytes := by
  intro x y h
  obtain ⟨hhigh, hrest⟩ := List.cons.inj h
  rw [← word_of_bytes x, ← word_of_bytes y, hhigh, (List.cons.inj hrest).1]

theorem wordAt_of_slice {m : Mem UInt8} {i : ℕ} {x : UInt16} (h : m.slice i 2 = wordBytes x) :
    Read.wordAt m i = x := by
  have h0 : m.cell i = (x >>> 8).toUInt8 := (List.cons.inj h).1
  have h1 : m.cell (i + 1) = (x &&& 0xff).toUInt8 := (List.cons.inj (List.cons.inj h).2).1
  rw [Read.wordAt, h0, h1, word_of_bytes]

/-! ### One item -/

namespace Item

variable {f : Item} {m : Mem UInt8} {i : ℕ}

/-- An item that stands at an address is its value there. -/
theorem valueAt_of_slice {x : f.Value} (h : m.slice i (f.encode x).length = f.encode x) :
    f.valueAt m i = x := by
  cases f with
  | byte => exact (List.cons.inj h).1
  | word => exact wordAt_of_slice h
  | block n =>
      apply Subtype.ext
      change m.slice i x.1.length = x.1 at h
      rwa [x.2] at h
  | data8 =>
      obtain ⟨hlen, hdata⟩ := List.cons.inj h
      apply Subtype.ext
      change m.slice (i + 1) (m.cell i).toNat = x.1
      rw [hlen, UInt8.toNat_ofNat_of_lt' x.2]
      exact hdata
  | data16 =>
      obtain ⟨hlen, hdata⟩ := Mem.slice_append h
      apply Subtype.ext
      change m.slice (i + 2) (Read.wordAt m i).toNat = x.1
      rw [wordAt_of_slice hlen, UInt16.toNat_ofNat_of_lt' x.2]
      exact hdata

/-- The value at an address has the size that its length says. -/
theorem length_encode_valueAt : (f.encode (f.valueAt m i)).length = f.sizeAt m i := by
  cases f with
  | byte => rfl
  | word => rfl
  | block n => exact Mem.length_slice
  | data8 => simp [encode, valueAt, sizeAt, Nat.add_comm]
  | data16 => simp [encode, valueAt, sizeAt]

/-- An item tells where it ends. -/
theorem encode_append_inj {x y : f.Value} {xs ys : List UInt8}
    (h : f.encode x ++ xs = f.encode y ++ ys) : x = y ∧ xs = ys := by
  cases f with
  | byte => exact List.cons.inj h
  | word =>
      obtain ⟨hxy, hrest⟩ := List.append_inj h rfl
      exact ⟨wordBytes_injective hxy, hrest⟩
  | block n =>
      obtain ⟨hxy, hrest⟩ := List.append_inj h (x.2.trans y.2.symm)
      exact ⟨Subtype.ext hxy, hrest⟩
  | data8 =>
      obtain ⟨hlen, hrest⟩ := List.cons.inj h
      have hlen' : x.1.length = y.1.length := by
        have hnat := congrArg UInt8.toNat hlen
        rwa [UInt8.toNat_ofNat_of_lt' x.2, UInt8.toNat_ofNat_of_lt' y.2] at hnat
      obtain ⟨hxy, hrest⟩ := List.append_inj hrest hlen'
      exact ⟨Subtype.ext hxy, hrest⟩
  | data16 =>
      simp only [encode, List.append_assoc] at h
      obtain ⟨hlen, hrest⟩ := List.append_inj h rfl
      have hlen' : x.1.length = y.1.length := by
        have hnat := congrArg UInt16.toNat (wordBytes_injective hlen)
        rwa [UInt16.toNat_ofNat_of_lt' x.2, UInt16.toNat_ofNat_of_lt' y.2] at hnat
      obtain ⟨hxy, hrest⟩ := List.append_inj hrest hlen'
      exact ⟨Subtype.ext hxy, hrest⟩

end Item

/-! ## Layouts -/

/-- The values of the items of a layout. -/
@[reducible] def Values : List Item → Type
  | [] => Unit
  | f :: fs => f.Value × Values fs

/-- The items, one after the other. -/
def encode : (fs : List Item) → Values fs → List UInt8
  | [], _ => []
  | f :: fs, v => f.encode v.1 ++ encode fs v.2

/-- The values that stand at an address. -/
def valuesAt (m : Mem UInt8) (i : ℕ) : (fs : List Item) → Values fs
  | [] => ()
  | f :: fs => (f.valueAt m i, valuesAt m (i + f.sizeAt m i) fs)

/-- The number of bytes that the items at an address have. -/
def sizeAt (m : Mem UInt8) (i : ℕ) : List Item → ℕ
  | [] => 0
  | f :: fs => f.sizeAt m i + sizeAt m (i + f.sizeAt m i) fs

section Layouts

variable {fs : List Item} {m : Mem UInt8} {i : ℕ}

/-- Items that stand at an address are the values there. -/
theorem valuesAt_of_slice {v : Values fs}
    (h : m.slice i (encode fs v).length = encode fs v) : valuesAt m i fs = v := by
  induction fs generalizing i with
  | nil => rfl
  | cons f fs ih =>
      obtain ⟨hitem, hrest⟩ := Mem.slice_append h
      have hvalue := Item.valueAt_of_slice hitem
      have hsize : f.sizeAt m i = (f.encode v.1).length := by
        rw [← Item.length_encode_valueAt, hvalue]
      refine Prod.ext hvalue (ih ?_)
      rwa [hsize]

/-- The values at an address have the sizes that their lengths say. -/
theorem length_encode_valuesAt :
    (encode fs (valuesAt m i fs)).length = sizeAt m i fs := by
  induction fs generalizing i with
  | nil => rfl
  | cons f fs ih =>
      rw [valuesAt, encode, List.length_append, Item.length_encode_valueAt, ih, sizeAt]

/-- The items tell where they end. -/
theorem encode_append_inj {v w : Values fs} {xs ys : List UInt8}
    (h : encode fs v ++ xs = encode fs w ++ ys) : v = w ∧ xs = ys := by
  induction fs with
  | nil => exact ⟨rfl, h⟩
  | cons f fs ih =>
      simp only [encode, List.append_assoc] at h
      obtain ⟨hvalue, hrest⟩ := Item.encode_append_inj h
      obtain ⟨hvalues, hrest⟩ := ih hrest
      exact ⟨Prod.ext hvalue hvalues, hrest⟩

/-- Different values have different bytes. -/
theorem encode_injective : Function.Injective (encode fs) := by
  intro v w h
  have happ : encode fs v ++ [] = encode fs w ++ [] := by rw [h]
  exact (encode_append_inj happ).1

end Layouts

end Layout
