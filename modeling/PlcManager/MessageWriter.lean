/-
# Writing a message field by field

A message is put together in a buffer: `*ptr++ = x` for a byte, `memcpy` and a step of the
pointer for a block.  What lies between the start of the buffer and the pointer is the
text that has been written; a block that is copied without a step of the pointer does not
belong to it.

Nothing here is about a particular message.
-/
import PlcManager.FlatMemory

/-- A buffer that starts at address 0, and the pointer through which it is written. -/
structure Pen where
  mem : Mem UInt8
  pos : ℕ

namespace Pen

/-- `ptr = buf`. -/
def start (buf : Mem UInt8) : Pen := ⟨buf, 0⟩

/-- `*ptr++ = x`. -/
def byte (x : UInt8) (p : Pen) : Pen := ⟨p.mem.store p.pos x, p.pos + 1⟩

/-- `memcpy(ptr, xs, n)`. -/
def memcpy (xs : List UInt8) (n : ℕ) (p : Pen) : Pen :=
  { p with mem := p.mem.storeList p.pos (xs.take n) }

/-- `ptr += n`. -/
def advance (n : ℕ) (p : Pen) : Pen := { p with pos := p.pos + n }

/-- What has been written. -/
def text (p : Pen) : List UInt8 := p.mem.slice 0 p.pos

section Text

variable {p : Pen} {x : UInt8} {xs : List UInt8} {n : ℕ} {buf : Mem UInt8}

@[simp] theorem text_start : (start buf).text = [] := rfl

@[simp] theorem length_text : p.text.length = p.pos := Mem.length_slice

/-- A byte comes behind the text. -/
@[simp] theorem text_byte : (p.byte x).text = p.text ++ [x] := by
  change (p.mem.store p.pos x).slice 0 (p.pos + 1) = _
  rw [Mem.slice_add, Mem.slice_store_of_disjoint (by omega), Nat.zero_add]
  simp [text, Mem.slice_succ]

/-- A block comes behind the text when the pointer has been moved over it. -/
theorem text_block (h : n ≤ xs.length) :
    ((p.memcpy xs n).advance n).text = p.text ++ xs.take n := by
  have hlen : (xs.take n).length = n := List.length_take_of_le h
  have htext : p.mem.slice 0 p.pos = p.text := rfl
  have hslice : (p.mem.storeList (0 + p.pos) (xs.take n)).slice 0 (p.pos + (xs.take n).length)
      = p.text ++ xs.take n := Mem.slice_storeList_append htext
  rw [Nat.zero_add, hlen] at hslice
  exact hslice

/-- All of a block. -/
@[simp] theorem text_block_all (h : xs.length = n) :
    ((p.memcpy xs n).advance n).text = p.text ++ xs := by
  rw [text_block h.ge, List.take_of_length_le h.le]

/-- A block does not come into the text as long as the pointer stays. -/
@[simp] theorem text_memcpy : (p.memcpy xs n).text = p.text := by
  apply Mem.slice_storeList_of_disjoint
  left
  exact (Nat.zero_add p.pos).le

end Text

/-! ## How the text begins -/

/-- The text begins with these bytes. -/
def Begins (bs : List UInt8) (p : Pen) : Prop :=
  bs.length ≤ p.pos ∧ p.mem.slice 0 bs.length = bs

section Begins

variable {p : Pen} {bs : List UInt8} {x : UInt8} {xs : List UInt8} {n : ℕ}

theorem begins_text (p : Pen) : p.Begins p.text := by
  constructor
  · exact length_text.le
  · rw [length_text]
    rfl

/-- Writing goes on behind it. -/
theorem Begins.byte (h : p.Begins bs) : (p.byte x).Begins bs := by
  refine ⟨h.1.trans (Nat.le_succ _), ?_⟩
  have hbehind : 0 + bs.length ≤ p.pos := by
    rw [Nat.zero_add]
    exact h.1
  exact (Mem.slice_store_of_disjoint (Or.inl hbehind)).trans h.2

theorem Begins.memcpy (h : p.Begins bs) : (p.memcpy xs n).Begins bs := by
  refine ⟨h.1, ?_⟩
  have hbehind : 0 + bs.length ≤ p.pos := by
    rw [Nat.zero_add]
    exact h.1
  exact (Mem.slice_storeList_of_disjoint (Or.inl hbehind)).trans h.2

theorem Begins.advance (h : p.Begins bs) : (p.advance n).Begins bs :=
  ⟨h.1.trans (Nat.le_add_right _ _), h.2⟩

/-- So does what is read from the start of the buffer, as far as it goes. -/
theorem Begins.take_slice (h : p.Begins bs) :
    (p.mem.slice 0 n).take bs.length = bs.take n := by
  have hall : (p.mem.slice 0 (n + bs.length)).take bs.length = bs := by
    rw [Mem.take_slice (Nat.le_add_left _ _)]
    exact h.2
  have hslice : p.mem.slice 0 n = (p.mem.slice 0 (n + bs.length)).take n :=
    (Mem.take_slice (Nat.le_add_right _ _)).symm
  rw [hslice, List.take_take, Nat.min_comm, ← List.take_take, hall]

end Begins

/-! ## How far the buffer is written -/

/-- The text has been stored. -/
def Behind (p : Pen) : Prop := p.pos ≤ p.mem.top

section Behind

variable {p : Pen} {x : UInt8} {xs : List UInt8} {n : ℕ}

theorem behind_byte : (p.byte x).Behind := le_max_right _ _

theorem Behind.memcpy (h : p.Behind) : (p.memcpy xs n).Behind :=
  h.trans Mem.le_top_storeList

theorem Behind.block (h : p.Behind) (hn : n ≤ xs.length) :
    ((p.memcpy xs n).advance n).Behind := by
  have hlen : (xs.take n).length = n := List.length_take_of_le hn
  change p.pos + n ≤ (p.mem.storeList p.pos (xs.take n)).top
  by_cases hzero : n = 0
  · subst hzero
    exact h.memcpy
  · have hne : xs.take n ≠ [] := by
      intro hnil
      rw [hnil] at hlen
      exact hzero hlen.symm
    rw [Mem.top_storeList hne, hlen]
    exact le_max_right _ _

end Behind

/-- Nothing has been stored behind the text. -/
def Within (p : Pen) : Prop := p.mem.top ≤ p.pos

section Within

variable {p : Pen} {x : UInt8} {xs : List UInt8} {n : ℕ}

theorem within_start {contents : ℕ → UInt8} : (start (.init contents)).Within := le_rfl

theorem Within.byte (h : p.Within) : (p.byte x).Within :=
  max_le (h.trans (Nat.le_succ _)) le_rfl

theorem Within.block (h : p.Within) : ((p.memcpy xs n).advance n).Within := by
  have hlen : (xs.take n).length ≤ n := List.length_take_le n xs
  exact Mem.top_storeList_le (h.trans (Nat.le_add_right _ _)) (Nat.add_le_add_left hlen _)

/-- How far the buffer is written when all that is stored is the text. -/
theorem Within.top_eq (h : p.Within) (hbehind : p.Behind) : p.mem.top = p.text.length := by
  rw [length_text]
  exact le_antisymm h hbehind

end Within

end Pen
