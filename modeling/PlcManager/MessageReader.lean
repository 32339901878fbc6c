/-
# Reading a message field by field

A handler gets a pointer to a message and takes one field after the other off it with
`*ptr++`, a `memcpy`, or by keeping the pointer and stepping over the bytes.  It may give
up half-way.  `Read` is what such a handler computes; the cursor also remembers how far
the memory has been read and whether the arrays for the copies were large enough, so that
it can be said of a handler which bytes it touches.

Nothing here is about a particular message.
-/
import PlcManager.FlatMemory

/-- The bytes of a message, with zeros behind them. -/
def messageOf (bytes : List UInt8) : Mem UInt8 := Mem.init fun i => bytes.getD i 0

/-- The bytes of a message are read back. -/
theorem slice_messageOf {bytes : List UInt8} :
    (messageOf bytes).slice 0 bytes.length = bytes := by
  apply Mem.slice_eq rfl
  intro k hk
  rw [Nat.zero_add]
  exact (List.getElem_eq_getD 0).symm

/-- A pointer into a memory, and what has been done with it. -/
structure Cursor where
  mem : Mem UInt8
  pos : ℕ
  /-- One past the highest address read so far. -/
  extent : ℕ
  /-- Every copy so far fits the array for it. -/
  fits : Bool

/-- A pointer nothing has been copied through, to a memory that has been read up to it. -/
def Cursor.start (mem : Mem UInt8) (pos : ℕ) : Cursor := ⟨mem, pos, pos, true⟩

/-- Every byte that has been read lies below `n`, and every copy fits its array. -/
def Cursor.Within (c : Cursor) (n : ℕ) : Prop := c.extent ≤ n ∧ c.fits = true

instance (c : Cursor) (n : ℕ) : Decidable (c.Within n) := inferInstanceAs (Decidable (_ ∧ _))

/-- What is computed from the bytes behind a pointer; `none` when the reader gives up. -/
def Read (α : Type) : Type := Cursor → Option α × Cursor

namespace Read

variable {α β : Type}

instance : Monad Read where
  pure a := fun c => (some a, c)
  bind x f := fun c =>
    match x c with
    | (none, c) => (none, c)
    | (some a, c) => f a c

/-- `*ptr++`. -/
def byte : Read UInt8 := fun c =>
  (some (c.mem.cell c.pos), { c with pos := c.pos + 1, extent := max c.extent (c.pos + 1) })

/-- The two bytes of a word, the higher one first. -/
def wordAt (mem : Mem UInt8) (pos : ℕ) : UInt16 :=
  ((mem.cell pos).toUInt16 <<< 8) + (mem.cell (pos + 1)).toUInt16

/-- `x = *ptr++ << 8; x += *ptr++`. -/
def word : Read UInt16 := fun c =>
  (some (wordAt c.mem c.pos),
    { c with pos := c.pos + 2, extent := max c.extent (c.pos + 2) })

/-- `ptr[i]`. -/
def peek (i : ℕ) : Read UInt8 := fun c =>
  (some (c.mem.cell (c.pos + i)), { c with extent := max c.extent (c.pos + i + 1) })

/-- `(ptr[i] << 8) + ptr[i + 1]`. -/
def peekWord (i : ℕ) : Read UInt16 := fun c =>
  (some (wordAt c.mem (c.pos + i)), { c with extent := max c.extent (c.pos + i + 2) })

/-- `p = ptr; ptr += n`: the bytes are handed on, not read. -/
def field (n : ℕ) : Read (List UInt8) := fun c =>
  (some (c.mem.slice c.pos n), { c with pos := c.pos + n })

/-- `memcpy(p, ptr, n); ptr += n` into an array `p` of `size` bytes. -/
def copy (size n : ℕ) : Read (List UInt8) := fun c =>
  (some (c.mem.slice c.pos n),
    { c with
      pos := c.pos + n
      extent := if n = 0 then c.extent else max c.extent (c.pos + n)
      fits := c.fits && decide (n ≤ size) })

/-- `memcpy(p, ptr + i, n)` into an array `p` of `n` bytes. -/
def copyAt (n i : ℕ) : Read (Vector UInt8 n) := fun c =>
  (some (Vector.ofFn fun j => c.mem.cell (c.pos + i + j)),
    { c with extent := if n = 0 then c.extent else max c.extent (c.pos + i + n) })

/-- `body` as often as `n` says. -/
def loop (body : α → Read α) : ℕ → α → Read α
  | 0, a => pure a
  | n + 1, a => loop body n a >>= body

/-- `if (!p) return false`. -/
def require (p : Prop) [Decidable p] : Read Unit := fun c => (if p then some () else none, c)

/-! ## What comes after a field -/

/-- A reader that has nothing to read. -/
@[simp] theorem pure_apply (a : α) (c : Cursor) : (pure a : Read α) c = (some a, c) := rfl

/-- A byte has been read, and the pointer is behind it. -/
@[simp] theorem byte_bind (f : UInt8 → Read β) (c : Cursor) :
    (byte >>= f) c = f (c.mem.cell c.pos)
      { c with pos := c.pos + 1, extent := max c.extent (c.pos + 1) } := rfl

/-- The same for a word. -/
@[simp] theorem word_bind (f : UInt16 → Read β) (c : Cursor) :
    (word >>= f) c = f (wordAt c.mem c.pos)
      { c with pos := c.pos + 2, extent := max c.extent (c.pos + 2) } := rfl

/-- A byte has been read, and the pointer is where it was. -/
@[simp] theorem peek_bind (i : ℕ) (f : UInt8 → Read β) (c : Cursor) :
    (peek i >>= f) c = f (c.mem.cell (c.pos + i))
      { c with extent := max c.extent (c.pos + i + 1) } := rfl

/-- The same for a word. -/
@[simp] theorem peekWord_bind (i : ℕ) (f : UInt16 → Read β) (c : Cursor) :
    (peekWord i >>= f) c = f (wordAt c.mem (c.pos + i))
      { c with extent := max c.extent (c.pos + i + 2) } := rfl

/-- Some bytes have been copied, and the pointer is where it was. -/
@[simp] theorem copyAt_bind (n i : ℕ) (f : Vector UInt8 n → Read β) (c : Cursor) :
    (copyAt n i >>= f) c = f (Vector.ofFn fun j => c.mem.cell (c.pos + i + j))
      { c with extent := if n = 0 then c.extent else max c.extent (c.pos + i + n) } := rfl

/-- Some bytes have been handed on, of which none has been read. -/
@[simp] theorem field_bind (n : ℕ) (f : List UInt8 → Read β) (c : Cursor) :
    (field n >>= f) c = f (c.mem.slice c.pos n) { c with pos := c.pos + n } := rfl

/-- Some bytes have been copied, and the pointer is behind them. -/
@[simp] theorem copy_bind (size n : ℕ) (f : List UInt8 → Read β) (c : Cursor) :
    (copy size n >>= f) c = f (c.mem.slice c.pos n)
      { c with
        pos := c.pos + n
        extent := if n = 0 then c.extent else max c.extent (c.pos + n)
        fits := c.fits && decide (n ≤ size) } := rfl

/-- One reader after the other, however they are put together. -/
@[simp] theorem bind_assoc {γ : Type} (x : Read α) (f : α → Read β) (g : β → Read γ) :
    (x >>= f) >>= g = x >>= fun a => f a >>= g := by
  funext c
  change (match (match x c with
      | (none, c) => (none, c)
      | (some a, c) => f a c) with
    | (none, c) => (none, c)
    | (some b, c) => g b c) = (match x c with
    | (none, c) => (none, c)
    | (some a, c) => (f a >>= g) c)
  rcases x c with ⟨_ | a, d⟩ <;> rfl

/-- After a reader that has nothing to read. -/
@[simp] theorem pure_bind (a : α) (f : α → Read β) : ((pure a : Read α) >>= f) = f a := rfl

/-- After a reader that has come to its end. -/
theorem bind_apply_of {x : Read α} {f : α → Read β} {a : α} {c d : Cursor}
    (h : x c = (some a, d)) : (x >>= f) c = f a d := by
  change (match x c with
    | (none, c) => (none, c)
    | (some a, c) => f a c) = _
  rw [h]

/-- **Rule for loops.**  The round `i` starts at `p i`, does `f i` and reads up to `e i`: the
loop does what the rounds do, and has read what they have read. -/
theorem loop_apply {body : α → Read α} {f : ℕ → α → α} {p e : ℕ → ℕ} {c : Cursor} {n : ℕ}
    (hbody : ∀ i a (d : Cursor), d.mem = c.mem → d.pos = p i → ∃ d', body a d = (some (f i a), d')
      ∧ d'.mem = c.mem ∧ d'.pos = p (i + 1) ∧ d'.extent = max d.extent (e i))
    (hpos : c.pos = p 0) (a : α) : ∃ d, loop body n a c = (some (forRange 0 n f a), d)
      ∧ d.mem = c.mem ∧ d.pos = p n
      ∧ ∀ b, d.extent ≤ b ↔ c.extent ≤ b ∧ ∀ i < n, e i ≤ b := by
  induction n with
  | zero => exact ⟨c, by rw [forRange_of_le le_rfl]; rfl, rfl, hpos, fun b => by simp⟩
  | succ n ih =>
      obtain ⟨d, hd, hmem, hd_pos, hextent⟩ := ih
      obtain ⟨d', hd', hmem', hpos', hextent'⟩ := hbody n (forRange 0 n f a) d hmem hd_pos
      refine ⟨d', ?_, hmem', hpos', fun b => ?_⟩
      · rw [loop, bind_apply_of hd, hd', forRange_succ (Nat.zero_le n)]
      · rw [hextent', max_le_iff, hextent, and_assoc]
        apply and_congr_right
        intro _
        constructor
        · rintro ⟨hold, hnew⟩ i hi
          rcases Nat.lt_succ_iff_lt_or_eq.mp hi with hlt | rfl
          · exact hold i hlt
          · exact hnew
        · intro hall
          exact ⟨fun i hi => hall i (Nat.lt_succ_of_lt hi), hall n (Nat.lt_succ_self n)⟩

/-- A reader whose test fails gives up. -/
theorem require_bind (p : Prop) [Decidable p] (f : Unit → Read β) (c : Cursor) :
    (require p >>= f) c = if p then f () c else (none, c) := by
  by_cases h : p
  · rw [if_pos h]
    simp only [bind, require, if_pos h]
  · rw [if_neg h]
    simp only [bind, require, if_neg h]

/-- A reader whose test succeeds goes on. -/
@[simp] theorem require_bind_of {p : Prop} [Decidable p] (h : p) (f : Unit → Read β)
    (c : Cursor) : (require p >>= f) c = f () c := by
  rw [require_bind, if_pos h]

end Read
