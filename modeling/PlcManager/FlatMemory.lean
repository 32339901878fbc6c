/-
# Flat memories and counted loops

A flat memory is a map from addresses to cells that also remembers how far up it
has ever been stored to.  An array of a program is the stretch of cells that
starts at some address; a store past its end is not lost, it lands in the cells
behind it, and the mark `top` shows that it happened.

The module holds the operations (`store`, `storeList`, `slice`, `find`) and the
lemmas that move a slice through them, together with the counted loop
`forRange`, its invariant rules, and what the loops that copy and fill a stretch
come to.  Nothing here is about a particular program.
-/
import Mathlib

/-! ## Counted loops -/

/-- The loop `for (i = lo; i < hi; i++) s = body i s`. -/
def forRange {σ : Type*} (lo hi : ℕ) (body : ℕ → σ → σ) (s : σ) : σ :=
  (List.range' lo (hi - lo)).foldl (fun s i => body i s) s

section ForRange

variable {σ : Type*} {lo hi : ℕ} {body : ℕ → σ → σ} {s : σ}

/-- A loop whose bound is already reached does nothing. -/
theorem forRange_of_le (h : hi ≤ lo) : forRange lo hi body s = s := by
  rw [forRange, Nat.sub_eq_zero_of_le h]
  rfl

/-- The last round of a loop comes after all the others. -/
theorem forRange_succ (h : lo ≤ hi) :
    forRange lo (hi + 1) body s = body hi (forRange lo hi body s) := by
  unfold forRange
  rw [show hi + 1 - lo = (hi - lo) + 1 by omega, List.range'_concat, List.foldl_append]
  simp only [Nat.one_mul, List.foldl_cons, List.foldl_nil]
  rw [show lo + (hi - lo) = hi by omega]

/-- **Invariant rule.**  What holds at the start and is carried by each round
holds at the end. -/
theorem forRange_induction (P : ℕ → σ → Prop) (h : lo ≤ hi) (h0 : P lo s)
    (hstep : ∀ i t, lo ≤ i → i < hi → P i t → P (i + 1) (body i t)) :
    P hi (forRange lo hi body s) := by
  induction hi, h using Nat.le_induction with
  | base => rwa [forRange_of_le le_rfl]
  | succ n hn ih =>
      rw [forRange_succ hn]
      exact hstep n _ hn (Nat.lt_succ_self n)
        (ih fun i t hi hlt => hstep i t hi (Nat.lt_succ_of_lt hlt))

/-- **Invariant rule without the counter.**  What each round carries, the loop carries. -/
theorem forRange_invariant (P : σ → Prop) (h0 : P s)
    (hstep : ∀ i t, lo ≤ i → i < hi → P t → P (body i t)) : P (forRange lo hi body s) := by
  rcases Nat.le_total lo hi with h | h
  · exact forRange_induction (fun _ t => P t) h h0 hstep
  · rwa [forRange_of_le h]

/-- A loop counted from zero. -/
theorem forRange_eq_from_zero :
    forRange lo hi body s = forRange 0 (hi - lo) (fun i => body (lo + i)) s := by
  unfold forRange
  rw [Nat.sub_zero, ← Nat.add_zero lo, ← List.map_add_range', Nat.add_zero, List.foldl_map]

end ForRange

/-! ## Memories -/

/-- A memory: its cells, and one past the highest address ever stored to. -/
structure Mem (α : Type*) where
  /-- The value of each cell. -/
  cell : ℕ → α
  /-- One past the highest address stored to so far. -/
  top : ℕ

namespace Mem

variable {α : Type*} {m m' : Mem α} {a b c : α} {i j k n : ℕ} {xs ys : List α}

/-- A memory nobody has stored to. -/
def init (cell : ℕ → α) : Mem α := ⟨cell, 0⟩

/-- Store one cell. -/
def store (m : Mem α) (i : ℕ) (a : α) : Mem α :=
  ⟨Function.update m.cell i a, max m.top (i + 1)⟩

/-- Store a list of cells, one after the other, from address `i` on. -/
def storeList (m : Mem α) (i : ℕ) : List α → Mem α
  | [] => m
  | a :: as => (m.store i a).storeList (i + 1) as

/-- The `n` cells from address `i` on. -/
def slice (m : Mem α) (i : ℕ) : ℕ → List α
  | 0 => []
  | n + 1 => m.cell i :: m.slice (i + 1) n

/-- The address of the first of the `n` cells from `i` on that holds `c`. -/
def find [DecidableEq α] (m : Mem α) (c : α) (i : ℕ) : ℕ → Option ℕ
  | 0 => none
  | n + 1 => if m.cell i = c then some i else m.find c (i + 1) n

/-- Replace every cell from address `bound` on by what `behind` says, without
counting it as a store: somebody else owns these cells. -/
def withBehind (m : Mem α) (bound : ℕ) (behind : ℕ → α) : Mem α :=
  ⟨fun i => if i < bound then m.cell i else behind i, m.top⟩

/-! ## Single stores -/

@[simp] theorem cell_store_self : (m.store i a).cell i = a := by
  simp [store]

theorem cell_store_of_ne (h : j ≠ i) : (m.store i a).cell j = m.cell j := by
  simp [store, h]

theorem cell_store : (m.store i a).cell j = if j = i then a else m.cell j := by
  by_cases h : j = i
  · subst h; simp
  · rw [cell_store_of_ne h, if_neg h]

@[simp] theorem top_store : (m.store i a).top = max m.top (i + 1) := rfl

/-! ## Lists of stores -/

@[simp] theorem storeList_nil : m.storeList i [] = m := rfl

theorem storeList_cons : m.storeList i (a :: xs) = (m.store i a).storeList (i + 1) xs := rfl

theorem storeList_append :
    m.storeList i (xs ++ ys) = (m.storeList i xs).storeList (i + xs.length) ys := by
  induction xs generalizing m i with
  | nil => rfl
  | cons a xs ih =>
      rw [List.cons_append, storeList_cons, ih, storeList_cons, List.length_cons,
        show i + 1 + xs.length = i + (xs.length + 1) by omega]

/-- Cells outside the stored stretch keep their value. -/
theorem cell_storeList_of_not_mem (h : j < i ∨ i + xs.length ≤ j) :
    (m.storeList i xs).cell j = m.cell j := by
  induction xs generalizing m i with
  | nil => rfl
  | cons a xs ih =>
      rw [List.length_cons] at h
      rw [storeList_cons, ih (by omega), cell_store_of_ne (by omega)]

/-- Cells inside the stored stretch hold the list. -/
theorem cell_storeList_of_lt (h : k < xs.length) :
    (m.storeList i xs).cell (i + k) = xs[k] := by
  induction xs generalizing m i k with
  | nil => simp at h
  | cons a xs ih =>
      rw [storeList_cons]
      cases k with
      | zero =>
          rw [cell_storeList_of_not_mem (by omega)]
          simp
      | succ k =>
          rw [show i + (k + 1) = (i + 1) + k by omega, ih (by simpa using h)]
          rfl

theorem top_storeList (h : xs ≠ []) :
    (m.storeList i xs).top = max m.top (i + xs.length) := by
  induction xs generalizing m i with
  | nil => exact absurd rfl h
  | cons a xs ih =>
      rw [storeList_cons]
      cases xs with
      | nil => rfl
      | cons b xs =>
          rw [ih (by simp), top_store]
          simp only [List.length_cons]
          omega

theorem top_storeList_le (h : m.top ≤ n) (hn : i + xs.length ≤ n) :
    (m.storeList i xs).top ≤ n := by
  by_cases hx : xs = []
  · subst hx; simpa using h
  · rw [top_storeList hx]
    omega

/-- A store never takes the mark back. -/
theorem le_top_storeList : m.top ≤ (m.storeList i xs).top := by
  by_cases hx : xs = []
  · subst hx; exact le_rfl
  · rw [top_storeList hx]
    exact le_max_left _ _

/-! ## Slices -/

@[simp] theorem slice_zero : m.slice i 0 = [] := rfl

theorem slice_succ : m.slice i (n + 1) = m.cell i :: m.slice (i + 1) n := rfl

@[simp] theorem length_slice : (m.slice i n).length = n := by
  induction n generalizing i with
  | zero => rfl
  | succ n ih => rw [slice_succ, List.length_cons, ih]

theorem getElem_slice (h : k < (m.slice i n).length) :
    (m.slice i n)[k] = m.cell (i + k) := by
  induction n generalizing i k with
  | zero => simp at h
  | succ n ih =>
      cases k with
      | zero => rfl
      | succ k =>
          simp only [slice_succ, List.getElem_cons_succ]
          rw [ih, show i + 1 + k = i + (k + 1) by omega]

/-- A slice is a given list as soon as it has its length and its entries. -/
theorem slice_eq (hlen : xs.length = n)
    (h : ∀ k (hk : k < xs.length), m.cell (i + k) = xs[k]) : m.slice i n = xs := by
  subst hlen
  apply List.ext_getElem (by simp)
  intro k h1 h2
  rw [getElem_slice, h k h2]

/-- The entries of a slice known as a list. -/
theorem cell_of_slice (h : m.slice i n = xs) (hk : k < xs.length) :
    m.cell (i + k) = xs[k] := by
  subst h
  rw [getElem_slice]

/-- An array read from the cells. -/
theorem toList_ofFn_cell : (Vector.ofFn fun j : Fin n => m.cell (i + j)).toList = m.slice i n := by
  symm
  apply slice_eq (by simp)
  intro k hk
  simp

/-- Slices depend on their own cells only. -/
theorem slice_congr (h : ∀ k, i ≤ k → k < i + n → m'.cell k = m.cell k) :
    m'.slice i n = m.slice i n := by
  apply slice_eq (by simp)
  intro k hk
  rw [getElem_slice]
  rw [length_slice] at hk
  exact h (i + k) (by omega) (by omega)

theorem slice_add : m.slice i (n + k) = m.slice i n ++ m.slice (i + n) k := by
  induction n generalizing i with
  | zero => simp
  | succ n ih =>
      rw [show n + 1 + k = (n + k) + 1 by omega, slice_succ, slice_succ, ih,
        List.cons_append, show i + 1 + n = i + (n + 1) by omega]

theorem slice_concat : m.slice i (n + 1) = m.slice i n ++ [m.cell (i + n)] := slice_add

/-- The parts of a slice that is an append. -/
theorem slice_append (h : m.slice i n = xs ++ ys) :
    m.slice i xs.length = xs ∧ m.slice (i + xs.length) ys.length = ys := by
  have hn : n = xs.length + ys.length := by
    rw [← length_slice (m := m) (i := i) (n := n), h, List.length_append]
  rw [hn, slice_add] at h
  exact List.append_inj h (by simp)

theorem take_slice (h : k ≤ n) : (m.slice i n).take k = m.slice i k := by
  obtain ⟨d, rfl⟩ := Nat.exists_eq_add_of_le h
  rw [slice_add, List.take_left' (by simp)]

theorem drop_slice (h : k ≤ n) : (m.slice i n).drop k = m.slice (i + k) (n - k) := by
  obtain ⟨d, rfl⟩ := Nat.exists_eq_add_of_le h
  rw [slice_add, List.drop_left' (by simp), Nat.add_sub_cancel_left]

/-- Reading back what was stored. -/
@[simp] theorem slice_storeList : (m.storeList i xs).slice i xs.length = xs :=
  slice_eq rfl fun _ hk => cell_storeList_of_lt hk

/-- A slice away from the stores is what it was. -/
theorem slice_storeList_of_disjoint (h : j + n ≤ i ∨ i + xs.length ≤ j) :
    (m.storeList i xs).slice j n = m.slice j n :=
  slice_congr fun _ _ _ => cell_storeList_of_not_mem (by omega)

theorem slice_store_of_disjoint (h : j + n ≤ i ∨ i < j) :
    (m.store i a).slice j n = m.slice j n :=
  slice_congr fun _ _ _ => cell_store_of_ne (by omega)

/-- A list of stores right behind a slice extends it. -/
theorem slice_storeList_append (h : m.slice i n = ys) :
    (m.storeList (i + n) xs).slice i (n + xs.length) = ys ++ xs := by
  rw [slice_add, slice_storeList, slice_storeList_of_disjoint (by omega), h]

theorem slice_withBehind (h : i + n ≤ k) (behind : ℕ → α) :
    (m.withBehind k behind).slice i n = m.slice i n :=
  slice_congr fun j _ _ => if_pos (by omega)

/-! ## Loops over cells -/

/-- Cells may be copied to lower addresses one after the other, whether the two stretches
overlap or not. -/
theorem forRange_copy (h : i ≤ j) :
    forRange 0 n (fun k t => t.store (i + k) (t.cell (j + k))) m
      = m.storeList i (m.slice j n) := by
  induction n with
  | zero => exact forRange_of_le le_rfl
  | succ n ih =>
      -- the cell that is read lies behind those stored so far
      have hread : (m.storeList i (m.slice j n)).cell (j + n) = m.cell (j + n) := by
        apply cell_storeList_of_not_mem
        rw [length_slice]
        omega
      rw [forRange_succ (Nat.zero_le n), ih, hread, slice_concat, storeList_append, length_slice]
      rfl

/-- A stretch is filled. -/
theorem forRange_fill :
    forRange 0 n (fun k t => t.store (i + k) a) m = m.storeList i (List.replicate n a) := by
  induction n with
  | zero => exact forRange_of_le le_rfl
  | succ n ih =>
      rw [forRange_succ (Nat.zero_le n), ih, List.replicate_succ', storeList_append,
        List.length_replicate]
      rfl

/-! ## Searching -/

section Find

variable [DecidableEq α]

theorem find_eq_none : m.find c i n = none ↔ c ∉ m.slice i n := by
  induction n generalizing i with
  | zero => simp [find]
  | succ n ih =>
      rw [find, slice_succ, List.mem_cons]
      by_cases h : m.cell i = c
      · simp [h]
      · rw [if_neg h, ih]
        simp [Ne.symm h]

/-- The search finds an address exactly when the cells in front of it differ from
the value looked for and its own cell holds it. -/
theorem find_eq_some : m.find c i n = some j ↔
    i ≤ j ∧ j < i + n ∧ m.cell j = c ∧ c ∉ m.slice i (j - i) := by
  induction n generalizing i with
  | zero => simp [find]; omega
  | succ n ih =>
      rw [find]
      by_cases h : m.cell i = c
      · rw [if_pos h, Option.some_inj]
        constructor
        · rintro rfl
          simp [h]
        · rintro ⟨hij, -, -, hnot⟩
          rcases Nat.eq_or_lt_of_le hij with heq | hlt
          · exact heq
          · rw [show j - i = (j - i - 1) + 1 by omega, slice_succ] at hnot
            exact absurd (List.mem_cons.mpr (Or.inl h.symm)) hnot
      · rw [if_neg h, ih]
        constructor
        · rintro ⟨hij, hlt, hc, hnot⟩
          refine ⟨by omega, by omega, hc, ?_⟩
          rw [show j - i = (j - (i + 1)) + 1 by omega, slice_succ, List.mem_cons, not_or]
          exact ⟨Ne.symm h, hnot⟩
        · rintro ⟨hij, hlt, hc, hnot⟩
          have hne : i ≠ j := fun he => h (he ▸ hc)
          rw [show j - i = (j - (i + 1)) + 1 by omega, slice_succ, List.mem_cons, not_or] at hnot
          exact ⟨by omega, by omega, hc, hnot.2⟩

/-- A search over a slice that is known to hold the value. -/
theorem find_of_slice (h : m.slice i n = xs ++ c :: ys) (hc : c ∉ xs) :
    m.find c i n = some (i + xs.length) := by
  have hn : n = xs.length + (ys.length + 1) := by
    rw [← length_slice (m := m) (i := i) (n := n), h]
    simp
  rw [find_eq_some]
  refine ⟨by omega, by omega, ?_, ?_⟩
  · rw [cell_of_slice h (by simp)]
    simp
  · rwa [Nat.add_sub_cancel_left, (slice_append h).1]

/-- The list a successful search splits its slice into. -/
theorem slice_of_find (h : m.find c i n = some j) :
    m.slice i n = m.slice i (j - i) ++ c :: m.slice (j + 1) (i + n - (j + 1)) := by
  obtain ⟨hij, hlt, hc, -⟩ := find_eq_some.mp h
  have hn : n = (j - i) + ((i + n - (j + 1)) + 1) := by omega
  conv_lhs => rw [hn]
  rw [slice_add, slice_succ, show i + (j - i) = j by omega, hc]

end Find

end Mem
