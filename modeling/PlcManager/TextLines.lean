/-
# Lines of a text

A text is a list of characters; a line of it reaches up to and including its next newline,
and what is behind the last newline is a line of its own.  A program that reads a file line
by line sees `lines`, and what it has to know of a file that was printed line by line is that
these are the lines again.

Nothing here is about a particular program.
-/
import Mathlib

variable {α β : Type*}

/-! ## Lines -/

/-- The lines of a text, where `nl` is the newline. -/
def lines [DecidableEq α] (nl : α) : List α → List (List α)
  | [] => []
  | a :: t =>
      if a = nl then [a] :: lines nl t
      else match lines nl t with
        | [] => [[a]]
        | l :: ls => (a :: l) :: ls

/-- Some characters other than the newline, and a newline behind them. -/
def IsLine (nl : α) (l : List α) : Prop := ∃ body, nl ∉ body ∧ l = body ++ [nl]

section Lines

variable {nl : α} {l t : List α} {ls : List (List α)}

theorem isLine_append (body : List α) (h : nl ∉ body) : IsLine nl (body ++ [nl]) :=
  ⟨body, h, rfl⟩

variable [DecidableEq α]

@[simp] theorem lines_nil : lines nl ([] : List α) = [] := rfl

/-- The first line is read, and the rest of the text is left. -/
theorem lines_cons_line (h : nl ∉ l) : lines nl (l ++ nl :: t) = (l ++ [nl]) :: lines nl t := by
  induction l with
  | nil => simp [lines]
  | cons a l ih =>
      rw [List.mem_cons, not_or] at h
      rw [List.cons_append, lines, if_neg (Ne.symm h.1), ih h.2]
      rfl

/-- A text without a newline is one line. -/
theorem lines_of_not_mem (h : nl ∉ l) (hne : l ≠ []) : lines nl l = [l] := by
  induction l with
  | nil => exact absurd rfl hne
  | cons a l ih =>
      rw [List.mem_cons, not_or] at h
      rw [lines, if_neg (Ne.symm h.1)]
      rcases eq_or_ne l [] with rfl | hl
      · rfl
      · rw [ih h.2 hl]

/-- **Printed and read line by line.**  Lines one behind the other are the lines of the text
they come to, whatever is behind them. -/
theorem lines_flatten_append (h : ∀ l ∈ ls, IsLine nl l) :
    lines nl (ls.flatten ++ t) = ls ++ lines nl t := by
  induction ls with
  | nil => rfl
  | cons l ls ih =>
      rw [List.forall_mem_cons] at h
      obtain ⟨⟨body, hbody, rfl⟩, hrest⟩ := h
      rw [List.flatten_cons, List.append_assoc, List.append_assoc, List.singleton_append,
        lines_cons_line hbody, ih hrest, List.cons_append]

end Lines

/-! ## Records of one length -/

/-- Lists that are put together from records of one length are equal exactly if the records
are. -/
theorem flatMap_inj_of_length {f : α → List β} {k : ℕ} (hk : 0 < k) (hf : ∀ a, (f a).length = k)
    {xs ys : List α} : xs.flatMap f = ys.flatMap f ↔ xs.map f = ys.map f := by
  constructor
  · intro h
    induction xs generalizing ys with
    | nil =>
        cases ys with
        | nil => rfl
        | cons y ys =>
            have hlen := congrArg List.length h
            rw [List.flatMap_cons, List.length_append, hf] at hlen
            simp at hlen
            omega
    | cons x xs ih =>
        cases ys with
        | nil =>
            have hlen := congrArg List.length h
            rw [List.flatMap_cons, List.length_append, hf] at hlen
            simp at hlen
            omega
        | cons y ys =>
            rw [List.flatMap_cons, List.flatMap_cons] at h
            obtain ⟨hhead, htail⟩ := List.append_inj h (by rw [hf, hf])
            rw [List.map_cons, List.map_cons, hhead, ih htail]
  · intro h
    rw [List.flatMap_def, List.flatMap_def, h]
