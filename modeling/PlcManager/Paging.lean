/-
# Lists that are asked for in pages

A query names a cursor.  The answer are the first items whose keys are not below it, in
increasing order of the keys, and no more of them than a page holds.  A full page is followed
by a query for what comes behind its last key; a page that is not full is the last one.

Items, keys and the size of a page are arbitrary here.
-/
import Mathlib

namespace Paging

variable {α : Type*} (key : α → ℕ) (size : ℕ)

/-- What is answered to the query with this cursor. -/
structure IsPage (items : List α) (cursor : ℕ) (page : List α) : Prop where
  length : page.length = min size (items.filter fun x => cursor ≤ key x).length
  first : ∃ rest, (page ++ rest).Pairwise (fun x y => key x < key y)
    ∧ (page ++ rest).Perm (items.filter fun x => cursor ≤ key x)

/-- The items in front of a cursor. -/
def before (items : List α) (cursor : ℕ) : List α := items.filter fun x => key x < cursor

/-- The cursor of the query that follows a page. -/
def next (page : List α) : Option ℕ :=
  if page.length < size then none else page.getLast?.map fun x => key x + 1

variable {key size} {items page got : List α} {cursor n : ℕ} {x : α}

/-- There is an answer to every query, if no two items have the same key. -/
theorem exists_isPage (hkeys : items.Pairwise fun x y => key x ≠ key y) (cursor : ℕ) :
    ∃ page, IsPage key size items cursor page := by
  set sorted := (items.filter fun x => cursor ≤ key x).mergeSort fun x y => key x ≤ key y
    with hsorted
  have hperm : sorted.Perm (items.filter fun x => cursor ≤ key x) := List.mergeSort_perm _ _
  have hle : sorted.Pairwise fun x y => key x ≤ key y := by
    have htrans (a b c : α) (hab : decide (key a ≤ key b) = true)
        (hbc : decide (key b ≤ key c) = true) : decide (key a ≤ key c) = true := by
      rw [decide_eq_true_eq] at hab hbc ⊢
      omega
    have htotal (a b : α) : (decide (key a ≤ key b) || decide (key b ≤ key a)) = true := by
      rw [Bool.or_eq_true, decide_eq_true_eq, decide_eq_true_eq]
      omega
    have h := List.pairwise_mergeSort htrans htotal (items.filter fun x => cursor ≤ key x)
    exact h.imp fun hab => of_decide_eq_true hab
  have hne : sorted.Pairwise fun x y => key x ≠ key y :=
    (hperm.pairwise_iff fun h => h.symm).mpr (hkeys.filter _)
  have hlt : sorted.Pairwise fun x y => key x < key y :=
    (hle.and hne).imp fun h => lt_of_le_of_ne h.1 h.2
  refine ⟨sorted.take size, ?_, sorted.drop size, ?_, ?_⟩
  · rw [List.length_take, hperm.length_eq]
  · rwa [List.take_append_drop]
  · rwa [List.take_append_drop]

namespace IsPage

theorem mem (h : IsPage key size items cursor page) (hx : x ∈ page) :
    x ∈ items ∧ cursor ≤ key x := by
  obtain ⟨rest, -, hperm⟩ := h.first
  have hmem := hperm.mem_iff.mp (List.mem_append_left rest hx)
  rw [List.mem_filter] at hmem
  exact ⟨hmem.1, of_decide_eq_true hmem.2⟩

/-- What lies in front of the next cursor: what lies in front of this one, and the page. -/
theorem before_next (h : IsPage key size items cursor page) (hlast : page.getLast? = some x) :
    (before key items (key x + 1)).Perm (before key items cursor ++ page) := by
  obtain ⟨rest, hsorted, hperm⟩ := h.first
  obtain ⟨ys, rfl⟩ := List.getLast?_eq_some_iff.mp hlast
  have hmem : x ∈ items ∧ cursor ≤ key x := h.mem (by simp)
  obtain ⟨hpage, -, hrest⟩ := List.pairwise_append.mp hsorted
  obtain ⟨-, -, hys⟩ := List.pairwise_append.mp hpage
  -- the items up to the last key of the page, split at the cursor
  have hfront : (before key items (key x + 1)).filter (fun y => key y < cursor)
      = before key items cursor := by
    unfold before
    rw [List.filter_filter]
    apply List.filter_congr
    intro y _
    rw [← Bool.decide_and, decide_eq_decide]
    omega
  have hback : (before key items (key x + 1)).filter (fun y => !decide (key y < cursor))
      = (items.filter fun y => cursor ≤ key y).filter fun y => key y < key x + 1 := by
    unfold before
    rw [List.filter_filter, List.filter_filter]
    apply List.filter_congr
    intro y _
    rw [← decide_not, ← Bool.decide_and, ← Bool.decide_and, decide_eq_decide]
    omega
  have hkeep : ((ys ++ [x]) ++ rest).filter (fun y => key y < key x + 1) = ys ++ [x] := by
    rw [List.filter_append]
    have hall : (ys ++ [x]).filter (fun y => key y < key x + 1) = ys ++ [x] := by
      refine List.filter_eq_self.mpr fun y hy => decide_eq_true ?_
      rcases List.mem_append.mp hy with hy | hy
      · have := hys y hy x (List.mem_singleton.mpr rfl)
        omega
      · rw [List.mem_singleton.mp hy]
        omega
    have hnone : rest.filter (fun y => key y < key x + 1) = [] := by
      apply List.filter_eq_nil_iff.mpr
      intro y hy
      have := hrest x (by simp) y hy
      rw [decide_eq_true_eq]
      omega
    rw [hall, hnone, List.append_nil]
  have hsplit := List.filter_append_perm (fun y => decide (key y < cursor))
    (before key items (key x + 1))
  rw [hfront, hback] at hsplit
  refine hsplit.symm.trans (List.Perm.append_left _ ?_)
  rw [← hkeep]
  exact (hperm.filter _).symm

/-- A page that is not full ends the list. -/
theorem all_of_short (h : IsPage key size items cursor page) (hshort : page.length < size) :
    items.Perm (before key items cursor ++ page) := by
  obtain ⟨rest, -, hperm⟩ := h.first
  have hlength := h.length
  have htotal := hperm.length_eq
  rw [List.length_append] at htotal
  have hrest : rest = [] := List.length_eq_zero_iff.mp (by omega)
  rw [hrest, List.append_nil] at hperm
  have hback : items.filter (fun y => !decide (key y < cursor))
      = items.filter fun y => cursor ≤ key y := by
    apply List.filter_congr
    intro y _
    rw [← decide_not, decide_eq_decide]
    omega
  have hsplit := List.filter_append_perm (fun y => decide (key y < cursor)) items
  rw [hback] at hsplit
  exact hsplit.symm.trans (List.Perm.append_left _ hperm.symm)

end IsPage

/-! ## The retrieval -/

variable (key size) in
/-- After `n` answers the items `got` have been received, and the query with this cursor is
open. -/
inductive Progress (items : List α) : ℕ → List α → Option ℕ → Prop
  | asking {n : ℕ} {got : List α} {cursor : ℕ} (perm : got.Perm (before key items cursor))
      (length : got.length = size * n) : Progress items n got (some cursor)
  | done {n : ℕ} {got : List α} (perm : got.Perm items) (count : n = items.length / size + 1) :
      Progress items n got none

namespace Progress

theorem start : Progress key size items 0 [] (some 0) := by
  refine .asking ?_ rfl
  have hnone : before key items 0 = [] :=
    List.filter_eq_nil_iff.mpr fun x _ => by simp
  rw [hnone]

/-- **One answer.** -/
theorem answer (hsize : 0 < size) (h : Progress key size items n got (some cursor))
    (hpage : IsPage key size items cursor page) :
    Progress key size items (n + 1) (got ++ page) (next key size page) := by
  obtain ⟨hperm, hlength⟩ := h
  unfold next
  by_cases hshort : page.length < size
  · rw [if_pos hshort]
    have hall := (hperm.append_right page).trans (hpage.all_of_short hshort).symm
    refine .done hall ?_
    rw [← hall.length_eq, List.length_append, hlength, Nat.mul_add_div hsize,
      Nat.div_eq_of_lt hshort]
  · rw [if_neg hshort]
    have hfull : page.length = size := by
      have := hpage.length
      omega
    have hne : page ≠ [] := by
      rintro rfl
      rw [List.length_nil] at hfull
      omega
    have hx := List.getLast?_eq_some_getLast hne
    rw [hx, Option.map_some]
    refine .asking ((hperm.append_right page).trans (hpage.before_next hx).symm) ?_
    rw [List.length_append, hlength, hfull, Nat.mul_succ]

/-- A query is open exactly as long as fewer answers have come than there are pages. -/
theorem isSome_iff (hsize : 0 < size) {query : Option ℕ}
    (h : Progress key size items n got query) :
    query.isSome ↔ n < items.length / size + 1 := by
  cases h with
  | asking perm length =>
      have hle : size * n ≤ items.length := by
        rw [← length, perm.length_eq]
        exact List.length_filter_le _ _
      have hdiv : n ≤ items.length / size := (Nat.le_div_iff_mul_le hsize).mpr (by
        rwa [Nat.mul_comm])
      exact iff_of_true rfl (by omega)
  | done perm count => exact iff_of_false (by simp) (by omega)

/-- What has been received are items, each at most once. -/
theorem subperm {query : Option ℕ} (h : Progress key size items n got query) :
    got.Subperm items := by
  cases h with
  | asking perm length => exact ⟨_, perm.symm, List.filter_sublist⟩
  | done perm count => exact perm.subperm

/-- When no query is open, every item has been received. -/
theorem mem_of_none (h : Progress key size items n got none) (hx : x ∈ items) : x ∈ got := by
  cases h with
  | done perm count => exact perm.mem_iff.mpr hx

end Progress

end Paging
