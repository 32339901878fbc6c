/-
# Tables of slots

A table of a fixed number of slots, of which some are free.  A value is put in the first
free slot, and taken out of the first slot it is in.  What the table holds is the list
`used`; putting adds to it and taking erases from it.
-/
import Mathlib

namespace SlotTable

variable {α : Type*} [DecidableEq α]

/-- The values in the slots that are not free. -/
def used (free : α) (slots : List α) : List α := slots.filter (· ≠ free)

/-- A value is put in the first free slot. -/
def put (free x : α) (slots : List α) : List α := slots.replace free x

/-- A value is taken out. -/
def take (free x : α) (slots : List α) : List α := slots.replace x free

section Lemmas

variable {free x y : α} {slots : List α}

theorem mem_used : y ∈ used free slots ↔ y ∈ slots ∧ y ≠ free := by
  unfold used
  rw [List.mem_filter, decide_eq_true_iff]

theorem used_cons_free : used free (free :: slots) = used free slots := by
  unfold used
  rw [List.filter_cons, if_neg (by simp)]

theorem used_cons_of_ne (h : y ≠ free) : used free (y :: slots) = y :: used free slots := by
  unfold used
  rw [List.filter_cons, if_pos (by simpa using h)]

@[simp] theorem length_put : (put free x slots).length = slots.length := List.length_replace

@[simp] theorem length_take : (take free x slots).length = slots.length := List.length_replace

/-- A full table stays as it is. -/
theorem put_of_full (h : free ∉ slots) : put free x slots = slots :=
  List.replace_of_not_mem h

theorem take_of_not_mem (h : x ∉ slots) : take free x slots = slots :=
  List.replace_of_not_mem h

/-- Putting nothing changes nothing. -/
theorem put_free : put free free slots = slots := by
  induction slots with
  | nil => rfl
  | cons y slots ih =>
      by_cases hy : y = free
      · subst hy
        exact List.replace_cons_self
      · unfold put at ih ⊢
        rw [List.replace_cons, beq_eq_false_iff_ne.mpr (Ne.symm hy), ih]

theorem put_cons_free : put free x (free :: slots) = x :: slots := List.replace_cons_self

theorem put_cons_of_ne (h : y ≠ free) : put free x (y :: slots) = y :: put free x slots := by
  unfold put
  rw [List.replace_cons, beq_eq_false_iff_ne.mpr (Ne.symm h)]

theorem take_cons_self : take free x (x :: slots) = free :: slots := List.replace_cons_self

theorem take_cons_of_ne (h : y ≠ x) : take free x (y :: slots) = y :: take free x slots := by
  unfold take
  rw [List.replace_cons, beq_eq_false_iff_ne.mpr (Ne.symm h)]

/-- What has been put is used as well. -/
theorem used_put (hx : x ≠ free) (hfree : free ∈ slots) :
    (used free (put free x slots)).Perm (x :: used free slots) := by
  induction slots with
  | nil => exact absurd hfree List.not_mem_nil
  | cons y slots ih =>
      by_cases hy : y = free
      · subst hy
        rw [put_cons_free, used_cons_free, used_cons_of_ne hx]
      · have hrest : free ∈ slots := (List.mem_cons.mp hfree).resolve_left (Ne.symm hy)
        rw [put_cons_of_ne hy, used_cons_of_ne hy, used_cons_of_ne hy]
        exact ((ih hrest).cons y).trans (List.Perm.swap x y _)

/-- What has been taken out is not used once more. -/
theorem used_take (hx : x ≠ free) : used free (take free x slots) = (used free slots).erase x := by
  induction slots with
  | nil => rfl
  | cons y slots ih =>
      by_cases hyx : y = x
      · subst hyx
        rw [take_cons_self, used_cons_free, used_cons_of_ne hx, List.erase_cons_head]
      · rw [take_cons_of_ne hyx]
        by_cases hy : y = free
        · subst hy
          rw [used_cons_free, used_cons_free, ih]
        · rw [used_cons_of_ne hy, used_cons_of_ne hy, ih, List.erase_cons_tail]
          rwa [beq_iff_eq]

theorem mem_put (hx : x ≠ free) (hy : y ≠ free) :
    y ∈ put free x slots ↔ y ∈ slots ∨ y = x ∧ free ∈ slots := by
  by_cases hfree : free ∈ slots
  · have hused : y ∈ used free (put free x slots) ↔ y = x ∨ y ∈ used free slots := by
      rw [(used_put hx hfree).mem_iff, List.mem_cons]
    rw [mem_used, mem_used, and_iff_left hy, and_iff_left hy] at hused
    rw [hused, or_comm, and_iff_left hfree]
  · rw [put_of_full hfree]
    exact (or_iff_left fun h => hfree h.2).symm

theorem mem_take (hdistinct : (used free slots).Nodup) (hx : x ≠ free) (hy : y ≠ free) :
    y ∈ take free x slots ↔ y ∈ slots ∧ y ≠ x := by
  have hused : y ∈ used free (take free x slots) ↔ y ≠ x ∧ y ∈ used free slots := by
    rw [used_take hx, hdistinct.mem_erase_iff]
  rw [mem_used, mem_used, and_iff_left hy, and_iff_left hy] at hused
  rw [hused, and_comm]

/-- A new value keeps the values distinct. -/
theorem nodup_put (hdistinct : (used free slots).Nodup) (hx : x ∉ slots) :
    (used free (put free x slots)).Nodup := by
  by_cases hfree : free ∈ slots
  · have hne : x ≠ free := by
      rintro rfl
      exact hx hfree
    rw [(used_put hne hfree).nodup_iff, List.nodup_cons]
    exact ⟨fun h => hx (mem_used.mp h).1, hdistinct⟩
  · rwa [put_of_full hfree]

theorem nodup_take (hdistinct : (used free slots).Nodup) (hx : x ≠ free) :
    (used free (take free x slots)).Nodup := by
  rw [used_take hx]
  exact hdistinct.erase x

/-- A value that is not free is used as often as it is in the slots. -/
theorem count_used (hy : y ≠ free) : (used free slots).count y = slots.count y := by
  unfold used
  exact List.count_filter (by simpa using hy)

theorem count_put (hx : x ≠ free) (hy : y ≠ free) (hfree : free ∈ slots) :
    (put free x slots).count y = slots.count y + if y = x then 1 else 0 := by
  rw [← count_used hy, (used_put hx hfree).count_eq, List.count_cons, count_used hy]
  simp only [beq_iff_eq, @eq_comm _ x y]

theorem count_take (hy : y ≠ free) :
    (take free x slots).count y = slots.count y - if y = x then 1 else 0 := by
  by_cases hx : x = free
  · have hsame : take free x slots = slots := by
      rw [hx]
      exact put_free
    rw [hsame, if_neg (by rwa [hx]), Nat.sub_zero]
  · rw [← count_used hy, used_take hx, List.count_erase, count_used hy]
    simp only [beq_iff_eq, @eq_comm _ x y]

end Lemmas

end SlotTable
