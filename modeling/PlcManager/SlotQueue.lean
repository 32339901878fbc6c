/-
# Queues kept in a table of slots

Entries with a key wait in the slots of a table.  A new entry takes the first free slot,
and an entry is looked for by its key, from the first slot on.  So the table is no queue:
of the entries with one key, it yields the one in the lowest slot, and this is the oldest
one exactly if no later one has been put in front of it.

`History` is what a queue would have: the entries in the order of their arrival.
-/
import Mathlib

namespace SlotQueue

variable {κ ν : Type*}

/-- An entry, and the slot that it is in. -/
structure Entry (κ ν : Type*) where
  slot : ℕ
  key : κ
  value : ν

/-- The first of `n` slots that has a property. -/
def firstSlot (n : ℕ) (p : ℕ → Bool) : Option ℕ := (List.range n).find? p

/-- The waiting entries are those in the slots. -/
structure Holds (n : ℕ) (slots : ℕ → Option (κ × ν)) (waiting : List (Entry κ ν)) : Prop where
  distinct : (waiting.map Entry.slot).Nodup
  inTable : ∀ e ∈ waiting, e.slot < n
  mem_iff : ∀ i < n, ∀ k v, slots i = some (k, v) ↔ ⟨i, k, v⟩ ∈ waiting

/-! ## The table -/

section Table

variable {n i : ℕ} {p : ℕ → Bool} {slots : ℕ → Option (κ × ν)} {waiting : List (Entry κ ν)}
  {e r : Entry κ ν} {k : κ} {v : ν}

theorem firstSlot_eq_some :
    firstSlot n p = some i ↔ p i = true ∧ i < n ∧ ∀ j < i, p j = false := by
  unfold firstSlot
  rw [List.find?_range_eq_some, List.mem_range]
  simp only [Bool.not_eq_true']

theorem Holds.empty (h : ∀ i < n, slots i = none) : Holds n slots [] := by
  refine ⟨List.nodup_nil, fun e he => absurd he List.not_mem_nil, fun i hi k v => ?_⟩
  rw [h i hi]
  exact iff_of_false (by simp) List.not_mem_nil

/-- As long as fewer entries wait than there are slots, one is free. -/
theorem Holds.exists_free (h : Holds n slots waiting) (hlen : waiting.length < n) :
    ∃ i, firstSlot n (fun i => (slots i).isNone) = some i := by
  by_contra hnone
  have hfull : ∀ i < n, i ∈ waiting.map Entry.slot := by
    intro i hi
    have hsome : (slots i).isNone ≠ true := by
      intro hfree
      apply hnone
      apply Option.isSome_iff_exists.mp
      exact List.find?_isSome.mpr ⟨i, List.mem_range.mpr hi, hfree⟩
    cases hslot : slots i with
    | none =>
        rw [hslot] at hsome
        exact absurd rfl hsome
    | some kv => exact List.mem_map.mpr ⟨_, (h.mem_iff i hi kv.1 kv.2).mp hslot, rfl⟩
  have hle := (List.nodup_range.subperm fun i hi => hfull i (List.mem_range.mp hi)).length_le
  rw [List.length_range, List.length_map] at hle
  omega

/-- An entry is put in a free slot. -/
theorem Holds.put (h : Holds n slots waiting) (hi : i < n) (hfree : slots i = none) (k : κ)
    (v : ν) : Holds n (Function.update slots i (some (k, v))) (waiting ++ [⟨i, k, v⟩]) := by
  have hnew : ∀ e ∈ waiting, e.slot ≠ i := by
    rintro ⟨j, k', v'⟩ he rfl
    have hslot := (h.mem_iff j hi k' v').mpr he
    rw [hfree] at hslot
    cases hslot
  refine ⟨?_, ?_, ?_⟩
  · rw [List.map_append, List.nodup_append]
    refine ⟨h.distinct, List.nodup_singleton _, ?_⟩
    rintro j hj j' hj' rfl
    obtain ⟨e, he, rfl⟩ := List.mem_map.mp hj
    exact hnew e he (List.mem_singleton.mp hj')
  · intro e he
    rcases List.mem_append.mp he with he | he
    · exact h.inTable e he
    · rw [List.mem_singleton.mp he]
      exact hi
  · intro j hj k' v'
    rw [List.mem_append, List.mem_singleton]
    by_cases hji : j = i
    · subst hji
      rw [Function.update_self, Option.some_inj, Prod.mk.injEq, Entry.mk.injEq]
      constructor
      · rintro ⟨rfl, rfl⟩
        exact Or.inr ⟨rfl, rfl, rfl⟩
      · rintro (he | ⟨-, rfl, rfl⟩)
        · exact absurd rfl (hnew _ he)
        · exact ⟨rfl, rfl⟩
    · rw [Function.update_of_ne hji, h.mem_iff j hj]
      refine (or_iff_left fun heq => hji ?_).symm
      exact congrArg Entry.slot heq

/-- An entry is taken out of its slot. -/
theorem Holds.take {before behind : List (Entry κ ν)}
    (h : Holds n slots (before ++ e :: behind)) :
    Holds n (Function.update slots e.slot none) (before ++ behind) := by
  have hdistinct := h.distinct
  rw [List.map_append, List.map_cons, List.nodup_middle, List.nodup_cons, ← List.map_append]
    at hdistinct
  have hmem (r : Entry κ ν) : r ∈ before ++ e :: behind ↔ r = e ∨ r ∈ before ++ behind := by
    rw [List.mem_append, List.mem_cons, List.mem_append]
    tauto
  refine ⟨hdistinct.2, fun r hr => h.inTable r ((hmem r).mpr (Or.inr hr)), fun i hi k v => ?_⟩
  by_cases hslot : i = e.slot
  · subst hslot
    rw [Function.update_self]
    refine iff_of_false (by simp) fun hr => hdistinct.1 ?_
    exact List.mem_map.mpr ⟨_, hr, rfl⟩
  · rw [Function.update_of_ne hslot, h.mem_iff i hi, hmem]
    exact or_iff_right fun heq => hslot (congrArg Entry.slot heq)

/-- A key with which an entry waits is found. -/
theorem Holds.exists_firstSlot [DecidableEq κ] (h : Holds n slots waiting) (he : e ∈ waiting) :
    ∃ i, firstSlot n (fun i => ((slots i).map Prod.fst) == some e.key) = some i := by
  apply Option.isSome_iff_exists.mp
  refine List.find?_isSome.mpr ⟨e.slot, List.mem_range.mpr (h.inTable e he), ?_⟩
  rw [(h.mem_iff e.slot (h.inTable e he) e.key e.value).mpr he, Option.map_some]
  exact beq_self_eq_true _

/-- **Which entry is found.**  The first slot with a key is that of an entry `e` exactly if
no entry with this key is in a lower slot. -/
theorem Holds.firstSlot_iff [DecidableEq κ] (h : Holds n slots waiting) (he : e ∈ waiting) :
    firstSlot n (fun i => ((slots i).map Prod.fst) == some e.key) = some e.slot
      ↔ ∀ r ∈ waiting, r.key = e.key → e.slot ≤ r.slot := by
  have hslot (r : Entry κ ν) (hr : r ∈ waiting) : slots r.slot = some (r.key, r.value) :=
    (h.mem_iff r.slot (h.inTable r hr) r.key r.value).mpr hr
  rw [firstSlot_eq_some]
  constructor
  · rintro ⟨-, -, hfirst⟩ r hr hkey
    by_contra hlt
    have hnot := hfirst r.slot (not_le.mp hlt)
    rw [hslot r hr, Option.map_some, hkey, beq_self_eq_true] at hnot
    cases hnot
  · intro hle
    refine ⟨?_, h.inTable e he, fun j hj => ?_⟩
    · rw [hslot e he, Option.map_some]
      exact beq_self_eq_true _
    · by_contra hfound
      rw [Bool.not_eq_false, beq_iff_eq] at hfound
      obtain ⟨⟨k, v⟩, hkv, rfl⟩ := Option.map_eq_some_iff.mp hfound
      have hr := (h.mem_iff j (hj.trans (h.inTable e he)) e.key v).mp hkv
      exact absurd (hle _ hr rfl) (not_le.mpr hj)

end Table

/-! ## The order of arrival -/

/-- The entries that have arrived, the keys that have been answered, and the entries that
wait for an answer. -/
structure History (κ ν : Type*) where
  arrived : List (Entry κ ν)
  answered : List κ
  waiting : List (Entry κ ν)

namespace History

variable [DecidableEq κ] {x : History κ ν} {e : Entry κ ν} {k : κ}

/-- Nothing has arrived. -/
def nil : History κ ν := ⟨[], [], []⟩

/-- An entry arrives. -/
def arrive (x : History κ ν) (e : Entry κ ν) : History κ ν :=
  { x with arrived := x.arrived ++ [e], waiting := x.waiting ++ [e] }

/-- A key is answered, and the oldest entry with this key no longer waits. -/
def answer (x : History κ ν) (k : κ) : History κ ν :=
  { x with answered := x.answered ++ [k], waiting := x.waiting.eraseP (·.key = k) }

/-- The entry that the next answer to a key is for: with as many entries before it as
answers have been given. -/
def next? (x : History κ ν) (k : κ) : Option (Entry κ ν) :=
  (x.arrived.filter (·.key = k))[x.answered.count k]?

/-- Of the entries with a key, those wait that have not been answered. -/
structure Ordered (x : History κ ν) : Prop where
  count_le : ∀ k, x.answered.count k ≤ (x.arrived.filter (·.key = k)).length
  waiting : ∀ k, x.waiting.filter (·.key = k)
    = (x.arrived.filter (·.key = k)).drop (x.answered.count k)

theorem ordered_nil : Ordered (nil : History κ ν) := ⟨fun _ => le_rfl, fun _ => rfl⟩

theorem Ordered.arrive (h : Ordered x) (e : Entry κ ν) : Ordered (x.arrive e) := by
  constructor
  · intro k
    show _ ≤ ((x.arrived ++ [e]).filter _).length
    rw [List.filter_append, List.length_append]
    exact (h.count_le k).trans (Nat.le_add_right _ _)
  · intro k
    unfold History.arrive
    rw [List.filter_append, List.filter_append, List.drop_append_of_le_length (h.count_le k),
      h.waiting k]

/-- The next entry is the first one that waits. -/
theorem Ordered.next?_eq (h : Ordered x) (k : κ) :
    x.next? k = (x.waiting.filter (·.key = k)).head? := by
  unfold next?
  rw [h.waiting k, List.head?_drop]

/-- If an entry with the key waits, the next one can be found, and the others are left. -/
theorem Ordered.exists_next (h : Ordered x) (hk : ∃ e ∈ x.waiting, e.key = k) :
    ∃ e before behind, x.next? k = some e ∧ e.key = k ∧ x.waiting = before ++ e :: behind
      ∧ (x.answer k).waiting = before ++ behind ∧ ∀ r ∈ before, r.key ≠ k := by
  obtain ⟨r, hr, hrk⟩ := hk
  obtain ⟨e, before, behind, hbefore, hek, hsplit, herase⟩ :=
    List.exists_of_eraseP (p := fun e : Entry κ ν => decide (e.key = k)) hr (by simpa using hrk)
  simp only [decide_eq_true_eq] at hbefore hek
  refine ⟨e, before, behind, ?_, hek, hsplit, herase, hbefore⟩
  rw [h.next?_eq, hsplit, List.filter_append, List.filter_cons, if_pos (by simpa using hek),
    List.filter_eq_nil_iff.mpr fun r hr => by simpa using hbefore r hr]
  rfl

theorem Ordered.answer (h : Ordered x) (hk : ∃ e ∈ x.waiting, e.key = k) :
    Ordered (x.answer k) := by
  obtain ⟨e, before, behind, -, hek, hsplit, herase, hbefore⟩ := h.exists_next hk
  have hcount (k' : κ) : (x.answer k).answered.count k'
      = x.answered.count k' + if k = k' then 1 else 0 := by
    show (x.answered ++ [k]).count k' = _
    rw [List.count_append, List.count_singleton]
    simp only [beq_iff_eq]
  have hwaiting (k' : κ) : (x.answer k).waiting.filter (·.key = k')
      = (x.waiting.filter (·.key = k')).drop (if k = k' then 1 else 0) := by
    rw [herase, hsplit, List.filter_append, List.filter_append]
    by_cases hkk : k = k'
    · subst hkk
      rw [if_pos rfl, List.filter_eq_nil_iff.mpr fun r hr => by simpa using hbefore r hr,
        List.filter_cons, if_pos (by simpa using hek)]
      rfl
    · have hne : ¬ e.key = k' := by
        rw [hek]
        exact hkk
      rw [if_neg hkk, List.drop_zero, List.filter_cons, if_neg (by simpa using hne)]
  constructor
  · intro k'
    show _ ≤ (x.arrived.filter (·.key = k')).length
    rw [hcount]
    by_cases hkk : k = k'
    · subst hkk
      have hlen := congrArg List.length (h.waiting k)
      have hpos : 0 < (x.waiting.filter (·.key = k)).length := by
        apply List.length_pos_of_mem
        exact List.mem_filter.mpr ⟨hsplit ▸ List.mem_append_right _ List.mem_cons_self,
          by simpa using hek⟩
      rw [List.length_drop] at hlen
      rw [if_pos rfl]
      omega
    · rw [if_neg hkk]
      exact h.count_le k'
  · intro k'
    show _ = (x.arrived.filter (·.key = k')).drop _
    rw [hwaiting, h.waiting, List.drop_drop, hcount]

end History

end SlotQueue
