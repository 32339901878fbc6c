/-
# Linked queues

A queue in a heap of linked cells: the queue itself is the addresses of its first and
its last cell, and every cell has a link to the next one.  `Holds link q ps` says that
the queue `q` consists of the cells `ps`, in this order.

`put` adds a cell at the end and writes two links, `get` takes the first cell and
writes none.  Each has a lemma for the queue it is applied to and a frame lemma for a
queue over other cells of the same heap.  Addresses are of any type, the null pointer
is `none`.
-/
import Mathlib

/-- A queue: the addresses of its first and its last cell. -/
structure LinkedQueue (ι : Type*) where
  /-- The first cell. -/
  head : Option ι
  /-- The last cell. -/
  tail : Option ι

namespace LinkedQueue

variable {ι : Type*}

/-! ## Chains of links -/

/-- The links from `h` on lead through the cells `ps` and end there. -/
def Chain (link : ι → Option ι) : Option ι → List ι → Prop
  | h, [] => h = none
  | h, p :: ps => h = some p ∧ Chain link (link p) ps

/-- The first `n` cells that the links lead to. -/
def walk (link : ι → Option ι) : ℕ → Option ι → List ι
  | 0, _ => []
  | _ + 1, none => []
  | n + 1, some p => p :: walk link n (link p)

section Chain

variable {link link' : ι → Option ι} {h : Option ι} {p t : ι} {ps : List ι}

/-- A chain depends on the links of its own cells only. -/
theorem Chain.congr (hc : Chain link h ps) (hlink : ∀ p ∈ ps, link' p = link p) :
    Chain link' h ps := by
  induction ps generalizing h with
  | nil => exact hc
  | cons a ps ih =>
      refine ⟨hc.1, ?_⟩
      rw [hlink a (by simp)]
      exact ih hc.2 fun p hp => hlink p (by simp [hp])

theorem Chain.eq_none_iff (hc : Chain link h ps) : h = none ↔ ps = [] := by
  cases ps with
  | nil => exact iff_of_true hc rfl
  | cons a ps => simp [hc.1]

/-- Walking a chain gives its cells. -/
theorem Chain.walk_eq (hc : Chain link h ps) : walk link ps.length h = ps := by
  induction ps generalizing h with
  | nil => rfl
  | cons a ps ih =>
      obtain ⟨rfl, htl⟩ := hc
      rw [List.length_cons, walk, ih htl]

variable [DecidableEq ι]

/-- A new last cell: the old last cell is linked to it. -/
theorem Chain.concat (hc : Chain link h ps) (ht : ps.getLast? = some t)
    (hnd : (ps ++ [p]).Nodup) :
    Chain (Function.update (Function.update link p none) t (some p)) h (ps ++ [p]) := by
  induction ps generalizing h with
  | nil => simp at ht
  | cons a ps ih =>
      rw [List.cons_append, List.nodup_cons] at hnd
      have hap : a ≠ p := fun heq => hnd.1 (by simp [heq])
      cases ps with
      | nil =>
          obtain rfl : a = t := by simpa using ht
          refine ⟨hc.1, Function.update_self .., ?_⟩
          rw [Function.update_of_ne hap.symm]
          exact Function.update_self ..
      | cons b ps =>
          rw [List.getLast?_cons_cons] at ht
          -- the first cell is not the last one, as there are two and no repetition
          have hat : a ≠ t := by
            rintro rfl
            exact hnd.1 (List.mem_append_left _ (List.mem_of_getLast? ht))
          refine ⟨hc.1, ?_⟩
          rw [Function.update_of_ne hat, Function.update_of_ne hap]
          exact ih hc.2 ht hnd.2

end Chain

/-! ## Queues -/

/-- The queue `q` consists of the cells `ps`. -/
structure Holds (link : ι → Option ι) (q : LinkedQueue ι) (ps : List ι) : Prop where
  chain : Chain link q.head ps
  tail_eq : q.tail = ps.getLast?

/-- Add the cell `p` at the end. -/
def put (q : LinkedQueue ι) (p : ι) : LinkedQueue ι :=
  ⟨if q.tail.isSome then q.head else some p, some p⟩

/-- The links after `p` was added to `q`. -/
def putLink [DecidableEq ι] (link : ι → Option ι) (q : LinkedQueue ι) (p : ι) : ι → Option ι :=
  match q.tail with
  | none => Function.update link p none
  | some t => Function.update (Function.update link p none) t (some p)

/-- The queue without its first cell. -/
def get (link : ι → Option ι) (q : LinkedQueue ι) : LinkedQueue ι :=
  match q.head with
  | none => ⟨none, none⟩
  | some p => ⟨link p, if (link p).isSome then q.tail else none⟩

section Queue

variable {link link' : ι → Option ι} {q : LinkedQueue ι} {p : ι} {ps qs : List ι}

/-- An empty queue. -/
theorem holds_empty (link : ι → Option ι) : Holds link ⟨none, none⟩ [] := ⟨rfl, rfl⟩

theorem Holds.congr (hq : Holds link q ps) (hlink : ∀ p ∈ ps, link' p = link p) :
    Holds link' q ps :=
  ⟨hq.chain.congr hlink, hq.tail_eq⟩

theorem Holds.head_eq_none_iff (hq : Holds link q ps) : q.head = none ↔ ps = [] :=
  hq.chain.eq_none_iff

theorem Holds.tail_eq_none_iff (hq : Holds link q ps) : q.tail = none ↔ ps = [] := by
  rw [hq.tail_eq, List.getLast?_eq_none_iff]

/-- Taking the first cell leaves the others. -/
theorem Holds.get (hq : Holds link q (p :: ps)) : Holds link (q.get link) ps := by
  obtain ⟨hhead, htl⟩ := hq.chain
  have hq' : q.get link = ⟨link p, if (link p).isSome then q.tail else none⟩ := by
    rw [LinkedQueue.get, hhead]
  rw [hq']
  refine ⟨htl, ?_⟩
  cases ps with
  | nil =>
      rw [show link p = none from htl]
      rfl
  | cons b ps =>
      rw [htl.1, hq.tail_eq, List.getLast?_cons_cons]
      rfl

variable [DecidableEq ι]

/-- Adding a cell. -/
theorem Holds.put (hq : Holds link q ps) (hnd : (ps ++ [p]).Nodup) :
    Holds (putLink link q p) (q.put p) (ps ++ [p]) := by
  refine ⟨?_, by simp [LinkedQueue.put]⟩
  cases ht : q.tail with
  | none =>
      obtain rfl : ps = [] := hq.tail_eq_none_iff.mp ht
      rw [putLink, LinkedQueue.put, ht]
      exact ⟨rfl, Function.update_self ..⟩
  | some t =>
      rw [putLink, LinkedQueue.put, ht]
      exact hq.chain.concat (hq.tail_eq.symm.trans ht) hnd

/-- Adding a cell to `q` writes the links of that cell and of the last cell of `q`. -/
theorem putLink_of_ne {x : ι} (hq : Holds link q ps) (hp : x ≠ p) (hx : x ∉ ps) :
    putLink link q p x = link x := by
  cases ht : q.tail with
  | none => simp only [putLink, ht, Function.update_of_ne hp]
  | some t =>
      have hne : x ≠ t := by
        rintro rfl
        exact hx (List.mem_of_getLast? (hq.tail_eq.symm.trans ht))
      simp only [putLink, ht, Function.update_of_ne hne, Function.update_of_ne hp]

/-- A queue over other cells is not touched. -/
theorem Holds.frame_put {r : LinkedQueue ι} (hr : Holds link r qs) (hq : Holds link q ps)
    (hp : p ∉ qs) (hdisj : ∀ x ∈ qs, x ∉ ps) : Holds (putLink link q p) r qs :=
  hr.congr fun x hx => putLink_of_ne hq (fun heq => hp (heq ▸ hx)) (hdisj x hx)

end Queue

end LinkedQueue
