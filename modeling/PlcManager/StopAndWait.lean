/-
# Stop and wait

What a sender with one open request is for.  Messages are accepted in some order and
wait; the first one waiting has been requested, the others have not.  When the first
one leaves, because it was confirmed or given up, the next one is requested.

`InOrder accepted o` is the law of such a sender: the messages that have left, and then
the first one waiting, are what was requested, each once and in the order in which they
were accepted.
-/
import Mathlib

/-- A sender with at most one open request. -/
structure Outbox (ρ : Type*) where
  /-- The messages that have been accepted and have not left. -/
  waiting : List ρ
  /-- The requests made so far. -/
  requested : List ρ

namespace Outbox

variable {ρ : Type*}

/-- Nothing has happened. -/
def empty : Outbox ρ := ⟨[], []⟩

/-- A message is accepted; it is requested at once if no other one is waiting. -/
def accept (o : Outbox ρ) (r : ρ) : Outbox ρ :=
  ⟨o.waiting ++ [r], if o.waiting.isEmpty then o.requested ++ [r] else o.requested⟩

/-- The first message leaves, and the next one is requested. -/
def remove (o : Outbox ρ) : Outbox ρ :=
  ⟨o.waiting.tail, o.requested ++ o.waiting.tail.head?.toList⟩

/-- The messages `gone` have left, in order, and were requested, as was the first one
waiting, and no other. -/
def InOrder (accepted : List ρ) (o : Outbox ρ) : Prop :=
  ∃ gone, accepted = gone ++ o.waiting ∧ o.requested = gone ++ o.waiting.head?.toList

section InOrder

variable {accepted : List ρ} {o : Outbox ρ}

theorem inOrder_empty : InOrder ([] : List ρ) empty := ⟨[], rfl, rfl⟩

theorem InOrder.accept (h : InOrder accepted o) (r : ρ) :
    InOrder (accepted ++ [r]) (o.accept r) := by
  obtain ⟨gone, hacc, hreq⟩ := h
  refine ⟨gone, by rw [hacc, List.append_assoc]; rfl, ?_⟩
  cases hw : o.waiting with
  | nil =>
      rw [hw] at hreq
      simp [Outbox.accept, hw, hreq]
  | cons w ws =>
      rw [hw] at hreq
      simp [Outbox.accept, hw, hreq]

theorem InOrder.remove (h : InOrder accepted o) (hne : o.waiting ≠ []) :
    InOrder accepted o.remove := by
  obtain ⟨gone, hacc, hreq⟩ := h
  obtain ⟨w, ws, hw⟩ := List.exists_cons_of_ne_nil hne
  rw [hw] at hacc hreq
  refine ⟨gone ++ [w], ?_, ?_⟩
  · rw [hacc, Outbox.remove, hw, List.append_assoc]
    rfl
  · rw [Outbox.remove, hw, hreq]
    rfl

/-- The requests are the first messages that were accepted. -/
theorem InOrder.requested_isPrefix (h : InOrder accepted o) : o.requested <+: accepted := by
  obtain ⟨gone, hacc, hreq⟩ := h
  rw [hacc, hreq]
  apply (List.prefix_append_right_inj gone).mpr
  cases o.waiting with
  | nil => exact List.prefix_rfl
  | cons w ws => exact ⟨ws, rfl⟩

/-- At most one request belongs to a message that has not left. -/
theorem InOrder.length_requested (h : InOrder accepted o) :
    o.requested.length + o.waiting.length = accepted.length + min o.waiting.length 1 := by
  obtain ⟨gone, hacc, hreq⟩ := h
  rw [hacc, hreq]
  cases o.waiting with
  | nil => simp
  | cons w ws =>
      simp only [List.head?_cons, Option.toList_some, List.length_append, List.length_cons,
        List.length_nil]
      omega

/-- What has been requested or waits is what was accepted. -/
theorem InOrder.mem_iff (h : InOrder accepted o) {r : ρ} :
    r ∈ o.requested ∨ r ∈ o.waiting ↔ r ∈ accepted := by
  obtain ⟨gone, hacc, hreq⟩ := h
  rw [hacc, hreq, List.mem_append, List.mem_append]
  cases o.waiting with
  | nil => simp
  | cons w ws =>
      rw [List.head?_cons, Option.toList_some, List.mem_singleton, List.mem_cons]
      tauto

end InOrder

end Outbox
