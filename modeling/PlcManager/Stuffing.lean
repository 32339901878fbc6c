/-
# Byte stuffing and delimited streams

A message is put on a line between two marks.  Inside, a mark or an escape symbol
is replaced by the escape symbol and a substitute, so that a mark on the line
always is a delimiter.

The alphabet is arbitrary: an `Escapes α` names the four symbols and carries the
facts that make the scheme work.  The second half of the module is about streams
of delimited messages that are seen prefix by prefix.
-/
import Mathlib

/-- The symbols of a stuffing scheme. -/
structure Escapes (α : Type*) where
  /-- The delimiter. -/
  mark : α
  /-- The escape symbol. -/
  esc : α
  /-- What follows the escape symbol in place of the delimiter. -/
  markSub : α
  /-- What follows the escape symbol in place of the escape symbol. -/
  escSub : α
  mark_ne_esc : mark ≠ esc
  markSub_ne_mark : markSub ≠ mark
  escSub_ne_mark : escSub ≠ mark
  escSub_ne_markSub : escSub ≠ markSub

namespace Escapes

variable {α : Type*} [DecidableEq α] (e : Escapes α)

/-! ## Stuffing and its inverse -/

/-- Replace marks and escape symbols by their two-symbol forms. -/
def stuff : List α → List α
  | [] => []
  | b :: bs =>
      if b = e.mark then e.esc :: e.markSub :: stuff bs
      else if b = e.esc then e.esc :: e.escSub :: stuff bs
      else b :: stuff bs

/-- Undo `stuff`; an escape symbol must be followed by one of the substitutes. -/
def unstuff : List α → Option (List α)
  | [] => some []
  | [b] => if b = e.esc then none else some [b]
  | b :: b' :: bs =>
      if b = e.esc then
        if b' = e.markSub then (unstuff bs).map (e.mark :: ·)
        else if b' = e.escSub then (unstuff bs).map (e.esc :: ·)
        else none
      else (unstuff (b' :: bs)).map (b :: ·)

/-- The symbols that need an escape. -/
def Special (b : α) : Prop := b = e.mark ∨ b = e.esc

instance (b : α) : Decidable (e.Special b) := inferInstanceAs (Decidable (_ ∨ _))

/-- The substitute of a symbol that needs an escape. -/
def sub (b : α) : α := if b = e.mark then e.markSub else e.escSub

@[simp] theorem stuff_nil : e.stuff [] = [] := rfl

theorem stuff_cons_of_special {b : α} (h : e.Special b) (bs : List α) :
    e.stuff (b :: bs) = e.esc :: e.sub b :: e.stuff bs := by
  rcases h with rfl | rfl
  · simp [stuff, sub]
  · simp [stuff, sub, e.mark_ne_esc.symm]

theorem stuff_cons_of_not_special {b : α} (h : ¬ e.Special b) (bs : List α) :
    e.stuff (b :: bs) = b :: e.stuff bs := by
  unfold Special at h
  push Not at h
  rw [stuff, if_neg h.1, if_neg h.2]

theorem stuff_append (xs ys : List α) : e.stuff (xs ++ ys) = e.stuff xs ++ e.stuff ys := by
  induction xs with
  | nil => rfl
  | cons b bs ih =>
      by_cases h : e.Special b
      · rw [List.cons_append, e.stuff_cons_of_special h, e.stuff_cons_of_special h, ih]
        rfl
      · rw [List.cons_append, e.stuff_cons_of_not_special h, e.stuff_cons_of_not_special h, ih]
        rfl

/-- A list without special symbols is left alone. -/
theorem stuff_eq_self {xs : List α} (h : ∀ b ∈ xs, ¬ e.Special b) : e.stuff xs = xs := by
  induction xs with
  | nil => rfl
  | cons b bs ih =>
      rw [e.stuff_cons_of_not_special (h b (by simp)), ih fun c hc => h c (by simp [hc])]

/-- Every escape makes the text one symbol longer. -/
theorem length_stuff (xs : List α) :
    (e.stuff xs).length = xs.length + xs.countP (fun b => e.Special b) := by
  induction xs with
  | nil => rfl
  | cons b bs ih =>
      by_cases h : e.Special b
      · rw [e.stuff_cons_of_special h, List.countP_cons_of_pos (by simpa using h)]
        simp only [List.length_cons]
        omega
      · rw [e.stuff_cons_of_not_special h, List.countP_cons_of_neg (by simpa using h)]
        simp only [List.length_cons]
        omega

theorem length_le_length_stuff (xs : List α) : xs.length ≤ (e.stuff xs).length := by
  rw [length_stuff]
  omega

/-- **A stuffed text holds no mark.** -/
theorem mark_not_mem_stuff (xs : List α) : e.mark ∉ e.stuff xs := by
  induction xs with
  | nil => simp
  | cons b bs ih =>
      by_cases h : e.Special b
      · have hs : e.mark ≠ e.sub b := by
          unfold sub
          split_ifs
          · exact e.markSub_ne_mark.symm
          · exact e.escSub_ne_mark.symm
        rw [e.stuff_cons_of_special h]
        simp [ih, e.mark_ne_esc, hs]
      · rw [e.stuff_cons_of_not_special h]
        unfold Special at h
        push Not at h
        simp [ih, h.1.symm]

theorem unstuff_cons_of_ne {b : α} (h : b ≠ e.esc) (bs : List α) :
    e.unstuff (b :: bs) = (e.unstuff bs).map (b :: ·) := by
  cases bs with
  | nil => simp [unstuff, h]
  | cons b' bs => simp [unstuff, h]

theorem unstuff_cons_sub {b : α} (h : e.Special b) (bs : List α) :
    e.unstuff (e.esc :: e.sub b :: bs) = (e.unstuff bs).map (b :: ·) := by
  rcases h with rfl | rfl
  · simp [unstuff, sub]
  · simp [unstuff, sub, e.mark_ne_esc.symm, e.escSub_ne_markSub]

/-- **Round trip.** -/
@[simp] theorem unstuff_stuff (xs : List α) : e.unstuff (e.stuff xs) = some xs := by
  induction xs with
  | nil => rfl
  | cons b bs ih =>
      by_cases h : e.Special b
      · rw [e.stuff_cons_of_special h, e.unstuff_cons_sub h, ih]
        rfl
      · have hb : b ≠ e.esc := fun hc => h (Or.inr hc)
        rw [e.stuff_cons_of_not_special h, e.unstuff_cons_of_ne hb, ih]
        rfl

/-! ## Delimited messages -/

/-- A text between two marks. -/
def delimit (c : List α) : List α := e.mark :: c ++ [e.mark]

omit [DecidableEq α] in
@[simp] theorem length_delimit (c : List α) : (e.delimit c).length = c.length + 2 := by
  simp [delimit]

/-- The stream of a list of texts, each between its own two marks. -/
def stream (cs : List (List α)) : List α := (cs.map e.delimit).flatten

omit [DecidableEq α] in
@[simp] theorem stream_nil : e.stream [] = [] := rfl

omit [DecidableEq α] in
theorem stream_cons (c : List α) (cs : List (List α)) :
    e.stream (c :: cs) = e.mark :: (c ++ e.mark :: e.stream cs) := by
  simp [stream, delimit]

omit [DecidableEq α] in
theorem stream_append (cs ds : List (List α)) :
    e.stream (cs ++ ds) = e.stream cs ++ e.stream ds := by
  simp [stream]

omit [DecidableEq α] in
theorem count_mark_stream [BEq α] [LawfulBEq α] {cs : List (List α)}
    (hcs : ∀ c ∈ cs, e.mark ∉ c) : (e.stream cs).count e.mark = 2 * cs.length := by
  induction cs with
  | nil => rfl
  | cons c cs ih =>
      rw [stream_cons, List.count_cons_self, List.count_append, List.count_cons_self,
        List.count_eq_zero_of_not_mem (hcs c (by simp)), ih fun d hd => hcs d (by simp [hd]),
        List.length_cons]
      omega

end Escapes

/-! ## Streams seen prefix by prefix -/

section Prefixes

variable {α : Type*} {m : α} {p q g g' c r t : List α}

/-- A prefix without a mark stops before the text's first mark. -/
theorem exists_append_of_not_mem (h : p ++ q = c ++ m :: t) (hp : m ∉ p) :
    ∃ d, c = p ++ d ∧ q = d ++ m :: t := by
  rcases List.append_eq_append_iff.mp h with ⟨d, hd, hq⟩ | ⟨d, hd, hq⟩
  · exact ⟨d, hd, hq⟩
  · cases d with
    | nil => exact ⟨[], by simpa using hd.symm, by simpa using hq.symm⟩
    | cons x d =>
        obtain ⟨rfl, -⟩ := List.cons_eq_cons.mp (by simpa using hq)
        exact absurd (by simp [hd]) hp

/-- The first mark of a text is where it is. -/
theorem append_mark_inj (h : g ++ m :: r = g' ++ m :: t) (hg : m ∉ g) (hg' : m ∉ g') :
    g = g' ∧ r = t := by
  obtain ⟨d, hd, hr⟩ := exists_append_of_not_mem h hg
  cases d with
  | nil => exact ⟨by simpa using hd.symm, by simpa using hr⟩
  | cons x d =>
      obtain ⟨rfl, -⟩ := List.cons_eq_cons.mp (by simpa using hr)
      exact absurd (by simp [hd]) hg'

/-- A prefix of a text that has a mark of its own reaches past the text's first
mark. -/
theorem append_append_mark_inj (h : (g ++ m :: r) ++ q = c ++ m :: t) (hg : m ∉ g) (hc : m ∉ c) :
    g = c ∧ r ++ q = t := by
  rw [List.append_assoc, List.cons_append] at h
  exact append_mark_inj h hg hc

end Prefixes

namespace Escapes

variable {α : Type*} (e : Escapes α) {g c c₀ p q r t : List α} {cs : List (List α)}

/-- A prefix of a stream without a mark is empty. -/
theorem nil_of_stream_append (h : p ++ q = e.stream cs) (hp : e.mark ∉ p) : p = [] := by
  cases p with
  | nil => rfl
  | cons x p =>
      cases cs with
      | nil => simp at h
      | cons c cs =>
          rw [stream_cons, List.cons_append] at h
          obtain ⟨rfl, -⟩ := List.cons_eq_cons.mp h
          exact absurd (by simp) hp

/-- A prefix of a stream that has begun begins with a mark. -/
theorem head_of_stream_append (h : p ++ q = e.stream cs) : ∀ x ∈ p.head?, x = e.mark := by
  cases p with
  | nil => simp
  | cons x p =>
      cases cs with
      | nil => simp at h
      | cons c cs =>
          rw [stream_cons, List.cons_append] at h
          obtain ⟨rfl, -⟩ := List.cons_eq_cons.mp h
          simp

/-- **First pair of marks.**  Where a prefix of a stream has two marks, the first two
are those of the first text. -/
theorem stream_split (h : (g ++ e.mark :: (c ++ e.mark :: r)) ++ q = e.stream cs)
    (hg : e.mark ∉ g) (hc : e.mark ∉ c) (hcs : ∀ d ∈ cs, e.mark ∉ d) :
    ∃ cs', cs = c :: cs' ∧ g = [] ∧ r ++ q = e.stream cs' := by
  cases cs with
  | nil => simp at h
  | cons d cs =>
      rw [stream_cons] at h
      obtain ⟨rfl, h2⟩ := append_append_mark_inj (c := []) h hg (by simp)
      obtain ⟨rfl, h3⟩ := append_append_mark_inj h2 hc (hcs d (by simp))
      exact ⟨cs, rfl, rfl, h3⟩

end Escapes
