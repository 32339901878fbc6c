/-
# Which texts are decoded

Between two marks every escape mark should be followed by one of the two substitutes.
`_decode_copy` starts on the opening mark and stops in front of the last byte, so it
decodes such texts, refuses an escape mark with anything else behind it, and takes over an
escape mark in last place as it is.
-/
import PlcManager.UsiDecoder

namespace Usi

/-! ## The grammar -/

/-- Every escape mark is followed by one of the substitutes. -/
def WellEscaped (xs : List UInt8) : Prop :=
  ∀ i, xs[i]? = some escMark → xs[i + 1]? = some escMsgMark ∨ xs[i + 1]? = some escEscMark

/-- A text of the grammar and an escape mark behind it. -/
def Dangling (c : List UInt8) : Prop := ∃ w, WellEscaped w ∧ c = w ++ [escMark]

section Grammar

variable {b b' : UInt8} {bs c w ys : List UInt8}

theorem wellEscaped_nil : WellEscaped [] := by
  intro i hi
  rw [List.getElem?_nil] at hi
  cases hi

theorem wellEscaped_cons_of_ne (hb : b ≠ escMark) : WellEscaped (b :: bs) ↔ WellEscaped bs := by
  constructor
  · intro h i hi
    exact h (i + 1) hi
  · intro h i hi
    cases i with
    | zero => exact absurd (Option.some.inj hi) hb
    | succ i => exact h i hi

/-- No substitute is an escape mark. -/
theorem wellEscaped_pair : WellEscaped (escMark :: b' :: bs)
    ↔ (b' = escMsgMark ∨ b' = escEscMark) ∧ WellEscaped bs := by
  have hne (h : b' = escMsgMark ∨ b' = escEscMark) : b' ≠ escMark := by
    rcases h with rfl | rfl <;> decide
  constructor
  · intro h
    have hsub : b' = escMsgMark ∨ b' = escEscMark :=
      (h 0 rfl).imp Option.some.inj Option.some.inj
    refine ⟨hsub, (wellEscaped_cons_of_ne (hne hsub)).mp fun i hi => ?_⟩
    exact h (i + 1) hi
  · rintro ⟨hsub, hbs⟩ i hi
    cases i with
    | zero => exact hsub.imp (congrArg some) (congrArg some)
    | succ i => exact (wellEscaped_cons_of_ne (hne hsub)).mpr hbs i hi

theorem not_wellEscaped_append : ¬ WellEscaped (w ++ [escMark]) := by
  intro h
  have hlast := h w.length (by simp)
  simp at hlast

/-- The texts of the grammar are those that stuffing can be undone of. -/
theorem wellEscaped_iff : WellEscaped c ↔ ∃ ys, usiEscapes.unstuff c = some ys := by
  induction c using unescape.induct with
  | case1 => exact iff_of_true wellEscaped_nil ⟨[], rfl⟩
  | case2 b =>
      by_cases hb : b = escMark
      · subst hb
        apply iff_of_false (not_wellEscaped_append (w := []))
        rintro ⟨ys, hys⟩
        cases hys
      · rw [wellEscaped_cons_of_ne hb, usiEscapes.unstuff_cons_of_ne hb]
        exact iff_of_true wellEscaped_nil ⟨_, rfl⟩
  | case3 bs ih =>
      rw [wellEscaped_pair, unstuff_usi, if_pos rfl, if_pos rfl, and_iff_right (.inl rfl), ih]
      simp
  | case4 bs hne ih =>
      rw [wellEscaped_pair, unstuff_usi, if_pos rfl, if_neg hne, if_pos rfl,
        and_iff_right (.inr rfl), ih]
      simp
  | case5 b' bs h1 h2 =>
      rw [wellEscaped_pair, unstuff_usi, if_pos rfl, if_neg h1, if_neg h2]
      apply iff_of_false (fun h => h.1.elim h1 h2)
      rintro ⟨ys, hys⟩
      cases hys
  | case6 b b' bs hb ih =>
      rw [wellEscaped_cons_of_ne hb, unstuff_usi, if_neg hb, ih]
      simp

/-! ## What the decoder makes of it -/

theorem Dangling.cons (hb : b ≠ escMark) (h : Dangling bs) : Dangling (b :: bs) := by
  obtain ⟨w, hw, rfl⟩ := h
  exact ⟨b :: w, (wellEscaped_cons_of_ne hb).mpr hw, rfl⟩

theorem Dangling.pair (hsub : b' = escMsgMark ∨ b' = escEscMark) (h : Dangling bs) :
    Dangling (escMark :: b' :: bs) := by
  obtain ⟨w, hw, rfl⟩ := h
  exact ⟨escMark :: b' :: w, wellEscaped_pair.mpr ⟨hsub, hw⟩, rfl⟩

/-- Without an escape mark in last place the decoder undoes the stuffing. -/
theorem unescape_of_not_dangling (h : ¬ Dangling c) : unescape c = usiEscapes.unstuff c := by
  induction c using unescape.induct with
  | case1 => rfl
  | case2 b =>
      have hb : b ≠ escMark := by
        rintro rfl
        exact h ⟨[], wellEscaped_nil, rfl⟩
      rw [usiEscapes.unstuff_cons_of_ne hb]
      rfl
  | case3 bs ih =>
      rw [unescape, unstuff_usi, if_pos rfl, if_pos rfl, if_pos rfl, if_pos rfl,
        ih fun hbs => h (hbs.pair (.inl rfl))]
  | case4 bs hne ih =>
      rw [unescape, unstuff_usi, if_pos rfl, if_pos rfl, if_neg hne, if_neg hne, if_pos rfl,
        if_pos rfl, ih fun hbs => h (hbs.pair (.inr rfl))]
  | case5 b' bs h1 h2 =>
      rw [unescape, unstuff_usi, if_pos rfl, if_pos rfl, if_neg h1, if_neg h1, if_neg h2,
        if_neg h2]
  | case6 b b' bs hb ih =>
      rw [unescape, unstuff_usi, if_neg hb, if_neg hb, ih fun hbs => h (hbs.cons hb)]

theorem eq_nil_of_unstuff (h : usiEscapes.unstuff c = some []) : c = [] := by
  rcases c with _ | ⟨b, _ | ⟨b', bs⟩⟩
  · rfl
  · by_cases hb : b = escMark
    · subst hb
      cases h
    · rw [usiEscapes.unstuff_cons_of_ne hb] at h
      cases h
  · rw [unstuff_usi] at h
    split_ifs at h <;> simp at h

/-- An escape mark in last place stays where it is. -/
theorem unescape_append_escMark (h : usiEscapes.unstuff w = some ys) :
    unescape (w ++ [escMark]) = some (ys ++ [escMark]) := by
  induction w using unescape.induct generalizing ys with
  | case1 =>
      obtain rfl := Option.some.inj h
      rfl
  | case2 b =>
      by_cases hb : b = escMark
      · subst hb
        cases h
      · rw [usiEscapes.unstuff_cons_of_ne hb] at h
        obtain rfl := Option.some.inj h
        rw [List.cons_append, List.nil_append, unescape, if_neg hb]
        rfl
  | case3 bs ih =>
      rw [unstuff_usi, if_pos rfl, if_pos rfl] at h
      obtain ⟨zs, hzs, rfl⟩ := Option.map_eq_some_iff.mp h
      rw [List.cons_append, List.cons_append, unescape, if_pos rfl, if_pos rfl, ih hzs]
      rfl
  | case4 bs hne ih =>
      rw [unstuff_usi, if_pos rfl, if_neg hne, if_pos rfl] at h
      obtain ⟨zs, hzs, rfl⟩ := Option.map_eq_some_iff.mp h
      rw [List.cons_append, List.cons_append, unescape, if_pos rfl, if_neg hne, if_pos rfl, ih hzs]
      rfl
  | case5 b' bs h1 h2 =>
      rw [unstuff_usi, if_pos rfl, if_neg h1, if_neg h2] at h
      cases h
  | case6 b b' bs hb ih =>
      rw [unstuff_usi, if_neg hb] at h
      obtain ⟨zs, hzs, rfl⟩ := Option.map_eq_some_iff.mp h
      have hrest := ih hzs
      rw [List.cons_append] at hrest
      rw [List.cons_append, List.cons_append, unescape, if_neg hb, hrest]
      rfl

/-- The length that is returned is that of the text with the stuffing undone. -/
theorem length_decoded_ne_zero (h : ¬ Dangling c) :
    (decoded c).length ≠ 0 ↔ c ≠ [] ∧ WellEscaped c := by
  rw [wellEscaped_iff, decoded, unescape_of_not_dangling h]
  constructor
  · intro hlen
    cases hc : usiEscapes.unstuff c with
    | none =>
        rw [hc] at hlen
        exact absurd rfl hlen
    | some ys =>
        refine ⟨?_, ys, rfl⟩
        rintro rfl
        obtain rfl := Option.some.inj hc
        exact hlen rfl
  · rintro ⟨hne, ys, hys⟩ hlen
    rw [hys] at hlen
    obtain rfl := List.length_eq_zero_iff.mp hlen
    exact hne (eq_nil_of_unstuff hys)

end Grammar

/-! ## The decoder -/

/-- The string between the marks is decoded as the grammar says: the length is zero exactly
when it is empty or no text of the grammar, and otherwise the bytes that are left behind the
first mark are the string with the stuffing undone, and as many as are returned. -/
def DecodesGrammar (m : Mem UInt8) (first : ℕ) (c : List UInt8) : Prop :=
  ((decodeCopy m first (first + 1 + c.length)).2 ≠ 0 ↔ c ≠ [] ∧ WellEscaped c)
    ∧ ((decodeCopy m first (first + 1 + c.length)).2 ≠ 0 → ∃ ys,
      usiEscapes.unstuff c = some ys
        ∧ (decodeCopy m first (first + 1 + c.length)).2 = ys.length
        ∧ (decodeCopy m first (first + 1 + c.length)).1.slice (first + 1) ys.length = ys)

section Decoder

variable {m : Mem UInt8} {first : ℕ} {c : List UInt8}

/-- An escape mark in last place is taken over. -/
theorem not_decodesGrammar_of_dangling (hmark : m.cell first = msgMark)
    (hc : m.slice (first + 1) c.length = c) (hlen : c.length < 32768) (h : Dangling c) :
    ¬ DecodesGrammar m first c := by
  obtain ⟨w, hw, rfl⟩ := h
  obtain ⟨ys, hys⟩ := wellEscaped_iff.mp hw
  obtain ⟨m', heq, -⟩ := decodeCopy_spec hmark hc hlen (le_max_left m.top _) (le_max_right _ _)
  rintro ⟨haccepts, -⟩
  rw [heq] at haccepts
  refine not_wellEscaped_append (haccepts.mp ?_).2
  rw [decoded, unescape_append_escMark hys]
  simp

/-- **The grammar.**  A string between two marks is decoded as the grammar says exactly when it
is not a text of the grammar with an escape mark behind it. -/
theorem decode_copy_grammar_iff (hmark : m.cell first = msgMark)
    (hc : m.slice (first + 1) c.length = c) (hlen : c.length < 32768) :
    DecodesGrammar m first c ↔ ¬ Dangling c := by
  constructor
  · intro hgrammar hdangling
    exact not_decodesGrammar_of_dangling hmark hc hlen hdangling hgrammar
  · intro hnot
    obtain ⟨m', heq, hslice, -⟩ :=
      decodeCopy_spec hmark hc hlen (le_max_left m.top _) (le_max_right _ _)
    have hne := length_decoded_ne_zero hnot
    unfold DecodesGrammar
    rw [heq]
    refine ⟨hne, fun hpos => ?_⟩
    obtain ⟨ys, hys⟩ := wellEscaped_iff.mp (hne.mp hpos).2
    have hdecoded : decoded c = ys := by
      rw [decoded, unescape_of_not_dangling hnot, hys]
      rfl
    rw [hdecoded] at hslice ⊢
    exact ⟨ys, hys, rfl, hslice⟩

end Decoder

/-- The two marks and what is between them, from the start of the buffer on. -/
def textInMarks (c : List UInt8) : Mem UInt8 :=
  (Mem.init fun _ => 0).storeList 0 (msgMark :: (c ++ [msgMark]))

/-- A lone escape mark is decoded to itself. -/
theorem decode_copy_lone_escape :
    ¬ ∀ (m : Mem UInt8) (first : ℕ) (c : List UInt8), m.cell first = msgMark →
      m.slice (first + 1) c.length = c → m.cell (first + 1 + c.length) = msgMark →
      msgMark ∉ c → c.length < 32768 → DecodesGrammar m first c := by
  intro h
  have hgrammar : DecodesGrammar (textInMarks [escMark]) 0 [escMark] :=
    h _ 0 [escMark] rfl rfl rfl (by decide) (by decide)
  exact not_decodesGrammar_of_dangling rfl rfl (by decide) ⟨[], wellEscaped_nil, rfl⟩ hgrammar

/-- Two escapes are decoded as the grammar says. -/
theorem decode_copy_grammar_two :
    DecodesGrammar (textInMarks [escMark, escMsgMark, escMark, escEscMark]) 0
        [escMark, escMsgMark, escMark, escEscMark]
      ↔ ¬ Dangling [escMark, escMsgMark, escMark, escEscMark] :=
  decode_copy_grammar_iff rfl rfl (by decide)

end Usi
