/-
# Runs of a step function

A system takes one event after the other; a step may get stuck, and then so does the
run.  `AlongSteps` states a condition on every step of a run, of the event and of the
state it meets.  The two rules below carry an invariant, which may speak about the
events so far, through a run, and turn an equivalence that holds of every step into
one that holds along the run.
-/
import Mathlib

variable {ε σ : Type*}

/-- One event after the other. -/
def runSteps (step : ε → σ → Option σ) : List ε → σ → Option σ
  | [], s => some s
  | e :: es, s => (step e s).bind (runSteps step es)

/-- `C` holds of every event and the state it meets. -/
def AlongSteps (step : ε → σ → Option σ) (C : ε → σ → Prop) : List ε → σ → Prop
  | [], _ => True
  | e :: es, s => C e s ∧ ∀ s', step e s = some s' → AlongSteps step C es s'

section Runs

variable {step : ε → σ → Option σ} {C D : ε → σ → Prop} {es fs : List ε} {s s' : σ}

@[simp] theorem runSteps_nil : runSteps step [] s = some s := rfl

theorem runSteps_cons {e : ε} : runSteps step (e :: es) s = (step e s).bind (runSteps step es) :=
  rfl

theorem runSteps_append :
    runSteps step (es ++ fs) s = (runSteps step es s).bind (runSteps step fs) := by
  induction es generalizing s with
  | nil => rfl
  | cons e es ih =>
      rw [List.cons_append, runSteps_cons, runSteps_cons, Option.bind_assoc]
      exact Option.bind_congr fun t _ => ih

theorem alongSteps_cons {e : ε} {t : σ} (ht : step e s = some t) :
    AlongSteps step C (e :: es) s ↔ C e s ∧ AlongSteps step C es t := by
  refine and_congr_right fun _ => ⟨fun h => h t ht, fun h t' ht' => ?_⟩
  rwa [← Option.some.inj (ht.symm.trans ht')]

theorem alongSteps_append : AlongSteps step C (es ++ fs) s ↔
    AlongSteps step C es s ∧ ∀ s', runSteps step es s = some s' → AlongSteps step C fs s' := by
  induction es generalizing s with
  | nil => exact ⟨fun h => ⟨trivial, fun s' hs => Option.some.inj hs ▸ h⟩, fun h => h.2 s rfl⟩
  | cons e es ih =>
      constructor
      · rintro ⟨hC, hrest⟩
        refine ⟨⟨hC, fun t ht => (ih.mp (hrest t ht)).1⟩, fun s' hs => ?_⟩
        obtain ⟨t, ht, hrun⟩ := Option.bind_eq_some_iff.mp hs
        exact (ih.mp (hrest t ht)).2 s' hrun
      · rintro ⟨⟨hC, hrest⟩, htail⟩
        refine ⟨hC, fun t ht => ih.mpr ⟨hrest t ht, fun s' hs => htail s' ?_⟩⟩
        rw [runSteps_cons, ht]
        exact hs

theorem AlongSteps.and (hC : AlongSteps step C es s) (hD : AlongSteps step D es s) :
    AlongSteps step (fun e s => C e s ∧ D e s) es s := by
  induction es generalizing s with
  | nil => trivial
  | cons e es ih => exact ⟨⟨hC.1, hD.1⟩, fun s' hs => ih (hC.2 s' hs) (hD.2 s' hs)⟩

/-- A condition along a run holds along every first part of it. -/
theorem AlongSteps.take (h : AlongSteps step C es s) (k : ℕ) :
    AlongSteps step C (es.take k) s := by
  induction es generalizing s k with
  | nil => rwa [List.take_nil]
  | cons e es ih =>
      cases k with
      | zero => trivial
      | succ k => exact ⟨h.1, fun s' hs => ih (h.2 s' hs) k⟩

theorem AlongSteps.mono (hCD : ∀ e s, C e s → D e s) (h : AlongSteps step C es s) :
    AlongSteps step D es s := by
  induction es generalizing s with
  | nil => trivial
  | cons e es ih => exact ⟨hCD _ _ h.1, fun s' hs => ih (h.2 s' hs)⟩

/-- What holds of all events holds along every run of them. -/
theorem alongSteps_of_forall {P : ε → Prop} (h : ∀ e ∈ es, P e) :
    AlongSteps step (fun e _ => P e) es s := by
  induction es generalizing s with
  | nil => trivial
  | cons e es ih =>
      rw [List.forall_mem_cons] at h
      exact ⟨h.1, fun s' _ => ih h.2⟩

/-- **Run rule.**  If every step that meets `C` can be taken and carries the invariant
`I` of the events so far, then so does every run along which `C` holds. -/
theorem runSteps_induction {I : List ε → σ → Prop}
    (hstep : ∀ past e s, I past s → C e s → ∃ s', step e s = some s' ∧ I (past ++ [e]) s') :
    ∀ (es past : List ε) (s : σ), I past s → AlongSteps step C es s →
      ∃ s', runSteps step es s = some s' ∧ I (past ++ es) s' := by
  -- on the events to come, for all past ones
  intro es
  induction es with
  | nil =>
      intro past s hi _
      exact ⟨s, rfl, by rwa [List.append_nil]⟩
  | cons e es ih =>
      intro past s hi hC
      obtain ⟨s1, hs1, hi1⟩ := hstep past e s hi hC.1
      obtain ⟨s', hs', hi'⟩ := ih (past ++ [e]) s1 hi1 (hC.2 s1 hs1)
      refine ⟨s', ?_, ?_⟩
      · rw [runSteps_cons, hs1]
        exact hs'
      · rwa [List.append_assoc] at hi'

/-- **Equivalence rule.**  Two conditions that agree at every step under an invariant,
which the steps meeting them carry on, agree along every run. -/
theorem alongSteps_congr {I : σ → Prop} (hiff : ∀ e s, I s → (C e s ↔ D e s))
    (hstep : ∀ e s s', I s → C e s → step e s = some s' → I s') (hi : I s) :
    AlongSteps step C es s ↔ AlongSteps step D es s := by
  induction es generalizing s with
  | nil => exact Iff.rfl
  | cons e es ih =>
      constructor
      · rintro ⟨hC, hrest⟩
        exact ⟨(hiff e s hi).mp hC, fun s' hs => (ih (hstep e s s' hi hC hs)).mp (hrest s' hs)⟩
      · rintro ⟨hD, hrest⟩
        have hC := (hiff e s hi).mpr hD
        exact ⟨hC, fun s' hs => (ih (hstep e s s' hi hC hs)).mpr (hrest s' hs)⟩

/-- **Equivalence rule under an assumption.**  The same for runs along which `H` holds. -/
theorem alongSteps_congr_of {H : ε → σ → Prop} {I : σ → Prop} (hH : AlongSteps step H es s)
    (hiff : ∀ e s, I s → H e s → (C e s ↔ D e s))
    (hstep : ∀ e s s', I s → H e s → C e s → step e s = some s' → I s') (hi : I s) :
    AlongSteps step C es s ↔ AlongSteps step D es s := by
  have hboth : AlongSteps step (fun e s => H e s ∧ C e s) es s
      ↔ AlongSteps step (fun e s => H e s ∧ D e s) es s :=
    alongSteps_congr (fun e s hi => and_congr_right fun h => hiff e s hi h)
      (fun e s s' hi hC hs => hstep e s s' hi hC.1 hC.2 hs) hi
  constructor
  · intro hC
    exact (hboth.mp (hH.and hC)).mono fun _ _ h => h.2
  · intro hD
    exact (hboth.mpr (hH.and hD)).mono fun _ _ h => h.2

/-- **Invariant rule.**  What every step from the invariant meets under an assumption, it
meets along every run on which the assumption holds. -/
theorem alongSteps_of_invariant {H : ε → σ → Prop} {I : σ → Prop} (hH : AlongSteps step H es s)
    (hstep : ∀ e s, I s → H e s → C e s ∧ ∀ s', step e s = some s' → I s') (hi : I s) :
    AlongSteps step C es s := by
  induction es generalizing s with
  | nil => trivial
  | cons e es ih =>
      obtain ⟨hC, hnext⟩ := hstep e s hi hH.1
      exact ⟨hC, fun s' hs => ih (hH.2 s' hs) (hnext s' hs)⟩

/-- **Converse rule.**  If every step that can be taken meets `C`, then so does every
step of a run that comes to its end. -/
theorem alongSteps_of_run {I : σ → Prop}
    (hstep : ∀ e s s', I s → step e s = some s' → C e s ∧ I s') (hi : I s)
    (hrun : runSteps step es s = some s') : AlongSteps step C es s := by
  induction es generalizing s with
  | nil => trivial
  | cons e es ih =>
      obtain ⟨t, ht, hrest⟩ := Option.bind_eq_some_iff.mp hrun
      obtain ⟨hC, hi'⟩ := hstep e s t hi ht
      refine ⟨hC, fun t' ht' => ?_⟩
      obtain rfl : t = t' := Option.some.inj (ht.symm.trans ht')
      exact ih hi' hrest

/-- **Exactness rule.**  Let the steps that meet `C` carry `G`, and let a step that does
not lead from `G` to `B`, which every step carries on.  A run from `G` then ends in `G`
if `C` holds along it, and in `B` if it does not. -/
theorem runSteps_dichotomy {G B : σ → Prop}
    (hgood : ∀ e s s', G s → C e s → step e s = some s' → G s')
    (hfail : ∀ e s s', G s → ¬ C e s → step e s = some s' → B s')
    (hbad : ∀ e s s', B s → step e s = some s' → B s')
    (hs : G s) (hrun : runSteps step es s = some s') :
    (AlongSteps step C es s → G s') ∧ (¬ AlongSteps step C es s → B s') := by
  have hdoomed (fs : List ε) (t : σ) (ht : B t) (hfs : runSteps step fs t = some s') : B s' := by
    induction fs generalizing t with
    | nil => rwa [← Option.some.inj hfs]
    | cons f fs ih =>
        obtain ⟨t', ht', hrest⟩ := Option.bind_eq_some_iff.mp hfs
        exact ih t' (hbad f t t' ht ht') hrest
  induction es generalizing s with
  | nil =>
      rw [← Option.some.inj hrun]
      exact ⟨fun _ => hs, fun h => absurd trivial h⟩
  | cons e es ih =>
      obtain ⟨t, ht, hrest⟩ := Option.bind_eq_some_iff.mp hrun
      rw [alongSteps_cons ht]
      by_cases hC : C e s
      · obtain ⟨hthen, helse⟩ := ih (hgood e s t hs hC ht) hrest
        exact ⟨fun h => hthen h.2, fun h => helse fun hrest' => h ⟨hC, hrest'⟩⟩
      · exact ⟨fun h => absurd h.1 hC, fun _ => hdoomed es t (hfail e s t hs hC ht) hrest⟩

/-- A decidable condition is decidable along a run. -/
instance decidableAlongSteps [∀ e s, Decidable (C e s)] :
    ∀ (es : List ε) (s : σ), Decidable (AlongSteps step C es s)
  | [], _ => isTrue trivial
  | e :: es, s =>
      match h : step e s with
      | none =>
          decidable_of_iff (C e s)
            ⟨fun hC => ⟨hC, fun s' hs => absurd (h.symm.trans hs) (by simp)⟩, fun hC => hC.1⟩
      | some t =>
          have := decidableAlongSteps es t
          decidable_of_iff (C e s ∧ AlongSteps step C es t)
            ⟨fun hC => ⟨hC.1, fun s' hs => Option.some.inj (h.symm.trans hs) ▸ hC.2⟩,
              fun hC => ⟨hC.1, hC.2 t h⟩⟩

end Runs
