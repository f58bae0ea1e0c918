/-
Finite runs of a partial transition function, and the rules every result about
"any order of operations" is proved with.

Nothing here mentions a kernel. A system is a function `step : σ → ε → Option σ`
over an arbitrary state type and an arbitrary type of events; `none` says that
the event has no completed outcome in that state. A run is the event list itself,
so a statement about every interleaving is a statement about every list.

Three rules are used by the development. `run_invariant` is the plain induction:
what one step preserves, a run preserves. `allStates_of_allSteps` is the same with a
condition that each step has to meet in the state it starts from, which is the shape
of "in every run whose steps all ...". `allStates_iff_allSteps` turns such a condition
into an exact one, when one step keeps the property if and only if the step meets the
condition.
-/
import Mathlib.Logic.Basic
import Mathlib.Data.List.Basic

set_option autoImplicit false

namespace Transition

variable {σ ε : Type*}

/-- The state after the events of a list, in order; `none` as soon as one of them
has no completed outcome. -/
def run (step : σ → ε → Option σ) : σ → List ε → Option σ
  | s, [] => some s
  | s, e :: es => (step s e).bind fun s' => run step s' es

/-- Every step of the run starts in a state and with an event that satisfy `C`. -/
def AllSteps (step : σ → ε → Option σ) (C : σ → ε → Prop) : σ → List ε → Prop
  | _, [] => True
  | s, e :: es => C s e ∧ ∀ s', step s e = some s' → AllSteps step C s' es

/-- Every state the run passes through, the first and the last included,
satisfies `P`. -/
def AllStates (step : σ → ε → Option σ) (P : σ → Prop) : σ → List ε → Prop
  | s, [] => P s
  | s, e :: es => P s ∧ ∀ s', step s e = some s' → AllStates step P s' es

variable {step : σ → ε → Option σ} {P : σ → Prop} {C D : σ → ε → Prop}

@[simp] theorem run_nil (s : σ) : run step s [] = some s := rfl

theorem run_cons (s : σ) (e : ε) (es : List ε) :
    run step s (e :: es) = (step s e).bind fun s' => run step s' es := rfl

/-- A completed run of a nonempty list is a completed step and a completed run. -/
theorem run_cons_eq_some {s t : σ} {e : ε} {es : List ε} :
    run step s (e :: es) = some t ↔ ∃ s', step s e = some s' ∧ run step s' es = some t := by
  rw [run_cons, Option.bind_eq_some_iff]

theorem allSteps_cons_of_some {s s' : σ} {e : ε} {es : List ε} (h : step s e = some s') :
    AllSteps step C s (e :: es) ↔ C s e ∧ AllSteps step C s' es := by
  refine and_congr_right fun _ => ⟨fun hall => hall s' h, fun hrest s'' hs'' => ?_⟩
  rw [h, Option.some.injEq] at hs''
  exact hs'' ▸ hrest

theorem allSteps_cons_of_none {s : σ} {e : ε} {es : List ε} (h : step s e = none) :
    AllSteps step C s (e :: es) ↔ C s e := by
  refine ⟨fun hall => hall.1, fun hC => ⟨hC, fun s'' hs'' => ?_⟩⟩
  rw [h] at hs''
  cases hs''

/-- A decidable condition on the steps is decidable on a run. -/
instance decidableAllSteps [∀ s e, Decidable (C s e)] :
    ∀ s es, Decidable (AllSteps step C s es)
  | _, [] => isTrue trivial
  | s, e :: es =>
      match h : step s e with
      | none => decidable_of_iff (C s e) (allSteps_cons_of_none h).symm
      | some s' =>
          have := decidableAllSteps s' es
          decidable_of_iff (C s e ∧ AllSteps step C s' es) (allSteps_cons_of_some h).symm

theorem allStates_cons_of_some {s s' : σ} {e : ε} {es : List ε} (h : step s e = some s') :
    AllStates step P s (e :: es) ↔ P s ∧ AllStates step P s' es := by
  refine and_congr_right fun _ => ⟨fun hall => hall s' h, fun hrest s'' hs'' => ?_⟩
  rw [h, Option.some.injEq] at hs''
  exact hs'' ▸ hrest

theorem allStates_cons_of_none {s : σ} {e : ε} {es : List ε} (h : step s e = none) :
    AllStates step P s (e :: es) ↔ P s := by
  refine ⟨fun hall => hall.1, fun hP => ⟨hP, fun s'' hs'' => ?_⟩⟩
  rw [h] at hs''
  cases hs''

/-- So is a decidable property of every state. -/
instance decidableAllStates [∀ s, Decidable (P s)] :
    ∀ s es, Decidable (AllStates step P s es)
  | s, [] => inferInstanceAs (Decidable (P s))
  | s, e :: es =>
      match h : step s e with
      | none => decidable_of_iff (P s) (allStates_cons_of_none h).symm
      | some s' =>
          have := decidableAllStates s' es
          decidable_of_iff (P s ∧ AllStates step P s' es) (allStates_cons_of_some h).symm

theorem allSteps_and {s : σ} {es : List ε} :
    AllSteps step (fun s e => C s e ∧ D s e) s es ↔ AllSteps step C s es ∧ AllSteps step D s es := by
  induction es generalizing s with
  | nil => exact ⟨fun _ => ⟨trivial, trivial⟩, fun _ => trivial⟩
  | cons e es ih =>
      constructor
      · rintro ⟨⟨hC, hD⟩, hrest⟩
        exact ⟨⟨hC, fun s' hs' => (ih.mp (hrest s' hs')).1⟩, hD, fun s' hs' => (ih.mp (hrest s' hs')).2⟩
      · rintro ⟨⟨hC, hCs⟩, hD, hDs⟩
        exact ⟨⟨hC, hD⟩, fun s' hs' => ih.mpr ⟨hCs s' hs', hDs s' hs'⟩⟩

/-- A condition on the events alone. -/
theorem allSteps_of_forall {D : ε → Prop} {s : σ} {es : List ε} (h : ∀ e, e ∈ es → D e) :
    AllSteps step (fun _ e => D e) s es := by
  induction es generalizing s with
  | nil => trivial
  | cons e es ih =>
      exact ⟨h e List.mem_cons_self, fun _ _ => ih fun e' he' => h e' (List.mem_cons_of_mem e he')⟩

/-- The step behind a completed run. -/
theorem AllSteps.next {s t : σ} {e : ε} {es : List ε} (h : AllSteps step C s (es ++ [e]))
    (hrun : run step s es = some t) : C t e := by
  induction es generalizing s with
  | nil =>
      rw [run_nil, Option.some.injEq] at hrun
      exact hrun ▸ h.1
  | cons e' es ih =>
      obtain ⟨s', hs', hrun'⟩ := run_cons_eq_some.mp hrun
      exact ih (h.2 s' hs') hrun'

/-- The steps of a run are those of its first part and those of the rest. -/
theorem AllSteps.split {s t : σ} {es fs : List ε} (h : AllSteps step C s (es ++ fs))
    (hrun : run step s es = some t) : AllSteps step C s es ∧ AllSteps step C t fs := by
  induction es generalizing s with
  | nil =>
      rw [run_nil, Option.some.injEq] at hrun
      exact ⟨trivial, hrun ▸ h⟩
  | cons e es ih =>
      obtain ⟨s', hs', hrun'⟩ := run_cons_eq_some.mp hrun
      obtain ⟨hfirst, hrest⟩ := ih (h.2 s' hs') hrun'
      exact ⟨(allSteps_cons_of_some hs').mpr ⟨h.1, hfirst⟩, hrest⟩

/-- The conditions on the two parts of a run are the condition on the run. -/
theorem AllSteps.append {s t : σ} {es fs : List ε} (h₁ : AllSteps step C s es)
    (hrun : run step s es = some t) (h₂ : AllSteps step C t fs) : AllSteps step C s (es ++ fs) := by
  induction es generalizing s with
  | nil =>
      rw [run_nil, Option.some.injEq] at hrun
      exact hrun ▸ h₂
  | cons e es ih =>
      obtain ⟨s', hs', hrun'⟩ := run_cons_eq_some.mp hrun
      exact (allSteps_cons_of_some hs').mpr ⟨h₁.1, ih (h₁.2 s' hs') hrun'⟩

/-- Runs compose. -/
theorem run_append {s t u : σ} {es fs : List ε} (h₁ : run step s es = some t)
    (h₂ : run step t fs = some u) : run step s (es ++ fs) = some u := by
  induction es generalizing s with
  | nil =>
      rw [run_nil, Option.some.injEq] at h₁
      rw [List.nil_append, h₁, h₂]
  | cons e es ih =>
      obtain ⟨s', hs', hrun⟩ := run_cons_eq_some.mp h₁
      exact run_cons_eq_some.mpr ⟨s', hs', ih hrun⟩

/-! ## The induction rules -/

/-- **What one step preserves, a run preserves.** -/
theorem run_invariant (Inv : σ → Prop) (hstep : ∀ s e s', Inv s → step s e = some s' → Inv s')
    {s t : σ} {es : List ε} (hs : Inv s) (hrun : run step s es = some t) : Inv t := by
  induction es generalizing s with
  | nil =>
      rw [run_nil, Option.some.injEq] at hrun
      exact hrun ▸ hs
  | cons e es ih =>
      obtain ⟨s', hs', hrun'⟩ := run_cons_eq_some.mp hrun
      exact ih (hstep s e s' hs hs') hrun'

/-- **Where every step from an invariant state has an outcome, every run has one.** -/
theorem exists_run (Inv : σ → Prop)
    (hstep : ∀ s e s', Inv s → C s e → step s e = some s' → Inv s')
    (hgo : ∀ s e, Inv s → C s e → ∃ s', step s e = some s') {s : σ} {es : List ε} (hs : Inv s)
    (hC : AllSteps step C s es) : ∃ t, run step s es = some t := by
  induction es generalizing s with
  | nil => exact ⟨s, run_nil s⟩
  | cons e es ih =>
      obtain ⟨s', hs'⟩ := hgo s e hs hC.1
      obtain ⟨t, ht⟩ := ih (hstep s e s' hs hC.1 hs') (hC.2 s' hs')
      exact ⟨t, run_cons_eq_some.mpr ⟨s', hs', ht⟩⟩

/-- A condition implied by another on every step from an invariant state, where the
first one is what keeps the invariant. -/
theorem AllSteps.mono (Inv : σ → Prop)
    (hstep : ∀ s e s', Inv s → C s e → step s e = some s' → Inv s')
    (hCD : ∀ s e, Inv s → C s e → D s e) {s : σ} {es : List ε} (hs : Inv s)
    (hC : AllSteps step C s es) : AllSteps step D s es := by
  induction es generalizing s with
  | nil => trivial
  | cons e es ih =>
      obtain ⟨hCe, hCes⟩ := hC
      exact ⟨hCD s e hs hCe, fun s' hs' => ih (hstep s e s' hs hCe hs') (hCes s' hs')⟩

/-- Two conditions that agree on every completed step from an invariant state agree on
every completed run. The steps may all have to meet a third one. -/
theorem AllSteps.congr {B : σ → ε → Prop} (Inv : σ → Prop)
    (hstep : ∀ s e s', Inv s → B s e → step s e = some s' → Inv s')
    (hCD : ∀ s e s', Inv s → B s e → step s e = some s' → (C s e ↔ D s e)) {s t : σ}
    {es : List ε} (hs : Inv s) (hB : AllSteps step B s es) (hrun : run step s es = some t) :
    AllSteps step C s es ↔ AllSteps step D s es := by
  induction es generalizing s with
  | nil => exact Iff.rfl
  | cons e es ih =>
      obtain ⟨s', hs', hrun'⟩ := run_cons_eq_some.mp hrun
      obtain ⟨hBe, hBes⟩ := hB
      have hhead : C s e ↔ D s e := hCD s e s' hs hBe hs'
      have htail := ih (hstep s e s' hs hBe hs') (hBes s' hs') hrun'
      rw [allSteps_cons_of_some hs', allSteps_cons_of_some hs', hhead, htail]

/-- The invariant kept by the steps that meet a condition holds in every state of a
run whose steps all meet it. -/
theorem allStates_of_allSteps (Inv : σ → Prop)
    (hstep : ∀ s e s', Inv s → C s e → step s e = some s' → Inv s')
    (hP : ∀ s, Inv s → P s) {s : σ} {es : List ε} (hs : Inv s)
    (hC : AllSteps step C s es) : AllStates step P s es := by
  induction es generalizing s with
  | nil => exact hP s hs
  | cons e es ih =>
      obtain ⟨hCe, hCes⟩ := hC
      exact ⟨hP s hs, fun s' hs' => ih (hstep s e s' hs hCe hs') (hCes s' hs')⟩

/-- The first state of a run is one of the states it passes through. -/
theorem AllStates.first {s : σ} {es : List ε} (h : AllStates step P s es) : P s := by
  cases es with
  | nil => exact h
  | cons e es => exact h.1

/-- **An exact step condition is an exact run condition.** If, from an invariant
state with the property, a completed step keeps the property exactly when it meets
`C`, then a completed run shows the property in every state exactly when all its
steps meet `C`. -/
theorem allStates_iff_allSteps (Inv : σ → Prop)
    (hInv : ∀ s e s', Inv s → step s e = some s' → Inv s')
    (hiff : ∀ s e s', Inv s → P s → step s e = some s' → (P s' ↔ C s e))
    {s t : σ} {es : List ε} (hs : Inv s) (hP : P s) (hrun : run step s es = some t) :
    AllStates step P s es ↔ AllSteps step C s es := by
  induction es generalizing s with
  | nil => exact ⟨fun _ => trivial, fun _ => hP⟩
  | cons e es ih =>
      obtain ⟨s', hs', hrun'⟩ := run_cons_eq_some.mp hrun
      have hkey : P s' ↔ C s e := hiff s e s' hs hP hs'
      have hI' : Inv s' := hInv s e s' hs hs'
      -- the step is a function, so a statement about every outcome is one about `s'`
      have huniq : ∀ {Q : σ → Prop}, (∀ s'', step s e = some s'' → Q s'') ↔ Q s' := by
        intro Q
        refine ⟨fun h => h s' hs', fun h s'' hs'' => ?_⟩
        rw [hs', Option.some.injEq] at hs''
        exact hs'' ▸ h
      constructor
      · rintro ⟨-, h⟩
        have hrest := huniq.mp h
        have hP' := hrest.first
        exact ⟨hkey.mp hP', huniq.mpr ((ih hI' hP' hrun').mp hrest)⟩
      · rintro ⟨hC, h⟩
        have hP' := hkey.mpr hC
        exact ⟨hP, huniq.mpr ((ih hI' hP' hrun').mpr (huniq.mp h))⟩

/-- A property of every state, as a condition on the steps: it holds before each one and
behind it. -/
theorem AllStates.allSteps {s : σ} {es : List ε} (h : AllStates step P s es) :
    AllSteps step (fun s e => P s ∧ ∀ s', step s e = some s' → P s') s es := by
  induction es generalizing s with
  | nil => trivial
  | cons e es ih =>
      exact ⟨⟨h.1, fun s' hs' => (h.2 s' hs').first⟩, fun s' hs' => ih (h.2 s' hs')⟩

/-- A property implied by another in every invariant state. -/
theorem AllStates.mono {Q : σ → Prop} (Inv : σ → Prop)
    (hInv : ∀ s e s', Inv s → step s e = some s' → Inv s') (hPQ : ∀ s, Inv s → P s → Q s)
    {s : σ} {es : List ε} (hs : Inv s) (hP : AllStates step P s es) : AllStates step Q s es := by
  induction es generalizing s with
  | nil => exact hPQ s hs hP
  | cons e es ih =>
      obtain ⟨hPs, hPes⟩ := hP
      exact ⟨hPQ s hs hPs, fun s' hs' => ih (hInv s e s' hs hs') (hPes s' hs')⟩

/-- The last state of a run is one of the states it passes through. -/
theorem AllStates.last {s t : σ} {es : List ε} (h : AllStates step P s es)
    (hrun : run step s es = some t) : P t := by
  induction es generalizing s with
  | nil =>
      rw [run_nil, Option.some.injEq] at hrun
      exact hrun ▸ h
  | cons e es ih =>
      obtain ⟨s', hs', hrun'⟩ := run_cons_eq_some.mp hrun
      exact ih (h.2 s' hs') hrun'

/-! ## Simulation -/

/-- **A simulation of steps is one of runs.** The second system may ask for a condition on its own
steps, and then says what every run of the first one that meets it does. -/
theorem run_simulation {τ : Type*} {step' : τ → ε → Option τ} {C : τ → ε → Prop}
    (R : σ → τ → Prop)
    (hsim : ∀ s t e s', R s t → C t e → step s e = some s' →
      ∃ t', step' t e = some t' ∧ R s' t')
    {s s' : σ} {t : τ} {es : List ε} (hR : R s t) (hC : AllSteps step' C t es)
    (hrun : run step s es = some s') : ∃ t', run step' t es = some t' ∧ R s' t' := by
  induction es generalizing s t with
  | nil =>
      rw [run_nil, Option.some.injEq] at hrun
      exact ⟨t, rfl, hrun ▸ hR⟩
  | cons e es ih =>
      obtain ⟨s₁, hs₁, hrun'⟩ := run_cons_eq_some.mp hrun
      obtain ⟨t₁, ht₁, hR₁⟩ := hsim s t e s₁ hR hC.1 hs₁
      obtain ⟨t', ht', hR'⟩ := ih hR₁ (hC.2 t₁ ht₁) hrun'
      exact ⟨t', run_cons_eq_some.mpr ⟨t₁, ht₁, ht'⟩, hR'⟩

/-- **A run seen through a map of its states.** An event that is not seen leaves the state that
is shown, and any other one is a step of the second system. -/
theorem run_seen {τ δ : Type*} {step' : τ → δ → Option τ} (Inv : σ → Prop) (show_state : σ → τ)
    (seen : ε → Option δ)
    (hinv : ∀ s e s', Inv s → C s e → step s e = some s' → Inv s')
    (hsim : ∀ s e s', Inv s → C s e → step s e = some s' →
      run step' (show_state s) (seen e).toList = some (show_state s'))
    {s t : σ} {es : List ε} (hs : Inv s) (hC : AllSteps step C s es)
    (hrun : run step s es = some t) :
    run step' (show_state s) (es.filterMap seen) = some (show_state t) := by
  induction es generalizing s with
  | nil =>
      rw [run_nil, Option.some.injEq] at hrun
      exact congrArg (fun s => some (show_state s)) hrun
  | cons e es ih =>
      obtain ⟨s', hs', hrun'⟩ := run_cons_eq_some.mp hrun
      have hfirst := hsim s e s' hs hC.1 hs'
      have hrest := ih (hinv s e s' hs hC.1 hs') (hC.2 s' hs') hrun'
      have hlist : (e :: es).filterMap seen = (seen e).toList ++ es.filterMap seen := by
        rw [List.filterMap_cons]
        cases seen e <;> rfl
      rw [hlist]
      exact run_append hfirst hrest

/-! ## History variables -/

/-- The system with a record beside its state: `record` says what a completed step
adds to it, and no step reads it. -/
def with_history {η : Type*} (step : σ → ε → Option σ) (record : σ → ε → σ → η → η)
    (w : σ × η) (e : ε) : Option (σ × η) :=
  (step w.1 e).map fun s' => (s', record w.1 e s' w.2)

theorem with_history_eq_some {η : Type*} {record : σ → ε → σ → η → η} {w w' : σ × η}
    {e : ε} : with_history step record w e = some w' ↔
      step w.1 e = some w'.1 ∧ record w.1 e w'.1 w.2 = w'.2 := by
  unfold with_history
  rw [Option.map_eq_some_iff]
  constructor
  · rintro ⟨s', hs', rfl⟩
    exact ⟨hs', rfl⟩
  · rintro ⟨hs', hw'⟩
    exact ⟨w'.1, hs', by rw [hw']⟩

end Transition
