/-
Interleavings and the part of one owner in them.

In a run of a system that several owners share, each event belongs to one of them or to
nobody. `own i` is what owner `i` did, in order. When the events of the others do not
show in the owner's part of the state, and its own events do to a copy of that part what
they do to the part itself, the run restricted to the owner replays on the copy
(`replay`), and so its part of the last state does not depend on the others at all.
-/
import LinuxLikeOS.Transition

set_option autoImplicit false

namespace Transition

variable {σ ε ι : Type*} [DecidableEq ι]

/-- The events of a run that belong to `i`. -/
def own (step : σ → ε → Option σ) (owner : σ → ε → Option ι) (i : ι) : σ → List ε → List ε
  | _, [] => []
  | s, e :: es =>
      let rest := match step s e with
        | none => []
        | some s' => own step owner i s' es
      if owner s e = some i then e :: rest else rest

variable {step : σ → ε → Option σ} {owner : σ → ε → Option ι} {C : σ → ε → Prop}

theorem own_cons_of_eq {i : ι} {s s' : σ} {e : ε} {es : List ε} (hstep : step s e = some s')
    (h : owner s e = some i) : own step owner i s (e :: es) = e :: own step owner i s' es := by
  rw [own, hstep]
  exact if_pos h

theorem own_cons_of_ne {i : ι} {s s' : σ} {e : ε} {es : List ε} (hstep : step s e = some s')
    (h : owner s e ≠ some i) : own step owner i s (e :: es) = own step owner i s' es := by
  rw [own, hstep]
  exact if_neg h

/-- **Replay.** `R s r` says that `r` is a copy of the part of `s` that belongs to `i`.
Kept by the events of the others in `s` alone, and by the own events in both, it relates
the end of a run to the end of the own events on the copy. -/
theorem replay (R : σ → σ → Prop) (i : ι)
    (hother : ∀ s r e s', R s r → C s e → owner s e ≠ some i → step s e = some s' → R s' r)
    (hown : ∀ s r e s', R s r → C s e → owner s e = some i → step s e = some s' →
      ∃ r', step r e = some r' ∧ R s' r')
    {s t r : σ} {es : List ε} (hR : R s r) (hC : AllSteps step C s es)
    (hrun : run step s es = some t) :
    ∃ u, run step r (own step owner i s es) = some u ∧ R t u := by
  induction es generalizing s r with
  | nil =>
      rw [run_nil, Option.some.injEq] at hrun
      exact ⟨r, rfl, hrun ▸ hR⟩
  | cons e es ih =>
      rcases run_cons_eq_some.mp hrun with ⟨s', hs', hrun'⟩
      rcases hC with ⟨hCe, hCes⟩
      by_cases howner : owner s e = some i
      · rcases hown s r e s' hR hCe howner hs' with ⟨r', hr', hR'⟩
        rcases ih hR' (hCes s' hs') hrun' with ⟨u, hu, hRu⟩
        rw [own_cons_of_eq hs' howner]
        exact ⟨u, run_cons_eq_some.mpr ⟨r', hr', hu⟩, hRu⟩
      · rw [own_cons_of_ne hs' howner]
        exact ih (hother s r e s' hR hCe howner hs') (hCes s' hs') hrun'

end Transition
