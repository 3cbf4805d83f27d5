import Mathlib.Logic.Function.Basic

/-!
# Steps that can be disabled

A transition system says what each event does to a state, and that some events
cannot happen there.  A run is a list of events, and it ends early at the first
one that cannot happen.

`Along` says that every step of a run satisfies a predicate.  Two predicates of
steps are compared over whole runs by `along_iff_of_invariant`: it is enough
that they agree on the states of an invariant which the good steps keep.
-/

namespace Process

/-- What each event does to a state, `none` where it cannot happen. -/
structure Transition (S E : Type) where
  next : S → E → Option S

namespace Transition

variable {S E : Type} (T : Transition S E)

/-- The state after a run, `none` if one of its events could not happen. -/
def run : S → List E → Option S
  | s, [] => some s
  | s, e :: es => (T.next s e).bind fun s' => run s' es

/-- Every step of the run satisfies `P`. -/
def Along (P : S → E → S → Prop) : S → List E → Prop
  | _, [] => True
  | s, e :: es => ∀ s', T.next s e = some s' → P s e s' ∧ Along P s' es

variable {T} {P Q : S → E → S → Prop} {s s' : S} {e : E} {es : List E}

theorem along_cons (h : T.next s e = some s') :
    T.Along P s (e :: es) ↔ P s e s' ∧ T.Along P s' es := by
  constructor
  · intro along
    exact along s' h
  · intro along t ht
    rw [h] at ht
    cases ht
    exact along

/-- A predicate that fails at the last step of a run fails along it. -/
theorem not_along_of_run {es' : List E} (hrun : T.run s es = some s')
    (hbad : ¬ T.Along P s' es') : ¬ T.Along P s (es ++ es') := by
  induction es generalizing s with
  | nil =>
      cases hrun
      exact hbad
  | cons e es ih =>
      rw [run, Option.bind_eq_some_iff] at hrun
      obtain ⟨t, ht, hrun⟩ := hrun
      rw [List.cons_append, along_cons ht]
      exact fun h => ih hrun h.2

/-- An invariant that is kept by the steps with `P` holds at the end of a run
of such steps. -/
theorem run_invariant {I : S → Prop}
    (keeps : ∀ s e s', I s → T.next s e = some s' → P s e s' → I s')
    (hI : I s) (along : T.Along P s es) (hrun : T.run s es = some s') : I s' := by
  induction es generalizing s with
  | nil =>
      cases hrun
      exact hI
  | cons e es ih =>
      rw [run, Option.bind_eq_some_iff] at hrun
      obtain ⟨t, ht, hrun⟩ := hrun
      obtain ⟨hP, along⟩ := (along_cons ht).mp along
      exact ih (keeps s e t hI ht hP) along hrun

/-- Two predicates that agree wherever the invariant holds, and whose steps
keep the invariant, hold along the same runs. -/
theorem along_iff_of_invariant {I : S → Prop}
    (agree : ∀ s e s', I s → T.next s e = some s' → (P s e s' ↔ Q s e s'))
    (keeps : ∀ s e s', I s → T.next s e = some s' → Q s e s' → I s')
    (hI : I s) : T.Along P s es ↔ T.Along Q s es := by
  induction es generalizing s with
  | nil => exact Iff.rfl
  | cons e es ih =>
      constructor
      · intro along t ht
        obtain ⟨hP, rest⟩ := along t ht
        have hQ := (agree s e t hI ht).mp hP
        exact ⟨hQ, (ih (keeps s e t hI ht hQ)).mp rest⟩
      · intro along t ht
        obtain ⟨hQ, rest⟩ := along t ht
        exact ⟨(agree s e t hI ht).mpr hQ, (ih (keeps s e t hI ht hQ)).mpr rest⟩

end Transition

end Process
