import RydTrip.Process.Pool

/-!
# Leaving a thread out of a run

If the steps of thread `i` do not show in a relation between worlds and all other
steps carry the relation on, the other threads run by themselves as they run
beside thread `i`: with the same replies, in the same order.
-/

namespace Process

variable {W κ C ε α O A : Type} {R : C → Type}

/-- The action is not one of thread `i`. -/
def Action.spares (i : Nat) : Action κ O A → Bool
  | .spawn j _ => j ≠ i
  | .run j _ => j ≠ i
  | .env _ => true

/-- The actions of all threads but `i`. -/
def others (i : Nat) (acts : List (Action κ O A)) : List (Action κ O A) :=
  acts.filter (·.spares i)

/-- Whatever is possible in a world is possible in a related one, with the same
reply and a related outcome. -/
structure Machine.Carries (m : Machine W κ C R ε α O A) (rel : W → W → Prop) : Prop where
  exec : ∀ {o c w v r w'}, rel w v → m.exec o c w = some (r, w') →
    ∃ v', m.exec o c v = some (r, v') ∧ rel w' v'
  start : ∀ {call w v p w'}, rel w v → m.start call w = some (p, w') →
    ∃ v', m.start call v = some (p, v') ∧ rel w' v'
  env : ∀ {a w v w'}, rel w v → m.env a w = some w' → ∃ v', m.env a v = some v' ∧ rel w' v'

/-- The pools differ in thread `i` and in what the relation leaves open. -/
structure Pool.Without (rel : W → W → Prop) (i : Nat) (s t : Pool W κ C R ε α) : Prop where
  world : rel s.world t.world
  threads : ∀ j, j ≠ i → t.threads j = s.threads j

namespace Pool.Without

variable {m : Machine W κ C R ε α O A} {rel : W → W → Prop} {i : Nat}
  {s s' t : Pool W κ C R ε α} {a : Action κ O A} {acts : List (Action κ O A)}

theorem update {w v : W} {j : Nat} {x : Option (Thread κ C R ε α)} (h : Pool.Without rel i s s')
    (hw : rel w v) :
    Pool.Without rel i ⟨w, Function.update s.threads j x⟩
      ⟨v, Function.update s'.threads j x⟩ := by
  refine ⟨hw, fun n hn => ?_⟩
  show Function.update s'.threads j x n = Function.update s.threads j x n
  rw [Function.update_apply, Function.update_apply, h.threads n hn]

/-- A step of another thread is possible without thread `i`. -/
theorem spared (hm : m.Carries rel) (h : Pool.Without rel i s s') (ha : a.spares i = true)
    (hstep : m.Step s a t) : ∃ t', m.Step s' a t' ∧ Pool.Without rel i t t' := by
  cases hstep with
  | spawn hj hp =>
      have hne := of_decide_eq_true ha
      obtain ⟨v, hv, hrel⟩ := hm.start h.world hp
      exact ⟨_, .spawn ((h.threads _ hne).trans hj) hv, h.update hrel⟩
  | run hj hr =>
      have hne := of_decide_eq_true ha
      obtain ⟨v, hv, hrel⟩ := hm.exec h.world hr
      exact ⟨_, .run ((h.threads _ hne).trans hj) hv, h.update hrel⟩
  | env hw =>
      obtain ⟨v, hv, hrel⟩ := hm.env h.world hw
      exact ⟨_, .env hv, hrel, h.threads⟩

/-- A step of thread `i` changes no other thread. -/
theorem dropped (h : Pool.Without rel i s s') (ha : a.spares i = false) (hstep : m.Step s a t)
    (hrel : rel t.world s'.world) : Pool.Without rel i t s' := by
  refine ⟨hrel, fun j hj => ?_⟩
  rw [h.threads j hj]
  cases hstep with
  | spawn _ _ =>
      cases not_not.mp (of_decide_eq_false ha)
      exact (Function.update_of_ne hj _ _).symm
  | run _ _ =>
      cases not_not.mp (of_decide_eq_false ha)
      exact (Function.update_of_ne hj _ _).symm
  | env _ => cases ha

/-- The run of the other threads, when the steps of thread `i` do not show. -/
theorem run (hm : m.Carries rel) (h : Pool.Without rel i s s')
    (hquiet : m.Along
      (fun s a t => a.spares i = false → ∀ v, rel s.world v → rel t.world v) s acts)
    (hrun : m.run s acts = some t) :
    ∃ t', m.run s' (others i acts) = some t' ∧ Pool.Without rel i t t' := by
  induction acts generalizing s s' with
  | nil =>
      cases hrun
      exact ⟨s', rfl, h⟩
  | cons a acts ih =>
      rw [Machine.run_cons] at hrun
      obtain ⟨u, hu, hrun⟩ := Option.bind_eq_some_iff.mp hrun
      obtain ⟨hstep, hquiet⟩ := hquiet u hu
      cases ha : a.spares i with
      | true =>
          obtain ⟨u', hu', hw⟩ := h.spared hm ha (m.step_of_next hu)
          obtain ⟨t', hrun', ht⟩ := ih hw hquiet hrun
          refine ⟨t', ?_, ht⟩
          rw [others, List.filter_cons_of_pos ha, Machine.run_cons, m.next_of_step hu']
          exact hrun'
      | false =>
          have hw := h.dropped ha (m.step_of_next hu) (hstep ha _ h.world)
          obtain ⟨t', hrun', ht⟩ := ih hw hquiet hrun
          refine ⟨t', ?_, ht⟩
          rw [others, List.filter_cons_of_neg (by rw [ha]; exact Bool.false_ne_true)]
          exact hrun'

end Pool.Without

end Process
