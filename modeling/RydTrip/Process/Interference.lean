import RydTrip.Process.Prog

/-!
# Programs that keep one part of the state out of another

The state is a pair of what is observed and what is not.  `eval` runs a program
against two handlers that may answer differently where nothing is observed.  A
program is free of interference if the observed part and the outcome come out the
same from the same observed part, whatever the other part was.  Unlike a blind
program it may issue different commands meanwhile, as long as these are silent.
-/

namespace Process

namespace Prog

variable {C ε α β L H : Type} {R : C → Type}

/-- The program comes to `x` and leaves the observed part as it was. -/
def Silent (h : (c : C) → L × H → R c × (L × H)) (p : Prog C R ε α) (x : Except ε α) : Prop :=
  ∀ l s, (p.eval h (l, s)).1 = x ∧ (p.eval h (l, s)).2.1 = l

/-- Two handlers agree on a command as far as it is observed. -/
def Agree (h h' : (c : C) → L × H → R c × (L × H)) (c : C) : Prop :=
  ∀ l s s', (h c (l, s)).1 = (h' c (l, s')).1 ∧ (h c (l, s)).2.1 = (h' c (l, s')).2.1

/-- What is not observed does not come out under the two handlers. -/
def Free (h h' : (c : C) → L × H → R c × (L × H)) (p : Prog C R ε α) : Prop :=
  ∀ l s s', (p.eval h (l, s)).1 = (p.eval h' (l, s')).1 ∧
    (p.eval h (l, s)).2.1 = (p.eval h' (l, s')).2.1

section Silent

variable {h : (c : C) → L × H → R c × (L × H)}

theorem silent_ret (a : α) : (.ret a : Prog C R ε α).Silent h (.ok a) := fun _ _ => ⟨rfl, rfl⟩

/-- A command that is not observed may be answered in any way. -/
theorem silent_call {c : C} {k : R c → Prog C R ε α} {x : Except ε α}
    (hc : ∀ l s, (h c (l, s)).2.1 = l) (hk : ∀ r, (k r).Silent h x) :
    (Prog.call c k).Silent h x := by
  intro l s
  have hl := hc l s
  rw [eval_call]
  generalize h c (l, s) = out at hl ⊢
  obtain ⟨r, l₁, s₁⟩ := out
  cases hl
  exact hk r l₁ s₁

end Silent

section Free

variable {h h' : (c : C) → L × H → R c × (L × H)}

theorem free_ret (a : α) : (.ret a : Prog C R ε α).Free h h' := fun _ _ _ => ⟨rfl, rfl⟩

theorem free_throw (e : ε) : (.throw e : Prog C R ε α).Free h h' := fun _ _ _ => ⟨rfl, rfl⟩

theorem free_of_silent {p : Prog C R ε α} {x : Except ε α} (hp : p.Silent h x)
    (hp' : p.Silent h' x) : p.Free h h' := by
  intro l s s'
  obtain ⟨hx, hl⟩ := hp l s
  obtain ⟨hx', hl'⟩ := hp' l s'
  exact ⟨hx.trans hx'.symm, hl.trans hl'.symm⟩

theorem free_call {c : C} {k : R c → Prog C R ε α} (hc : Agree h h' c)
    (hk : ∀ r, (k r).Free h h') : (Prog.call c k).Free h h' := by
  intro l s s'
  obtain ⟨hr, hl⟩ := hc l s s'
  rw [eval_call, eval_call]
  generalize h c (l, s) = out at hr hl ⊢
  generalize h' c (l, s') = out' at hr hl ⊢
  obtain ⟨r, l₁, s₁⟩ := out
  obtain ⟨r', l₁', s₁'⟩ := out'
  cases hr
  cases hl
  exact hk r l₁ s₁ s₁'

/-- The two runs of a program that is free, with one outcome and one observed
part. -/
theorem Free.cases {p : Prog C R ε α} (hp : p.Free h h') (l : L) (s s' : H) :
    ∃ x l₁ s₁ s₁', p.eval h (l, s) = (x, (l₁, s₁)) ∧ p.eval h' (l, s') = (x, (l₁, s₁')) := by
  obtain ⟨hx, hl⟩ := hp l s s'
  refine ⟨_, _, _, (p.eval h' (l, s')).2.2, rfl, ?_⟩
  rw [hx, hl]

theorem Free.bind {p : Prog C R ε α} {f : α → Prog C R ε β} (hp : p.Free h h')
    (hf : ∀ a, (f a).Free h h') : (p >>= f).Free h h' := by
  intro l s s'
  obtain ⟨x, l₁, s₁, s₁', hrun, hrun'⟩ := hp.cases l s s'
  rw [eval_bind, eval_bind, hrun, hrun']
  cases x with
  | ok a => exact hf a l₁ s₁ s₁'
  | error e => exact ⟨rfl, rfl⟩

theorem Free.tryCatch {p : Prog C R ε α} {g : ε → Prog C R ε α} (hp : p.Free h h')
    (hg : ∀ e, (g e).Free h h') : (p.tryCatch g).Free h h' := by
  intro l s s'
  obtain ⟨x, l₁, s₁, s₁', hrun, hrun'⟩ := hp.cases l s s'
  rw [eval_tryCatch, eval_tryCatch, hrun, hrun']
  cases x with
  | ok a => exact ⟨rfl, rfl⟩
  | error e => exact hg e l₁ s₁ s₁'

end Free

/-! ## One program after the other -/

/-- Run programs one after the other.  One that throws does not keep the next from
running. -/
def evalAll (h : (c : C) → L × H → R c × (L × H)) :
    List (Prog C R ε α) → L × H → List (Except ε α) × (L × H)
  | [], w => ([], w)
  | p :: ps, w =>
      let (x, w') := p.eval h w
      let (xs, w'') := evalAll h ps w'
      (x :: xs, w'')

theorem evalAll_free {h h' : (c : C) → L × H → R c × (L × H)} {ps : List (Prog C R ε α)}
    (hps : ∀ p ∈ ps, p.Free h h') (l : L) (s s' : H) :
    (evalAll h ps (l, s)).1 = (evalAll h' ps (l, s')).1 ∧
      (evalAll h ps (l, s)).2.1 = (evalAll h' ps (l, s')).2.1 := by
  induction ps generalizing l s s' with
  | nil => exact ⟨rfl, rfl⟩
  | cons p ps ih =>
      obtain ⟨x, l₁, s₁, s₁', hrun, hrun'⟩ := (hps p (.head _)).cases l s s'
      obtain ⟨hxs, hl⟩ := ih (fun q hq => hps q (.tail _ hq)) l₁ s₁ s₁'
      rw [evalAll, evalAll, hrun, hrun']
      exact ⟨congrArg (x :: ·) hxs, hl⟩

end Prog

end Process
