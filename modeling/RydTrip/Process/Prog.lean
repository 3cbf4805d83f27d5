import Mathlib.Logic.Function.Basic

/-!
# Programs over a command signature

A `Prog C R ε α` is a finite tree of commands.  It returns a value of type `α`,
throws an error of type `ε`, or issues a command `c : C` and continues from the
reply of type `R c`.  Commands are the points where other programs can run in
between, so one command is one atomic step of the interleaving semantics in
`Pool`.

Three folds of the tree carry everything else.

* `Prog.eval` runs a program alone, from a function that answers commands.
* `Prog.expand` replaces each command by a program over a lower signature, as a
  remote call is replaced by the server code that answers it.
* `Prog.wp` is the weakest precondition.  The meaning of one command is a
  predicate transformer, and the carrier is any type.  A carrier `G → Prop`
  threads a ghost state through the program, which is how typestate arguments
  are phrased here.

The lemmas say how the folds meet sequencing and exception handling.
-/

namespace Process

/-- A program that issues commands of `C` and is answered in `R`. -/
inductive Prog (C : Type) (R : C → Type) (ε α : Type) : Type where
  | ret (a : α)
  | throw (e : ε)
  | call (c : C) (k : R c → Prog C R ε α)

namespace Prog

variable {C C' : Type} {R : C → Type} {R' : C' → Type} {ε α β l W : Type}

/-! ## Sequencing and exceptions -/

/-- Sequencing: the first program's value starts the second. -/
def bind : Prog C R ε α → (α → Prog C R ε β) → Prog C R ε β
  | .ret a, f => f a
  | .throw e, _ => .throw e
  | .call c k, f => .call c fun r => (k r).bind f

/-- `try p catch h`. -/
def tryCatch : Prog C R ε α → (ε → Prog C R ε α) → Prog C R ε α
  | .ret a, _ => .ret a
  | .throw e, h => h e
  | .call c k, h => .call c fun r => (k r).tryCatch h

/-- The program that issues one command and returns its reply. -/
def perform (c : C) : Prog C R ε (R c) := .call c .ret

instance : Monad (Prog C R ε) where
  pure := .ret
  bind := bind

instance : MonadExceptOf ε (Prog C R ε) where
  throw := .throw
  tryCatch := tryCatch

@[simp] theorem pure_eq (a : α) : (pure a : Prog C R ε α) = .ret a := rfl

@[simp] theorem ret_bind (a : α) (f : α → Prog C R ε β) :
    ((.ret a : Prog C R ε α) >>= f) = f a := rfl

@[simp] theorem throw_bind (e : ε) (f : α → Prog C R ε β) :
    ((.throw e : Prog C R ε α) >>= f) = .throw e := rfl

@[simp] theorem call_bind (c : C) (k : R c → Prog C R ε α) (f : α → Prog C R ε β) :
    (.call c k >>= f) = .call c fun r => k r >>= f := rfl

@[simp] theorem perform_bind (c : C) (f : R c → Prog C R ε β) :
    (perform c >>= f) = .call c f := rfl

@[simp] theorem throw_eq (e : ε) : (MonadExcept.throw e : Prog C R ε α) = .throw e := rfl

@[simp] theorem throwThe_eq (e : ε) : (throwThe ε e : Prog C R ε α) = .throw e := rfl

@[simp] theorem tryCatch_eq (p : Prog C R ε α) (h : ε → Prog C R ε α) :
    MonadExcept.tryCatch p h = p.tryCatch h := rfl

@[simp] theorem tryCatchThe_eq (p : Prog C R ε α) (h : ε → Prog C R ε α) :
    tryCatchThe ε p h = p.tryCatch h := rfl

@[simp] theorem ret_tryCatch (a : α) (h : ε → Prog C R ε α) :
    (.ret a : Prog C R ε α).tryCatch h = .ret a := rfl

@[simp] theorem throw_tryCatch (e : ε) (h : ε → Prog C R ε α) :
    (.throw e : Prog C R ε α).tryCatch h = h e := rfl

@[simp] theorem call_tryCatch (c : C) (k : R c → Prog C R ε α) (h : ε → Prog C R ε α) :
    (Prog.call c k).tryCatch h = .call c fun r => (k r).tryCatch h := rfl

theorem bind_ret (p : Prog C R ε α) : p >>= .ret = p := by
  induction p with
  | ret a => rfl
  | throw e => rfl
  | call c k ih =>
      rw [call_bind]
      exact congrArg (Prog.call c) (funext ih)

theorem bind_bind (p : Prog C R ε α) (f : α → Prog C R ε β) (g : β → Prog C R ε l) :
    (p >>= f) >>= g = p >>= fun a => f a >>= g := by
  induction p with
  | ret a => rfl
  | throw e => rfl
  | call c k ih =>
      simp only [call_bind]
      exact congrArg (Prog.call c) (funext ih)

instance : LawfulMonad (Prog C R ε) :=
  LawfulMonad.mk' _ bind_ret (fun _ _ => rfl) bind_bind

/-! ## Running alone -/

/-- Run a program alone from the state `w`; `h` answers each command and moves
the state. -/
def eval (h : (c : C) → W → R c × W) : Prog C R ε α → W → Except ε α × W
  | .ret a, w => (.ok a, w)
  | .throw e, w => (.error e, w)
  | .call c k, w => (k (h c w).1).eval h (h c w).2

section Eval

variable (h : (c : C) → W → R c × W)

@[simp] theorem eval_ret (a : α) (w : W) :
    (.ret a : Prog C R ε α).eval h w = (.ok a, w) := rfl

@[simp] theorem eval_throw (e : ε) (w : W) :
    (.throw e : Prog C R ε α).eval h w = (.error e, w) := rfl

@[simp] theorem eval_call (c : C) (k : R c → Prog C R ε α) (w : W) :
    (Prog.call c k).eval h w = (k (h c w).1).eval h (h c w).2 := rfl

theorem eval_bind (p : Prog C R ε α) (f : α → Prog C R ε β) (w : W) :
    (p >>= f).eval h w =
      match p.eval h w with
      | (.ok a, w') => (f a).eval h w'
      | (.error e, w') => (.error e, w') := by
  induction p generalizing w with
  | ret a => rfl
  | throw e => rfl
  | call c k ih => exact ih _ _

theorem eval_tryCatch (p : Prog C R ε α) (g : ε → Prog C R ε α) (w : W) :
    (p.tryCatch g).eval h w =
      match p.eval h w with
      | (.ok a, w') => (.ok a, w')
      | (.error e, w') => (g e).eval h w' := by
  induction p generalizing w with
  | ret a => rfl
  | throw e => rfl
  | call c k ih => exact ih _ _

end Eval

/-! ## Replacing commands by programs -/

/-- Replace every command by a program over a lower signature. -/
def expand (f : (c : C) → Prog C' R' ε (R c)) : Prog C R ε α → Prog C' R' ε α
  | .ret a => .ret a
  | .throw e => .throw e
  | .call c k => (f c).bind fun r => (k r).expand f

/-- The program with its outcome, result or error, as its value. -/
def attempt {δ : Type} : Prog C R ε α → Prog C R δ (Except ε α)
  | .ret a => .ret (.ok a)
  | .throw e => .ret (.error e)
  | .call c k => .call c fun r => (k r).attempt

section Expand

variable (f : (c : C) → Prog C' R' ε (R c))

@[simp] theorem expand_ret (a : α) : (.ret a : Prog C R ε α).expand f = .ret a := rfl

@[simp] theorem expand_throw (e : ε) : (.throw e : Prog C R ε α).expand f = .throw e := rfl

@[simp] theorem expand_call (c : C) (k : R c → Prog C R ε α) :
    (Prog.call c k).expand f = f c >>= fun r => (k r).expand f := rfl

end Expand

/-! ## Weakest preconditions -/

/-- The weakest precondition of a program, over any carrier `l`.  `Φ` is the
meaning of one command, `Q` the postcondition on values and `E` the one on
errors. -/
def wp (Φ : (c : C) → (R c → l) → l) (Q : α → l) (E : ε → l) : Prog C R ε α → l
  | .ret a => Q a
  | .throw e => E e
  | .call c k => Φ c fun r => (k r).wp Φ Q E

section Wp

variable (Φ : (c : C) → (R c → l) → l)

@[simp] theorem wp_ret (Q : α → l) (E : ε → l) (a : α) :
    (.ret a : Prog C R ε α).wp Φ Q E = Q a := rfl

@[simp] theorem wp_throw (Q : α → l) (E : ε → l) (e : ε) :
    (.throw e : Prog C R ε α).wp Φ Q E = E e := rfl

@[simp] theorem wp_call (Q : α → l) (E : ε → l) (c : C) (k : R c → Prog C R ε α) :
    (Prog.call c k).wp Φ Q E = Φ c fun r => (k r).wp Φ Q E := rfl

theorem wp_bind (Q : β → l) (E : ε → l) (p : Prog C R ε α) (f : α → Prog C R ε β) :
    (p >>= f).wp Φ Q E = p.wp Φ (fun a => (f a).wp Φ Q E) E := by
  induction p with
  | ret a => rfl
  | throw e => rfl
  | call c k ih => exact congrArg (Φ c) (funext ih)

theorem wp_tryCatch (Q : α → l) (E : ε → l) (p : Prog C R ε α) (h : ε → Prog C R ε α) :
    (p.tryCatch h).wp Φ Q E = p.wp Φ Q fun e => (h e).wp Φ Q E := by
  induction p with
  | ret a => rfl
  | throw e => rfl
  | call c k ih => exact congrArg (Φ c) (funext ih)

/-- The sequencing rule, over a ghost state. -/
theorem wp_seq {G : Type} {Φ : (c : C) → (R c → G → Prop) → G → Prop} {Q : β → G → Prop}
    {E : ε → G → Prop} {p : Prog C R ε α} {f : α → Prog C R ε β} {g : G}
    (h : p.wp Φ (fun a => (f a).wp Φ Q E) E g) : (p >>= f).wp Φ Q E g := by
  rw [wp_bind]
  exact h

/-- The rule for `try p catch h`, over a ghost state. -/
theorem wp_try {G : Type} {Φ : (c : C) → (R c → G → Prop) → G → Prop} {Q : α → G → Prop}
    {E : ε → G → Prop} {p : Prog C R ε α} {h : ε → Prog C R ε α} {g : G}
    (hp : p.wp Φ Q (fun e => (h e).wp Φ Q E) g) : (p.tryCatch h).wp Φ Q E g := by
  rw [wp_tryCatch]
  exact hp

/-- The consequence rule, for a monotone meaning of commands. -/
theorem wp_mono {G : Type} {Φ : (c : C) → (R c → G → Prop) → G → Prop}
    (hΦ : ∀ c K K' g, (∀ r g, K r g → K' r g) → Φ c K g → Φ c K' g)
    {Q Q' : α → G → Prop} {E E' : ε → G → Prop} (hQ : ∀ a g, Q a g → Q' a g)
    (hE : ∀ e g, E e g → E' e g) {p : Prog C R ε α} {g : G} (h : p.wp Φ Q E g) :
    p.wp Φ Q' E' g := by
  induction p generalizing g with
  | ret a => exact hQ a g h
  | throw e => exact hE e g h
  | call c k ih => exact hΦ c _ _ g (fun r _ => ih r) h

theorem wp_attempt {δ : Type} (Q : Except ε α → l) (E : δ → l) (p : Prog C R ε α) :
    p.attempt.wp Φ Q E = p.wp Φ (fun a => Q (.ok a)) fun e => Q (.error e) := by
  induction p with
  | ret a => rfl
  | throw e => rfl
  | call c k ih => exact congrArg (Φ c) (funext ih)

/-- The weakest precondition of an expanded program gives each command the
meaning of the program that replaces it. -/
theorem wp_expand (f : (c : C') → Prog C R ε (R' c)) (Q : α → l) (E : ε → l)
    (p : Prog C' R' ε α) :
    (p.expand f).wp Φ Q E = p.wp (fun c K => (f c).wp Φ K E) Q E := by
  induction p with
  | ret a => rfl
  | throw e => rfl
  | call c k ih =>
      rw [expand_call, wp_bind, wp_call]
      congr
      funext r
      exact ih r

/-- The meaning of one command that is answered by `h`. -/
def answering (h : (c : C) → W → R c × W) (c : C) (K : R c → W → Prop) (w : W) : Prop :=
  K (h c w).1 (h c w).2

theorem answering_mono {h : (c : C) → W → R c × W} (c : C) (K K' : R c → W → Prop) (w : W)
    (hK : ∀ r w, K r w → K' r w) (hw : answering h c K w) : answering h c K' w :=
  hK _ _ hw

/-- A postcondition of a run. -/
def Ends (Q : α → W → Prop) (E : ε → W → Prop) : Except ε α × W → Prop
  | (.ok a, w) => Q a w
  | (.error e, w) => E e w

/-- Running alone meets what the weakest precondition promises. -/
theorem ends_eval_iff {h : (c : C) → W → R c × W} {Q : α → W → Prop} {E : ε → W → Prop}
    (p : Prog C R ε α) (w : W) : Ends Q E (p.eval h w) ↔ p.wp (answering h) Q E w := by
  induction p generalizing w with
  | ret a => rfl
  | throw e => rfl
  | call c k ih => exact ih _ _

/-- A postcondition of both ends holds of the state a run ends in. -/
theorem eval_of_wp {h : (c : C) → W → R c × W} {P : W → Prop} {p : Prog C R ε α} {w : W}
    (hp : p.wp (answering h) (fun _ => P) (fun _ => P) w) : P (p.eval h w).2 := by
  have hends := (ends_eval_iff p w).mpr hp
  revert hends
  obtain ⟨outcome, w'⟩ := p.eval h w
  cases outcome with
  | ok a => exact id
  | error e => exact id

/-- The rule for expanded programs.  The ghost state of the higher level is a
view of that of the lower level, and each command is replaced by a program that
meets its meaning on the views. -/
theorem wp_expand_view {G G' : Type} {Ψ : (c : C') → (R' c → G → Prop) → G → Prop}
    {Φ : (c : C) → (R c → G' → Prop) → G' → Prop}
    (hΦ : ∀ c K K' g, (∀ r g, K r g → K' r g) → Φ c K g → Φ c K' g) (view : G' → G)
    {Q : α → G → Prop} {E : ε → G → Prop} {f : (c : C') → Prog C R ε (R' c)}
    (hf : ∀ c K g, Ψ c K (view g) →
      (f c).wp Φ (fun r g => K r (view g)) (fun e g => E e (view g)) g)
    {p : Prog C' R' ε α} {g : G'} (h : p.wp Ψ Q E (view g)) :
    (p.expand f).wp Φ (fun a g => Q a (view g)) (fun e g => E e (view g)) g := by
  induction p generalizing g with
  | ret a => exact h
  | throw e => exact h
  | call c k ih =>
      rw [expand_call]
      exact wp_seq (wp_mono hΦ (fun r g hr => ih r hr) (fun _ _ he => he) (hf c _ g h))

end Wp

end Prog

/-! ## Results of `Except` -/

section Except

variable {ε α β : Type} {x : Except ε α} {b : β}

theorem bind_eq_ok {f : α → Except ε β} : x >>= f = .ok b ↔ ∃ a, x = .ok a ∧ f a = .ok b := by
  cases x with
  | error e =>
      refine ⟨fun h => ?_, fun ⟨a, ha, _⟩ => ?_⟩
      · cases h
      · cases ha
  | ok a =>
      refine ⟨fun h => ⟨a, rfl, h⟩, fun ⟨a', ha, h⟩ => ?_⟩
      cases ha
      exact h

theorem bind_eq_error {f : α → Except ε β} {e : ε} :
    x >>= f = .error e ↔ x = .error e ∨ ∃ a, x = .ok a ∧ f a = .error e := by
  cases x with
  | error e' =>
      refine ⟨fun h => .inl (congrArg Except.error (Except.error.inj h)), fun h => ?_⟩
      rcases h with h | ⟨a, ha, _⟩
      · exact congrArg Except.error (Except.error.inj h)
      · cases ha
  | ok a =>
      refine ⟨fun h => .inr ⟨a, rfl, h⟩, fun h => ?_⟩
      rcases h with h | ⟨a', ha, h⟩
      · cases h
      · cases ha
        exact h

theorem map_eq_error {f : α → β} {e : ε} : x.map f = .error e ↔ x = .error e := by
  cases x with
  | error e' => exact ⟨fun h => congrArg Except.error (Except.error.inj h), fun h => by rw [h]; rfl⟩
  | ok a =>
      refine ⟨fun h => ?_, fun h => ?_⟩
      · cases h
      · cases h

theorem map_eq_ok {f : α → β} : x.map f = .ok b ↔ ∃ a, x = .ok a ∧ f a = b := by
  cases x with
  | error e =>
      refine ⟨fun h => ?_, fun ⟨a, ha, _⟩ => ?_⟩
      · cases h
      · cases ha
  | ok a =>
      refine ⟨fun h => ⟨a, rfl, Except.ok.inj h⟩, fun ⟨a', ha, h⟩ => ?_⟩
      cases ha
      exact congrArg _ h

end Except

end Process
