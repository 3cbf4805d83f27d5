import RydTrip.Process.Pool

/-!
# Taking a program up in the middle

A thread is what is left of a program after the replies in its log.  If the same
commands would get the same replies now, without changing the world, then the
thread goes on as the whole program would if it ran alone from now on.
-/

namespace Process

variable {W κ C ε α O A : Type} {R : C → Type}

namespace Prog

/-- What is left of a program after the log. -/
inductive Resumes (p₀ : Prog C R ε α) : Log C R → Prog C R ε α → Prop where
  | start : Resumes p₀ [] p₀
  | next {log : Log C R} {c : C} {k : R c → Prog C R ε α} (r : R c) :
      Resumes p₀ log (.call c k) → Resumes p₀ (⟨c, r⟩ :: log) (k r)

/-- The commands of the log would get the same replies now. -/
def Replays (h : (c : C) → W → R c × W) (w : W) (log : Log C R) : Prop :=
  ∀ e ∈ log, h e.1 w = (e.2, w)

variable {h : (c : C) → W → R c × W} {p₀ p : Prog C R ε α} {log : Log C R} {w : W}

theorem Resumes.eval (hp : p₀.Resumes log p) (hlog : Replays h w log) :
    p₀.eval h w = p.eval h w := by
  induction hp with
  | start => rfl
  | next r _ ih =>
      rw [ih fun e he => hlog e (.tail _ he), eval_call, hlog _ (.head _)]

/-- A program that has issued one command is the continuation of that command. -/
theorem Resumes.of_singleton {c : C} {r : R c} {k : R c → Prog C R ε α}
    (hp : (Prog.call c k).Resumes [⟨c, r⟩] p) : p = k r := by
  cases hp with
  | next r hp =>
      cases hp with
      | start => rfl

theorem Resumes.of_ret {a : α} (hp : (.ret a : Prog C R ε α).Resumes log p) : p = .ret a := by
  induction hp with
  | start => rfl
  | next r _ ih => cases ih

/-- Running alone ends as a specification over logs says, where `I` relates the
log to the world after each command. -/
theorem ends_of_wp {pre : (c : C) → Log C R → Prop} {Q : α → Log C R → Prop}
    {E : ε → Log C R → Prop} {I : Log C R → W → Prop}
    (hI : ∀ c log w, pre c log → I log w → I (⟨c, (h c w).1⟩ :: log) (h c w).2)
    (hp : p.wp (logSpec pre fun _ _ => True) Q E log) (hw : I log w) :
    ∃ log', I log' (p.eval h w).2 ∧
      ((∃ a, (p.eval h w).1 = .ok a ∧ Q a log') ∨ ∃ e, (p.eval h w).1 = .error e ∧ E e log') := by
  induction p generalizing log w with
  | ret a => exact ⟨log, hw, .inl ⟨a, rfl, hp⟩⟩
  | throw e => exact ⟨log, hw, .inr ⟨e, rfl, hp⟩⟩
  | call c k ih =>
      rw [eval_call]
      exact ih _ (hp.2 _ trivial) (hI c log w hp.1 hw)

end Prog

/-- Every thread is what is left of the program that it was started with. -/
theorem Machine.resumes_step {m : Machine W κ C R ε α O A} {prog : κ → Prog C R ε α}
    {s t : Pool W κ C R ε α} {a : Action κ O A}
    (hstart : ∀ call w p w', m.start call w = some (p, w') → p = prog call)
    (hs : ∀ i th, s.threads i = some th → (prog th.call).Resumes th.log th.prog)
    (h : m.Step s a t) :
    ∀ i th, t.threads i = some th → (prog th.call).Resumes th.log th.prog := by
  refine threads_step ?_ ?_ hs h
  · intro i call p _ hp
    cases hstart call _ p _ hp
    exact .start
  · intro i o call c k log r _ hi _
    exact (hs i _ hi).next r

end Process
