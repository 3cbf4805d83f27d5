import RydTrip.Process.Pool

/-!
# Programs that issue commands of one kind only

`Only P` says that every command a program can come to satisfies `P`, whatever
it is told on the way.  It composes without a log and without a state, and the
threads of a pool keep it.
-/

namespace Process

variable {W κ C C' ε α β O A : Type} {R : C → Type} {R' : C' → Type}

/-- All commands satisfy `P`. -/
def Prog.Only (P : C → Prop) : Prog C R ε α → Prop
  | .ret _ => True
  | .throw _ => True
  | .call c k => P c ∧ ∀ r, (k r).Only P

namespace Prog

variable {P : C → Prop}

theorem Only.bind {p : Prog C R ε α} {f : α → Prog C R ε β} (hp : p.Only P)
    (hf : ∀ a, (f a).Only P) : (p >>= f).Only P := by
  induction p with
  | ret a => exact hf a
  | throw e => trivial
  | call c k ih => exact ⟨hp.1, fun r => ih r (hp.2 r)⟩

theorem Only.tryCatch {p : Prog C R ε α} {h : ε → Prog C R ε α} (hp : p.Only P)
    (hh : ∀ e, (h e).Only P) : (p.tryCatch h).Only P := by
  induction p with
  | ret a => trivial
  | throw e => exact hh e
  | call c k ih => exact ⟨hp.1, fun r => ih r (hp.2 r)⟩

theorem Only.attempt {δ : Type} {p : Prog C R ε α} (hp : p.Only P) :
    (p.attempt : Prog C R δ (Except ε α)).Only P := by
  induction p with
  | ret a => trivial
  | throw e => trivial
  | call c k ih => exact ⟨hp.1, fun r => ih r (hp.2 r)⟩

/-- If what stands for a command of one kind is a program of the other kind. -/
theorem Only.expand {P' : C' → Prop} {f : (c : C') → Prog C R ε (R' c)} {p : Prog C' R' ε α}
    (hf : ∀ c, P' c → (f c).Only P) (hp : p.Only P') : (p.expand f).Only P := by
  induction p with
  | ret a => trivial
  | throw e => trivial
  | call c k ih => exact (hf c hp.1).bind fun r => ih r (hp.2 r)

theorem only_of_forall (h : ∀ c, P c) (p : Prog C R ε α) : p.Only P := by
  induction p with
  | ret a => trivial
  | throw e => trivial
  | call c k ih => exact ⟨h c, ih⟩

end Prog

/-- If calls start as programs of one kind, all threads go on being of this kind. -/
theorem Machine.only_step {m : Machine W κ C R ε α O A} {P : C → Prop}
    {s t : Pool W κ C R ε α} {a : Action κ O A}
    (hstart : ∀ call w p w', m.start call w = some (p, w') → p.Only P)
    (hs : ∀ i th, s.threads i = some th → th.prog.Only P) (h : m.Step s a t) :
    ∀ i th, t.threads i = some th → th.prog.Only P := by
  refine threads_step ?_ ?_ hs h
  · intro i call p _ hp
    exact hstart call s.world p t.world hp
  · intro i o call c k log r _ hi _
    exact (hs i _ hi).2 r

end Process
