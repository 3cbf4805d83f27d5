import RydTrip.Process.Pool

/-!
# Typestates

A typestate is a ghost state that follows a program from command to command.
`pre` is what a command may be issued on, `post` is what its reply is known to
satisfy, and `next` is how the state moves on.  The typestate of a thread is the
fold of its log, so it needs no place in the pool.  `typestate_step` keeps every
thread within its specification.
-/

namespace Process

variable {W κ C ε α O A G : Type} {R : C → Type}

/-- The meaning of one command over typestates. -/
def typestateSpec (pre : (c : C) → G → Prop) (post : (c : C) → R c → Prop)
    (next : (c : C) → R c → G → G) (c : C) (K : R c → G → Prop) (g : G) : Prop :=
  pre c g ∧ ∀ r, post c r → K r (next c r g)

theorem typestateSpec_mono {pre : (c : C) → G → Prop} {post : (c : C) → R c → Prop}
    {next : (c : C) → R c → G → G} (c : C) (K K' : R c → G → Prop) (g : G)
    (hK : ∀ r g, K r g → K' r g) (h : typestateSpec pre post next c K g) :
    typestateSpec pre post next c K' g :=
  ⟨h.1, fun r hr => hK r _ (h.2 r hr)⟩

/-- The typestate that a log leads to. -/
def track (next : (c : C) → R c → G → G) (start : G) : Log C R → G
  | [] => start
  | ⟨c, r⟩ :: log => next c r (track next start log)

@[simp] theorem track_nil {next : (c : C) → R c → G → G} {start : G} :
    track next start [] = start := rfl

@[simp] theorem track_cons {next : (c : C) → R c → G → G} {start : G} {c : C} {r : R c}
    {log : Log C R} : track next start (⟨c, r⟩ :: log) = next c r (track next start log) := rfl

/-- The thread meets its specification from where its log has led it. -/
def Thread.Meets (pre : κ → (c : C) → G → Prop) (post : (c : C) → R c → Prop)
    (next : (c : C) → R c → G → G) (start : G) (Q : κ → G → Prop) (th : Thread κ C R ε α) : Prop :=
  th.prog.wp (typestateSpec (pre th.call) post next) (fun _ => Q th.call) (fun _ => Q th.call)
    (track next start th.log)

section Meets

variable {m : Machine W κ C R ε α O A} {pre : κ → (c : C) → G → Prop}
  {post : (c : C) → R c → Prop} {next : (c : C) → R c → G → G} {g : G} {Q : κ → G → Prop}
  {s t : Pool W κ C R ε α} {a : Action κ O A}

/-- If calls start as programs that meet their specification and the replies of
this step stay within `post`, every thread goes on meeting its specification. -/
theorem Machine.typestate_step
    (hstart : ∀ i call w p w', a = .spawn i call → m.start call w = some (p, w') →
      p.wp (typestateSpec (pre call) post next) (fun _ => Q call) (fun _ => Q call) g)
    (hpost : ∀ i o c r w', a = .run i o → m.exec o c s.world = some (r, w') → post c r)
    (hs : ∀ i th, s.threads i = some th → th.Meets pre post next g Q) (h : m.Step s a t) :
    ∀ i th, t.threads i = some th → th.Meets pre post next g Q := by
  refine threads_step ?_ ?_ hs h
  · intro i call p ha hp
    exact hstart i call s.world p t.world ha hp
  · intro i o call c k log r ha hi hr
    exact (hs i _ hi).2 r (hpost i o c r t.world ha hr)

/-- The next command of a thread is issued on a typestate that allows it. -/
theorem Thread.Meets.allows {call : κ} {c : C} {k : R c → Prog C R ε α} {log : Log C R}
    (h : Thread.Meets pre post next g Q ⟨call, .call c k, log⟩) : pre call c (track next g log) :=
  h.1

/-- A thread that has ended has reached its postcondition. -/
theorem Thread.Meets.ended {th : Thread κ C R ε α} (h : th.Meets pre post next g Q)
    (hlive : ¬ th.Live) : Q th.call (track next g th.log) := by
  obtain ⟨call, p, log⟩ := th
  cases p with
  | ret a => exact h
  | throw e => exact h
  | call c k => exact absurd ⟨c, k, rfl⟩ hlive

end Meets

end Process
