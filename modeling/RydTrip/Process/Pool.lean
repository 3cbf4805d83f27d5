import RydTrip.Process.Prog

/-!
# Interleaved programs over a shared world

A pool is a world and a numbered set of threads.  A thread remembers the call
it was started for, the program it still has to run, and the log of the
commands it has issued with their replies, newest first.  The log is never read
by a program.  It is there so that invariants can speak of what a thread has
been told.

A `Machine` fixes the atomic effect of a command (`exec`), how a call starts
(`start`) and what the world does by itself (`env`).  Everything that is not
determined by the code (random draws, failures, replies of services outside the
model) comes in through an oracle attached to the action, so one action has one
outcome and runs can be computed.

A run is a list of actions.  `Along` says that every step of a run satisfies a
predicate.  `run_invariant` is the induction over runs.
-/

namespace Process

/-- A running or finished call. -/
structure Thread (κ C : Type) (R : C → Type) (ε α : Type) where
  /-- The call this thread was started for. -/
  call : κ
  /-- What is left to run. -/
  prog : Prog C R ε α
  /-- The commands issued so far with their replies, newest first. -/
  log : List (Σ c : C, R c)

/-- A world and the threads that share it. -/
structure Pool (W κ C : Type) (R : C → Type) (ε α : Type) where
  world : W
  threads : Nat → Option (Thread κ C R ε α)

/-- One scheduling decision: start a call as thread `i`, let thread `i` issue
its next command under the oracle `o`, or let the world move. -/
inductive Action (κ O A : Type) where
  | spawn (i : Nat) (call : κ)
  | run (i : Nat) (o : O)
  | env (a : A)

/-- What commands do, how calls start and how the world moves by itself.  Each
is partial: `none` means that the action is not possible now. -/
structure Machine (W κ C : Type) (R : C → Type) (ε α O A : Type) where
  exec : O → (c : C) → W → Option (R c × W)
  start : κ → W → Option (Prog C R ε α × W)
  env : A → W → Option W

/-- How a call to another party can go wrong: it is refused, or it takes effect
and the reply is lost. -/
inductive Fault where
  | none
  | refused (message : String)
  | lost (message : String)
  deriving DecidableEq, Repr

/-- What the caller sees of a call that would reply `a` and move the world to
`w'`, and what the call leaves behind. -/
def Fault.settle {W α : Type} (fault : Fault) (w : W) (a : α) (w' : W) : Except String α × W :=
  match fault with
  | .none => (.ok a, w')
  | .refused message => (.error message, w)
  | .lost message => (.error message, w')

@[simp] theorem Fault.settle_none {W α : Type} (w : W) (a : α) (w' : W) :
    Fault.none.settle w a w' = (.ok a, w') := rfl

def Fault.isRefused : Fault → Bool
  | .refused _ => true
  | _ => false

/-- The call takes effect. -/
def Fault.Effective (fault : Fault) : Prop := fault.isRefused = false

/-- Either the call is refused, or it takes effect and the reply is right if
there is one. -/
theorem Fault.settle_cases {W α : Type} (fault : Fault) (w : W) (a : α) (w' : W) :
    (∃ message, fault.settle w a w' = (.error message, w)) ∨
      (fault.Effective ∧ (fault.settle w a w').2 = w' ∧
        ∀ b, (fault.settle w a w').1 = .ok b → b = a) := by
  cases fault with
  | none => exact .inr ⟨rfl, rfl, fun b h => (Except.ok.inj h).symm⟩
  | refused message => exact .inl ⟨message, rfl⟩
  | lost message => exact .inr ⟨rfl, rfl, nofun⟩

/-- What a call does not touch stays, whatever goes wrong. -/
theorem Fault.settle_world {W α β : Type} (fault : Fault) {w w' : W} (a : α) {f : W → β}
    (hf : f w' = f w) : f (fault.settle w a w').2 = f w := by
  cases fault with
  | none => exact hf
  | refused message => rfl
  | lost message => exact hf

variable {W κ C ε α O A : Type} {R : C → Type}

/-- A thread that still has a command to issue. -/
def Thread.Live (th : Thread κ C R ε α) : Prop := ∃ c k, th.prog = .call c k

namespace Machine

variable (m : Machine W κ C R ε α O A)

/-- The outcome of one action. -/
def next (s : Pool W κ C R ε α) : Action κ O A → Option (Pool W κ C R ε α)
  | .spawn i call =>
      if (s.threads i).isNone then
        (m.start call s.world).map fun (p, w) =>
          ⟨w, Function.update s.threads i (some ⟨call, p, []⟩)⟩
      else none
  | .run i o =>
      match s.threads i with
      | some ⟨call, .call c k, log⟩ =>
          (m.exec o c s.world).map fun (r, w) =>
            ⟨w, Function.update s.threads i (some ⟨call, k r, ⟨c, r⟩ :: log⟩)⟩
      | _ => none
  | .env a => (m.env a s.world).map fun w => ⟨w, s.threads⟩

/-- The three ways a pool moves. -/
inductive Step : Pool W κ C R ε α → Action κ O A → Pool W κ C R ε α → Prop where
  | spawn {s : Pool W κ C R ε α} {i : Nat} {call : κ} {p : Prog C R ε α} {w : W} :
      s.threads i = none →
      m.start call s.world = some (p, w) →
      Step s (.spawn i call) ⟨w, Function.update s.threads i (some ⟨call, p, []⟩)⟩
  | run {s : Pool W κ C R ε α} {i : Nat} {o : O} {call : κ} {c : C} {k : R c → Prog C R ε α}
      {log : List (Σ c : C, R c)} {r : R c} {w : W} :
      s.threads i = some ⟨call, .call c k, log⟩ →
      m.exec o c s.world = some (r, w) →
      Step s (.run i o) ⟨w, Function.update s.threads i (some ⟨call, k r, ⟨c, r⟩ :: log⟩)⟩
  | env {s : Pool W κ C R ε α} {a : A} {w : W} :
      m.env a s.world = some w →
      Step s (.env a) ⟨w, s.threads⟩

theorem step_of_next {s s' : Pool W κ C R ε α} {a : Action κ O A}
    (h : m.next s a = some s') : m.Step s a s' := by
  cases a with
  | spawn i call =>
      simp only [next] at h
      split at h
      next hi =>
        obtain ⟨⟨p, w⟩, hp, rfl⟩ := Option.map_eq_some_iff.mp h
        exact .spawn (Option.isNone_iff_eq_none.mp hi) hp
      next => cases h
  | run i o =>
      simp only [next] at h
      split at h
      next call c k log hi =>
        obtain ⟨⟨r, w⟩, hr, rfl⟩ := Option.map_eq_some_iff.mp h
        exact .run hi hr
      next => cases h
  | env a =>
      obtain ⟨w, hw, rfl⟩ := Option.map_eq_some_iff.mp h
      exact .env hw

theorem next_of_step {s s' : Pool W κ C R ε α} {a : Action κ O A}
    (h : m.Step s a s') : m.next s a = some s' := by
  cases h with
  | spawn hi hp => simp [next, hi, hp]
  | run hi hr => simp [next, hi, hr]
  | env hw => simp [next, hw]

/-- The pool after a list of actions, if each of them was possible. -/
def run : Pool W κ C R ε α → List (Action κ O A) → Option (Pool W κ C R ε α)
  | s, [] => some s
  | s, a :: acts => (m.next s a).bind fun t => run t acts

/-- Run a test before every step. -/
def checks (p : Pool W κ C R ε α → Action κ O A → Bool) :
    Pool W κ C R ε α → List (Action κ O A) → Bool
  | _, [] => true
  | s, a :: acts => p s a && ((m.next s a).elim true fun t => checks p t acts)

/-- Every step of the run satisfies `P`, read at the pool before the step, the
action and the pool after it. -/
def Along (P : Pool W κ C R ε α → Action κ O A → Pool W κ C R ε α → Prop) :
    Pool W κ C R ε α → List (Action κ O A) → Prop
  | _, [] => True
  | s, a :: acts => ∀ t, m.next s a = some t → P s a t ∧ Along P t acts

variable {m} {s s' t : Pool W κ C R ε α} {acts acts' : List (Action κ O A)}
  {P Q : Pool W κ C R ε α → Action κ O A → Pool W κ C R ε α → Prop}

@[simp] theorem run_nil : m.run s [] = some s := rfl

theorem run_cons {a : Action κ O A} :
    m.run s (a :: acts) = (m.next s a).bind fun t => m.run t acts := rfl

theorem run_append : m.run s (acts ++ acts') = (m.run s acts).bind fun t => m.run t acts' := by
  induction acts generalizing s with
  | nil => rfl
  | cons a acts ih =>
      rw [List.cons_append, run_cons, run_cons, Option.bind_assoc]
      congr
      funext t
      exact ih

theorem along_true : m.Along (fun _ _ _ => True) s acts := by
  induction acts generalizing s with
  | nil => trivial
  | cons a acts ih => exact fun t _ => ⟨trivial, ih⟩

/-- A condition on the actions alone. -/
theorem along_of_forall {p : Action κ O A → Prop} (h : ∀ a ∈ acts, p a) :
    m.Along (fun _ a _ => p a) s acts := by
  induction acts generalizing s with
  | nil => trivial
  | cons a acts ih =>
      intro t _
      exact ⟨h a (.head _), ih fun b hb => h b (.tail _ hb)⟩

theorem along_of_checks {p : Pool W κ C R ε α → Action κ O A → Bool}
    (hp : ∀ s a t, p s a = true → P s a t) (h : m.checks p s acts = true) : m.Along P s acts := by
  induction acts generalizing s with
  | nil => trivial
  | cons a acts ih =>
      obtain ⟨ha, hacts⟩ := Bool.and_eq_true_iff.mp h
      intro t ht
      refine ⟨hp s a t ha, ih ?_⟩
      rw [ht] at hacts
      exact hacts

theorem Along.and (hP : m.Along P s acts) (hQ : m.Along Q s acts) :
    m.Along (fun s a t => P s a t ∧ Q s a t) s acts := by
  induction acts generalizing s with
  | nil => trivial
  | cons a acts ih =>
      intro t ht
      exact ⟨⟨(hP t ht).1, (hQ t ht).1⟩, ih (hP t ht).2 (hQ t ht).2⟩

theorem Along.mono (h : m.Along P s acts) (himp : ∀ s a t, P s a t → Q s a t) :
    m.Along Q s acts := by
  induction acts generalizing s with
  | nil => trivial
  | cons a acts ih =>
      intro t ht
      exact ⟨himp s a t (h t ht).1, ih (h t ht).2⟩

theorem Along.append (h : m.Along P s acts)
    (h' : ∀ t, m.run s acts = some t → m.Along P t acts') : m.Along P s (acts ++ acts') := by
  induction acts generalizing s with
  | nil => exact h' s rfl
  | cons a acts ih =>
      intro t ht
      refine ⟨(h t ht).1, ih (h t ht).2 fun u hu => h' u ?_⟩
      rw [run_cons, ht]
      exact hu

theorem Along.prefix (h : m.Along P s (acts ++ acts')) : m.Along P s acts := by
  induction acts generalizing s with
  | nil => trivial
  | cons a acts ih => exact fun t ht => ⟨(h t ht).1, ih (h t ht).2⟩

theorem Along.suffix (h : m.Along P s (acts ++ acts')) (hrun : m.run s acts = some t) :
    m.Along P t acts' := by
  induction acts generalizing s with
  | nil =>
      cases hrun
      exact h
  | cons a acts ih =>
      rw [run_cons] at hrun
      obtain ⟨u, hu, hrun⟩ := Option.bind_eq_some_iff.mp hrun
      exact ih (h u hu).2 hrun

/-- An invariant that every admissible step preserves holds at the end of every
run whose steps are admissible. -/
theorem run_invariant {I : Pool W κ C R ε α → Prop} (hs : I s)
    (hstep : ∀ t a u, I t → P t a u → m.Step t a u → I u)
    (hrun : m.run s acts = some s') (hP : m.Along P s acts) : I s' := by
  induction acts generalizing s with
  | nil =>
      cases hrun
      exact hs
  | cons a acts ih =>
      rw [run_cons] at hrun
      obtain ⟨t, ht, hrun⟩ := Option.bind_eq_some_iff.mp hrun
      obtain ⟨hPa, hPas⟩ := hP t ht
      exact ih (hstep s a t hs hPa (m.step_of_next ht)) hrun hPas

/-- The same without a condition on the steps. -/
theorem run_invariant' {I : Pool W κ C R ε α → Prop} (hs : I s)
    (hstep : ∀ t a u, I t → m.Step t a u → I u) (hrun : m.run s acts = some s') : I s' :=
  run_invariant (P := fun _ _ _ => True) hs (fun t a u ht _ => hstep t a u ht) hrun along_true

/-- Two step predicates that agree wherever an invariant holds agree along every
run. -/
theorem along_congr {I : Pool W κ C R ε α → Prop} (hs : I s)
    (hstep : ∀ t a u, I t → m.Step t a u → I u)
    (hPQ : ∀ t a u, I t → m.Step t a u → (P t a u ↔ Q t a u)) :
    m.Along P s acts ↔ m.Along Q s acts := by
  induction acts generalizing s with
  | nil => rfl
  | cons a acts ih =>
      refine forall_congr' fun t => imp_congr_right fun ht => ?_
      have h := m.step_of_next ht
      exact and_congr (hPQ s a t hs h) (ih (hstep s a t hs h))

/-- The same when only the steps that meet `Q` keep the invariant. -/
theorem along_iff_of_invariant {I : Pool W κ C R ε α → Prop} (hs : I s)
    (hstep : ∀ t a u, I t → Q t a u → m.Step t a u → I u)
    (hPQ : ∀ t a u, I t → m.Step t a u → (P t a u ↔ Q t a u)) :
    m.Along P s acts ↔ m.Along Q s acts := by
  induction acts generalizing s with
  | nil => rfl
  | cons a acts ih =>
      refine forall_congr' fun t => imp_congr_right fun ht => ?_
      have h := m.step_of_next ht
      constructor
      · rintro ⟨hP, hacts⟩
        have hQ := (hPQ s a t hs h).mp hP
        exact ⟨hQ, (ih (hstep s a t hs hQ h)).mp hacts⟩
      · rintro ⟨hQ, hacts⟩
        exact ⟨(hPQ s a t hs h).mpr hQ, (ih (hstep s a t hs hQ h)).mpr hacts⟩

/-- In runs whose steps meet `Q`, a property of the pools reached that survives a
step exactly if the step meets a condition holds throughout exactly if all steps
meet it. -/
theorem along_reached_iff_of {I J : Pool W κ C R ε α → Prop} (hs : I s) (hJ : J s)
    (hQ : m.Along Q s acts) (hstep : ∀ t a u, I t → Q t a u → m.Step t a u → I u)
    (hiff : ∀ t a u, I t → J t → Q t a u → m.Step t a u → (J u ↔ P t a u)) :
    m.Along (fun _ _ u => J u) s acts ↔ m.Along P s acts := by
  induction acts generalizing s with
  | nil => rfl
  | cons a acts ih =>
      refine forall_congr' fun t => imp_congr_right fun ht => ?_
      have h := m.step_of_next ht
      obtain ⟨hQt, hQ⟩ := hQ t ht
      constructor
      · rintro ⟨hJt, hacts⟩
        exact ⟨(hiff s a t hs hJ hQt h).mp hJt, (ih (hstep s a t hs hQt h) hJt hQ).mp hacts⟩
      · rintro ⟨hP, hacts⟩
        have hJt := (hiff s a t hs hJ hQt h).mpr hP
        exact ⟨hJt, (ih (hstep s a t hs hQt h) hJt hQ).mpr hacts⟩

/-- The same in all runs. -/
theorem along_reached_iff {I J : Pool W κ C R ε α → Prop} (hs : I s) (hJ : J s)
    (hstep : ∀ t a u, I t → m.Step t a u → I u)
    (hiff : ∀ t a u, I t → J t → m.Step t a u → (J u ↔ P t a u)) :
    m.Along (fun _ _ u => J u) s acts ↔ m.Along P s acts :=
  along_reached_iff_of (Q := fun _ _ _ => True) hs hJ along_true
    (fun t a u ht _ => hstep t a u ht) fun t a u ht hJt _ => hiff t a u ht hJt

end Machine

/-! ## Issued commands -/

/-- In the run, at the pool `u`, thread `i` issues the command of `e` and gets
the reply of `e`. -/
def Machine.Issues (m : Machine W κ C R ε α O A) (s : Pool W κ C R ε α)
    (acts : List (Action κ O A)) (i : Nat) (e : Σ c : C, R c) (u : Pool W κ C R ε α) : Prop :=
  ∃ acts₁ o acts₂ call k log w, acts = acts₁ ++ .run i o :: acts₂ ∧ m.run s acts₁ = some u ∧
    u.threads i = some ⟨call, .call e.1 k, log⟩ ∧ m.exec o e.1 u.world = some (e.2, w)

/-! ## Looking threads up after an update -/

theorem update_eq_some {K : Type} [DecidableEq K] {ts : K → Option α} {i j : K} {x y : α}
    (h : Function.update ts i (some x) j = some y) : (j = i ∧ y = x) ∨ (j ≠ i ∧ ts j = some y) := by
  by_cases hj : j = i
  · subst hj
    rw [Function.update_self] at h
    exact .inl ⟨rfl, (Option.some.inj h).symm⟩
  · rw [Function.update_of_ne hj] at h
    exact .inr ⟨hj, h⟩

theorem update_eq_none {K : Type} [DecidableEq K] {ts : K → Option α} {i j : K} {x : α}
    (h : Function.update ts i (some x) j = none) : j ≠ i ∧ ts j = none := by
  by_cases hj : j = i
  · subst hj
    rw [Function.update_self] at h
    cases h
  · rw [Function.update_of_ne hj] at h
    exact ⟨hj, h⟩

/-- What holds of the threads that a step has left alone, of one that it starts
and of one that it runs, holds of all threads afterwards. -/
theorem Machine.threads_step {m : Machine W κ C R ε α O A} {s t : Pool W κ C R ε α}
    {a : Action κ O A} {P : Nat → Thread κ C R ε α → Prop}
    (hstart : ∀ i call p, a = .spawn i call → m.start call s.world = some (p, t.world) →
      P i ⟨call, p, []⟩)
    (hrun : ∀ i o call c k log r, a = .run i o → s.threads i = some ⟨call, .call c k, log⟩ →
      m.exec o c s.world = some (r, t.world) → P i ⟨call, k r, ⟨c, r⟩ :: log⟩)
    (hold : ∀ i th, s.threads i = some th → P i th) (h : m.Step s a t) :
    ∀ i th, t.threads i = some th → P i th := by
  intro j th hj
  cases h with
  | spawn hi hp =>
      rcases update_eq_some hj with ⟨rfl, rfl⟩ | ⟨-, hj⟩
      · exact hstart j _ _ rfl hp
      · exact hold j th hj
  | run hi hr =>
      rcases update_eq_some hj with ⟨rfl, rfl⟩ | ⟨-, hj⟩
      · exact hrun j _ _ _ _ _ _ rfl hi hr
      · exact hold j th hj
  | env hw => exact hold j th hj

/-! ## Taking turns -/

/-- The next command of thread `i` is `c`. -/
def Pool.Issuing (s : Pool W κ C R ε α) (i : Nat) (c : C) : Prop :=
  ∃ call k log, s.threads i = some ⟨call, .call c k, log⟩

/-- A thread only moves while no later one has started. -/
def InTurn (s : Pool W κ C R ε α) : Action κ O A → Prop
  | .spawn i _ => ∀ j, i < j → s.threads j = none
  | .run i _ => ∀ j, i < j → s.threads j = none
  | .env _ => True

/-- A thread after which there is no other is not older than one that has just
moved. -/
theorem not_lt_of_last {ts : Nat → Option α} {i j : Nat} {x : α}
    (hlast : ∀ k, j < k → Function.update ts i (some x) k = none) : ¬ j < i := by
  intro hlt
  have hnone := hlast i hlt
  rw [Function.update_self] at hnone
  cases hnone

/-- The threads of a run, in the order in which they move. -/
def turns : List (Action κ O A) → List Nat
  | [] => []
  | .spawn i _ :: acts => i :: turns acts
  | .run i _ :: acts => i :: turns acts
  | .env _ :: acts => turns acts

theorem Machine.along_inTurn {m : Machine W κ C R ε α O A} {s : Pool W κ C R ε α}
    {acts : List (Action κ O A)} (hacts : (turns acts).Pairwise (· ≤ ·))
    (hs : ∀ i th, s.threads i = some th → ∀ j ∈ turns acts, i ≤ j) :
    m.Along (fun s a _ => InTurn s a) s acts := by
  induction acts generalizing s with
  | nil => trivial
  | cons a acts ih =>
      intro t ht
      have hnone {i : Nat} (hi : i ∈ turns (a :: acts)) (j : Nat) (hij : i < j) :
          s.threads j = none := by
        cases hj : s.threads j with
        | none => rfl
        | some th => exact absurd (hs j th hj i hi) (Nat.not_le_of_lt hij)
      cases m.step_of_next ht with
      | spawn hi hp =>
          obtain ⟨hle, hacts⟩ := List.pairwise_cons.mp hacts
          refine ⟨hnone (.head _), ih hacts fun j th hj n hn => ?_⟩
          rcases update_eq_some hj with ⟨rfl, -⟩ | ⟨-, hj⟩
          · exact hle n hn
          · exact hs j th hj n (.tail _ hn)
      | run hi hr =>
          obtain ⟨hle, hacts⟩ := List.pairwise_cons.mp hacts
          refine ⟨hnone (.head _), ih hacts fun j th hj n hn => ?_⟩
          rcases update_eq_some hj with ⟨rfl, -⟩ | ⟨-, hj⟩
          · exact hle n hn
          · exact hs j th hj n (.tail _ hn)
      | env hw => exact ⟨trivial, ih hacts hs⟩

/-- What holds of the calls that are started holds of the calls of all threads. -/
theorem Machine.calls_step {m : Machine W κ C R ε α O A} {s t : Pool W κ C R ε α}
    {a : Action κ O A} {P : Nat → κ → Prop} (hs : ∀ i th, s.threads i = some th → P i th.call)
    (ha : ∀ i call, a = .spawn i call → P i call) (h : m.Step s a t) :
    ∀ i th, t.threads i = some th → P i th.call := by
  refine threads_step (P := fun i th => P i th.call) ?_ ?_ hs h
  · intro i call p hspawn _
    exact ha i call hspawn
  · intro i o call c k log r _ hi _
    exact hs i ⟨call, .call c k, log⟩ hi

theorem Machine.along_calls {m : Machine W κ C R ε α O A} {s : Pool W κ C R ε α}
    {acts : List (Action κ O A)} {P : Nat → κ → Prop}
    (hs : ∀ i th, s.threads i = some th → P i th.call)
    (hacts : ∀ i call, .spawn i call ∈ acts → P i call) :
    m.Along (fun s _ _ => ∀ i th, s.threads i = some th → P i th.call) s acts := by
  induction acts generalizing s with
  | nil => trivial
  | cons a acts ih =>
      intro t ht
      refine ⟨hs, ih ?_ fun i call hmem => hacts i call (.tail _ hmem)⟩
      exact calls_step hs (fun i call ha => hacts i call (ha ▸ .head _)) (m.step_of_next ht)

theorem Machine.calls_of_run {m : Machine W κ C R ε α O A} {s t : Pool W κ C R ε α}
    {acts : List (Action κ O A)} {P : Nat → κ → Prop}
    (hs : ∀ i th, s.threads i = some th → P i th.call)
    (hacts : ∀ i call, .spawn i call ∈ acts → P i call) (hrun : m.run s acts = some t) :
    ∀ i th, t.threads i = some th → P i th.call := by
  induction acts generalizing s with
  | nil =>
      cases hrun
      exact hs
  | cons a acts ih =>
      rw [run_cons] at hrun
      obtain ⟨u, hu, hrun⟩ := Option.bind_eq_some_iff.mp hrun
      refine ih ?_ (fun i call hmem => hacts i call (.tail _ hmem)) hrun
      exact calls_step hs (fun i call ha => hacts i call (ha ▸ .head _)) (m.step_of_next hu)

/-! ## Reading a log back -/

theorem Machine.Issues.cons {m : Machine W κ C R ε α O A} {s t u : Pool W κ C R ε α}
    {a : Action κ O A} {acts : List (Action κ O A)} {i : Nat} {e : Σ c : C, R c}
    (hnext : m.next s a = some t) (h : m.Issues t acts i e u) : m.Issues s (a :: acts) i e u := by
  obtain ⟨acts₁, o, acts₂, call, k, log, w, rfl, hrun, hu⟩ := h
  refine ⟨a :: acts₁, o, acts₂, call, k, log, w, rfl, ?_, hu⟩
  rw [run_cons, hnext]
  exact hrun

/-- What a log says was said at some moment of the run, or before it. -/
theorem Machine.issues_of_mem_log {m : Machine W κ C R ε α O A} {s s' : Pool W κ C R ε α}
    {acts : List (Action κ O A)} {i : Nat} {th' : Thread κ C R ε α} {e : Σ c : C, R c}
    (hrun : m.run s acts = some s') (hth : s'.threads i = some th') (he : e ∈ th'.log) :
    (∃ th, s.threads i = some th ∧ e ∈ th.log) ∨ ∃ u, m.Issues s acts i e u := by
  induction acts generalizing s with
  | nil =>
      cases hrun
      exact .inl ⟨th', hth, he⟩
  | cons a acts ih =>
      rw [run_cons] at hrun
      obtain ⟨t, ht, hrun⟩ := Option.bind_eq_some_iff.mp hrun
      rcases ih hrun with ⟨th, hi, hmem⟩ | ⟨u, hu⟩
      · cases m.step_of_next ht with
        | spawn hnone hp =>
            rcases update_eq_some hi with ⟨-, rfl⟩ | ⟨-, hi⟩
            · cases hmem
            · exact .inl ⟨th, hi, hmem⟩
        | run hj hr =>
            rcases update_eq_some hi with ⟨rfl, rfl⟩ | ⟨-, hi⟩
            · rcases List.mem_cons.mp hmem with rfl | hmem
              · exact .inr ⟨s, [], _, acts, _, _, _, _, rfl, rfl, hj, hr⟩
              · exact .inl ⟨_, hj, hmem⟩
            · exact .inl ⟨th, hi, hmem⟩
        | env hw => exact .inl ⟨th, hi, hmem⟩
      · exact .inr ⟨u, hu.cons ht⟩

/-! ## What threads know from their logs

Programs are judged against their own log: `pre` is what a command may be
issued on, given the log so far, and `post` is what its reply is known to
satisfy in every state of the world. -/

/-- The commands issued so far with their replies, newest first. -/
abbrev Log (C : Type) (R : C → Type) : Type := List (Σ c : C, R c)

/-- The meaning of one command over logs. -/
def logSpec (pre : (c : C) → Log C R → Prop) (post : (c : C) → R c → Prop) (c : C)
    (K : R c → Log C R → Prop) (log : Log C R) : Prop :=
  pre c log ∧ ∀ r, post c r → K r (⟨c, r⟩ :: log)

theorem logSpec_mono {pre : (c : C) → Log C R → Prop} {post : (c : C) → R c → Prop} (c : C)
    (K K' : R c → Log C R → Prop) (log : Log C R) (hK : ∀ r log, K r log → K' r log)
    (h : logSpec pre post c K log) : logSpec pre post c K' log :=
  ⟨h.1, fun r hr => hK r _ (h.2 r hr)⟩

/-- From the log on, every command of the program is issued on a log that meets
`pre`, whatever replies within `post` it gets. -/
def Prog.Obeys (pre : (c : C) → Log C R → Prop) (post : (c : C) → R c → Prop)
    (p : Prog C R ε α) (log : Log C R) : Prop :=
  p.wp (logSpec pre post) (fun _ _ => True) (fun _ _ => True) log

section Obeys

variable {pre : (c : C) → Log C R → Prop} {post : (c : C) → R c → Prop} {log : Log C R}
  {β : Type}

@[simp] theorem obeys_ret (a : α) : (.ret a : Prog C R ε α).Obeys pre post log := trivial

@[simp] theorem obeys_throw (e : ε) : (.throw e : Prog C R ε α).Obeys pre post log := trivial

@[simp] theorem obeys_call {c : C} {k : R c → Prog C R ε α} :
    (Prog.call c k).Obeys pre post log ↔
      pre c log ∧ ∀ r, post c r → (k r).Obeys pre post (⟨c, r⟩ :: log) := Iff.rfl

theorem Prog.Obeys.bind {p : Prog C R ε α} {f : α → Prog C R ε β} (hp : p.Obeys pre post log)
    (hf : ∀ a log, (f a).Obeys pre post log) : (p >>= f).Obeys pre post log := by
  induction p generalizing log with
  | ret a => exact hf a log
  | throw e => trivial
  | call c k ih => exact ⟨hp.1, fun r hr => ih r (hp.2 r hr)⟩

theorem Prog.Obeys.tryCatch {p : Prog C R ε α} {h : ε → Prog C R ε α}
    (hp : p.Obeys pre post log) (hh : ∀ e log, (h e).Obeys pre post log) :
    (p.tryCatch h).Obeys pre post log := by
  induction p generalizing log with
  | ret a => trivial
  | throw e => exact hh e log
  | call c k ih => exact ⟨hp.1, fun r hr => ih r (hp.2 r hr)⟩

theorem Prog.Obeys.mono {pre' : (c : C) → Log C R → Prop} {p : Prog C R ε α}
    (hpre : ∀ c log, pre c log → pre' c log) (hp : p.Obeys pre post log) :
    p.Obeys pre' post log := by
  induction p generalizing log with
  | ret a => trivial
  | throw e => trivial
  | call c k ih => exact ⟨hpre c log hp.1, fun r hr => ih r (hp.2 r hr)⟩

/-- A specification that asks nothing. -/
theorem Prog.wp_logSpec_of_forall {p : Prog C R ε α} {Q : α → Log C R → Prop}
    {E : ε → Log C R → Prop} (hpre : ∀ c log, pre c log) (hQ : ∀ a log, Q a log)
    (hE : ∀ e log, E e log) : p.wp (logSpec pre post) Q E log := by
  induction p generalizing log with
  | ret a => exact hQ a log
  | throw e => exact hE e log
  | call c k ih => exact ⟨hpre c log, fun r _ => ih r⟩

/-- If calls start as programs that meet their specification and the replies of
this step stay within `post`, every thread goes on meeting its specification
from its log on.  The specification may depend on the call. -/
theorem Machine.wp_step {m : Machine W κ C R ε α O A} {pre : κ → (c : C) → Log C R → Prop}
    {post : (c : C) → R c → Prop} {Q : κ → α → Log C R → Prop} {E : κ → ε → Log C R → Prop}
    {s t : Pool W κ C R ε α} {a : Action κ O A}
    (hstart : ∀ i call w p w', a = .spawn i call → m.start call w = some (p, w') →
      p.wp (logSpec (pre call) post) (Q call) (E call) [])
    (hpost : ∀ i o c r w', a = .run i o → m.exec o c s.world = some (r, w') → post c r)
    (hs : ∀ i th, s.threads i = some th →
      th.prog.wp (logSpec (pre th.call) post) (Q th.call) (E th.call) th.log)
    (h : m.Step s a t) :
    ∀ i th, t.threads i = some th →
      th.prog.wp (logSpec (pre th.call) post) (Q th.call) (E th.call) th.log := by
  refine threads_step ?_ ?_ hs h
  · intro i call p ha hp
    exact hstart i call s.world p t.world ha hp
  · intro i o call c k log r ha hi hr
    exact (hs i _ hi).2 r (hpost i o c r t.world ha hr)

/-- The case of a specification without a postcondition. -/
theorem Machine.obeys_step {m : Machine W κ C R ε α O A} {P : κ → (c : C) → Log C R → Prop}
    {post : (c : C) → R c → Prop} {s t : Pool W κ C R ε α} {a : Action κ O A}
    (hstart : ∀ i call w p w', a = .spawn i call → m.start call w = some (p, w') →
      p.Obeys (P call) post [])
    (hpost : ∀ i o c r w', a = .run i o → m.exec o c s.world = some (r, w') → post c r)
    (hs : ∀ i th, s.threads i = some th → th.prog.Obeys (P th.call) post th.log)
    (h : m.Step s a t) : ∀ i th, t.threads i = some th →
      th.prog.Obeys (P th.call) post th.log :=
  Machine.wp_step (Q := fun _ _ _ => True) (E := fun _ _ _ => True) hstart hpost hs h

/-- Every command of the log was issued on a log that meets `pre` and got a
reply within `post`. -/
def Recorded (pre : (c : C) → Log C R → Prop) (post : (c : C) → R c → Prop) : Log C R → Prop
  | [] => True
  | ⟨c, r⟩ :: log => pre c log ∧ post c r ∧ Recorded pre post log

/-- An entry of the log was issued on the log below it. -/
theorem Recorded.of_mem {e : Σ c : C, R c} (h : Recorded pre post log) (he : e ∈ log) :
    ∃ older, pre e.1 older ∧ post e.1 e.2 ∧ Recorded pre post older := by
  induction log with
  | nil => cases he
  | cons e' log ih =>
      rcases List.mem_cons.mp he with rfl | he
      · exact ⟨log, h.1, h.2.1, h.2.2⟩
      · exact ih h.2.2 he

/-- The log below an entry is a part of the log. -/
theorem Recorded.of_mem_suffix {e : Σ c : C, R c} (h : Recorded pre post log) (he : e ∈ log) :
    ∃ older, older <:+ log ∧ pre e.1 older ∧ Recorded pre post older := by
  induction log with
  | nil => cases he
  | cons e' log ih =>
      rcases List.mem_cons.mp he with rfl | he
      · exact ⟨log, List.suffix_cons _ _, h.1, h.2.2⟩
      · obtain ⟨older, hsuffix, hrest⟩ := ih h.2.2 he
        exact ⟨older, hsuffix.trans (List.suffix_cons _ _), hrest⟩

/-- Threads that meet their specification keep a log that records it. -/
theorem Machine.recorded_step {m : Machine W κ C R ε α O A}
    {pre : κ → (c : C) → Log C R → Prop} {post : (c : C) → R c → Prop}
    {Q : κ → α → Log C R → Prop} {E : κ → ε → Log C R → Prop} {s t : Pool W κ C R ε α}
    {a : Action κ O A}
    (hpost : ∀ i o c r w', a = .run i o → m.exec o c s.world = some (r, w') → post c r)
    (hwp : ∀ i th, s.threads i = some th →
      th.prog.wp (logSpec (pre th.call) post) (Q th.call) (E th.call) th.log)
    (hs : ∀ i th, s.threads i = some th → Recorded (pre th.call) post th.log)
    (h : m.Step s a t) : ∀ i th, t.threads i = some th → Recorded (pre th.call) post th.log := by
  refine threads_step ?_ ?_ hs h
  · intro i call p _ _
    trivial
  · intro i o call c k log r ha hi hr
    exact ⟨(hwp i _ hi).1, hpost i o c r t.world ha hr, hs i _ hi⟩

end Obeys

end Process
