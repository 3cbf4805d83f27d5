import Mathlib.Order.WellFounded
import Mathlib.Data.Finset.Lattice.Fold
import RydTrip.Process.Pool

/-!
# Fair executions

An execution is an infinite run.  It is fair to a thread if it never stops
running the thread while the thread has a command to issue.  Programs are
finite trees, so a thread that is treated fairly finishes, whatever the other
threads and the world do.
-/

namespace Process

variable {W κ C ε α O A : Type} {R : C → Type}

namespace Machine

/-- The pools `σ n` are connected by the actions `act n`. -/
def Execution (m : Machine W κ C R ε α O A) (σ : Nat → Pool W κ C R ε α)
    (act : Nat → Action κ O A) : Prop :=
  ∀ n, m.next (σ n) (act n) = some (σ (n + 1))

/-- From every moment on, thread `i` runs again or is found to be finished. -/
def Fair (σ : Nat → Pool W κ C R ε α) (act : Nat → Action κ O A) (i : Nat) : Prop :=
  ∀ n, ∃ k, n ≤ k ∧ ((∃ o, act k = .run i o) ∨ ∀ th, (σ k).threads i = some th → ¬ th.Live)

section Executions

variable {m : Machine W κ C R ε α O A} {σ : Nat → Pool W κ C R ε α} {act : Nat → Action κ O A}
  {i n : Nat} {th : Thread κ C R ε α}

/-- The actions before the moment `n` are a run that leads to `σ n`. -/
theorem Execution.run (h : m.Execution σ act) (n : Nat) :
    m.run (σ 0) ((List.range n).map act) = some (σ n) := by
  induction n with
  | zero => rfl
  | succ n ih =>
      rw [List.range_succ, List.map_append, run_append, ih]
      simp only [Option.bind_some, List.map_cons, List.map_nil, run_cons, run_nil, h n]

/-- A step of another thread or of the world leaves a thread as it is. -/
theorem thread_of_other {s t : Pool W κ C R ε α} {a : Action κ O A} (h : m.Step s a t)
    (hi : s.threads i = some th) (ha : ∀ o, a ≠ .run i o) : t.threads i = some th := by
  cases h with
  | @spawn j call p w hj hp =>
      by_cases hij : i = j
      · rw [← hij, hi] at hj
        cases hj
      · exact (Function.update_of_ne hij ..).trans hi
  | @run j o call c k log r w hj hr =>
      by_cases hij : i = j
      · exact absurd (hij ▸ rfl) (ha o)
      · exact (Function.update_of_ne hij ..).trans hi
  | env hw => exact hi

/-- A thread that runs is live, and its log grows by what it issued. -/
theorem thread_of_run {s t : Pool W κ C R ε α} {o : O} (h : m.Step s (.run i o) t) :
    ∃ call c k log r, s.threads i = some ⟨call, .call c k, log⟩ ∧
      t.threads i = some ⟨call, k r, ⟨c, r⟩ :: log⟩ := by
  cases h with
  | run hi hr => exact ⟨_, _, _, _, _, hi, Function.update_self ..⟩

/-- A finished thread stays finished. -/
theorem Execution.finished (h : m.Execution σ act) (hi : (σ n).threads i = some th)
    (hth : ¬ th.Live) {k : Nat} (hk : n ≤ k) : (σ k).threads i = some th := by
  induction k, hk using Nat.le_induction with
  | base => exact hi
  | succ k _ ih =>
      refine thread_of_other (m.step_of_next (h k)) ih fun o ho => hth ?_
      have hstep := m.step_of_next (h k)
      rw [ho] at hstep
      obtain ⟨_, c, p, _, _, hrun, -⟩ := thread_of_run hstep
      rw [ih] at hrun
      cases hrun
      exact ⟨c, p, rfl⟩

/-- As long as thread `i` does not run, it is as it was. -/
theorem Execution.waiting (h : m.Execution σ act) (hi : (σ n).threads i = some th) {k : Nat}
    (hk : n ≤ k) (hno : ∀ j, n ≤ j → j < k → ∀ o, act j ≠ .run i o) :
    (σ k).threads i = some th := by
  induction k, hk using Nat.le_induction with
  | base => exact hi
  | succ k hnk ih =>
      refine thread_of_other (m.step_of_next (h k)) ?_ (hno k hnk (Nat.lt_succ_self k))
      exact ih fun j hj hjk => hno j hj (Nat.lt_succ_of_lt hjk)

/-- A thread that is treated fairly finishes. -/
theorem Execution.finishes (h : m.Execution σ act) (hfair : Fair σ act i)
    (hi : (σ n).threads i = some th) :
    ∃ k th', n ≤ k ∧ (σ k).threads i = some th' ∧ ¬ th'.Live := by
  obtain ⟨call, prog, log⟩ := th
  induction prog generalizing n log with
  | ret a => exact ⟨n, _, le_rfl, hi, fun ⟨c, k, hk⟩ => by cases hk⟩
  | throw e => exact ⟨n, _, le_rfl, hi, fun ⟨c, k, hk⟩ => by cases hk⟩
  | call c k ih =>
      -- the first moment from `n` on at which the thread runs or is finished
      classical
      have hex := hfair n
      let j := Nat.find hex
      obtain ⟨hnj, hj⟩ := Nat.find_spec hex
      have hwait : (σ j).threads i = some ⟨call, .call c k, log⟩ := by
        refine h.waiting hi hnj fun l hnl hlj o ho => ?_
        exact Nat.find_min hex hlj ⟨hnl, .inl ⟨o, ho⟩⟩
      have hrun : ∃ o, act j = .run i o := by
        rcases hj with ho | hdead
        · exact ho
        · exact absurd ⟨c, k, rfl⟩ (hdead _ hwait)
      obtain ⟨o, ho⟩ := hrun
      have hstep := m.step_of_next (h j)
      rw [ho] at hstep
      obtain ⟨_, _, _, _, r, hrun, hafter⟩ := thread_of_run hstep
      rw [hwait] at hrun
      cases hrun
      obtain ⟨l, th', hl, hth'⟩ := ih r _ hafter
      exact ⟨l, th', (Nat.le_succ_of_le hnj).trans hl, hth'⟩

/-- Finitely many threads that are treated fairly are all finished from some
moment on. -/
theorem Execution.all_finish (h : m.Execution σ act) (N : Nat)
    (hfair : ∀ i, i < N → Fair σ act i)
    (hi : ∀ i, i < N → ∃ th, (σ 0).threads i = some th) :
    ∃ n, ∀ k, n ≤ k → ∀ i, i < N → ∃ th, (σ k).threads i = some th ∧ ¬ th.Live := by
  have hex : ∀ i, ∃ k, i < N → ∃ th, (σ k).threads i = some th ∧ ¬ th.Live := by
    intro i
    by_cases hN : i < N
    · obtain ⟨th, hth⟩ := hi i hN
      obtain ⟨k, th', -, hk, hdead⟩ := h.finishes (hfair i hN) hth
      exact ⟨k, fun _ => ⟨th', hk, hdead⟩⟩
    · exact ⟨0, fun h => absurd h hN⟩
  choose k hk using hex
  refine ⟨(Finset.range N).sup k, fun l hl i hN => ?_⟩
  obtain ⟨th, hth, hdead⟩ := hk i hN
  have hle : k i ≤ (Finset.range N).sup k := Finset.le_sup (Finset.mem_range.mpr hN)
  exact ⟨th, h.finished hth hdead (hle.trans hl), hdead⟩

end Executions

end Machine

end Process
