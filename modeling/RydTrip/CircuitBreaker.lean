import RydTrip.Process.Prog

/-!
# The circuit breaker

`libraries/circuit-breaker/src/circuit-breaker.ts`.  JavaScript runs to
completion between awaits, so a call of `execute` is two atomic steps around the
wrapped function: `enter` decides whether the function is invoked, and
`onSuccess` or `onFailure` records its outcome.  Both read `Date.now()`, which
is an argument here.
-/

namespace RydTrip

open Process

inductive CircuitState where
  | closed | open | halfOpen
  deriving DecidableEq, Repr

structure CircuitBreaker where
  state : CircuitState
  consecutiveFailures : Nat
  openedAt : Nat
  failureThreshold : Nat
  resetTimeoutMs : Nat
  deriving DecidableEq, Repr

namespace CircuitBreaker

/-- A new breaker. -/
def new (failureThreshold resetTimeoutMs : Nat) : CircuitBreaker :=
  ⟨.closed, 0, 0, failureThreshold, resetTimeoutMs⟩

def getState (b : CircuitBreaker) (now : Nat) : CircuitState :=
  if b.state = .open ∧ b.openedAt + b.resetTimeoutMs ≤ now then .halfOpen else b.state

/-- The start of `execute`: `none` throws `CircuitOpenError`, otherwise the
wrapped function is invoked. -/
def enter (b : CircuitBreaker) (now : Nat) : Option CircuitBreaker :=
  match b.getState now with
  | .open => none
  | .halfOpen => some { b with state := .halfOpen }
  | .closed => some b

def onSuccess (b : CircuitBreaker) : CircuitBreaker :=
  { b with consecutiveFailures := 0, state := .closed }

def onFailure (b : CircuitBreaker) (now : Nat) : CircuitBreaker :=
  let b := { b with consecutiveFailures := b.consecutiveFailures + 1 }
  if b.state = .halfOpen ∨ b.failureThreshold ≤ b.consecutiveFailures then
    { b with state := .open, openedAt := now }
  else b

/-! ## A breaker that lets calls through -/

/-- A call that starts now invokes the function. -/
def Admits (b : CircuitBreaker) (now : Nat) : Prop := b.getState now ≠ .open

instance (b : CircuitBreaker) (now : Nat) : Decidable (b.Admits now) :=
  inferInstanceAs (Decidable (_ ≠ _))

theorem enter_eq_none {b : CircuitBreaker} {now : Nat} : b.enter now = none ↔ ¬ b.Admits now := by
  unfold enter Admits
  cases b.getState now with
  | closed => simp
  | «open» => simp
  | halfOpen => simp

theorem Admits.enter {b b' : CircuitBreaker} {now : Nat} (h : b.Admits now)
    (hb : b.enter now = some b') : b'.Admits now := by
  unfold CircuitBreaker.enter at hb
  split at hb
  · cases hb
  · cases hb
    simp [Admits, getState]
  · cases hb
    exact h

/-- Time only helps. -/
theorem Admits.later {b : CircuitBreaker} {now now' : Nat} (h : b.Admits now)
    (hle : now ≤ now') : b.Admits now' := by
  unfold Admits getState at *
  split at h
  next hopen =>
    rw [if_pos ⟨hopen.1, Nat.le_trans hopen.2 hle⟩]
    exact fun h => by cases h
  next =>
    split
    · exact fun h => by cases h
    · exact h

theorem onSuccess_admits (b : CircuitBreaker) (now : Nat) : b.onSuccess.Admits now := by
  simp [Admits, getState, onSuccess]

/-- A closed breaker lets calls through and stays as it is. -/
theorem enter_of_closed {b : CircuitBreaker} (h : b.state = .closed) (now : Nat) :
    b.enter now = some b := by
  have hs : b.getState now = .closed := by
    simp [getState, h]
  simp [CircuitBreaker.enter, hs]

/-! ## A breaker that never sees a failure -/

/-- The breaker is closed and has no failure on record. -/
def Healthy (b : CircuitBreaker) : Prop := b.state = .closed ∧ b.consecutiveFailures = 0

theorem new_healthy (f r : Nat) : (new f r).Healthy := ⟨rfl, rfl⟩

theorem Healthy.enter {b : CircuitBreaker} (h : b.Healthy) (now : Nat) : b.enter now = some b :=
  enter_of_closed h.1 now

theorem onSuccess_healthy (b : CircuitBreaker) : b.onSuccess.Healthy := ⟨rfl, rfl⟩

end CircuitBreaker

end RydTrip
