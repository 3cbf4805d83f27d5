import RydTrip.CircuitBreaker

/-!
# What a circuit breaker makes of its history

Calls of `execute` that are made one after another.  The breaker keeps a state of
three values, a counter and a timestamp, and `HALF_OPEN` is both stored and
derived from the clock.  All of it is a function of the history: of the outcomes
of the calls that were let through, and of when they settled.

`History` is that function.  `Records` relates a breaker to the history behind
it, and every call preserves it.
-/

namespace RydTrip

namespace CircuitBreaker

/-! ## Calls -/

/-- One call of `execute`: when it starts, and when and how the function settles
if it is invoked. -/
structure Call where
  startedAt : Nat
  settledAt : Nat
  success : Bool
  deriving DecidableEq, Repr

inductive Outcome where
  /-- `CircuitOpenError`, and no invocation. -/
  | circuitOpen
  /-- The result of the function. -/
  | resolved
  /-- The exception of the function, rethrown. -/
  | rethrown
  deriving DecidableEq, Repr

def execute (b : CircuitBreaker) (call : Call) : Outcome × CircuitBreaker :=
  match b.enter call.startedAt with
  | none => (.circuitOpen, b)
  | some b =>
      if call.success then (.resolved, b.onSuccess)
      else (.rethrown, b.onFailure call.settledAt)

/-! ## The history -/

/-- The calls whose function was invoked, newest first. -/
abbrev History : Type := List Call

namespace History

/-- The invoked calls that have failed since the last success. -/
def failures : History → Nat
  | [] => 0
  | call :: h => if call.success then 0 else failures h + 1

/-- When the last failure happened. -/
def lastFailure (h : History) : Option Nat :=
  (h.find? fun call => !call.success).map (·.settledAt)

variable (failureThreshold resetTimeoutMs : Nat)

/-- The timeout has passed since the last failure. -/
def TimedOut (h : History) (now : Nat) : Prop :=
  ∃ failedAt, h.lastFailure = some failedAt ∧ failedAt + resetTimeoutMs ≤ now

instance (h : History) (now : Nat) : Decidable (h.TimedOut resetTimeoutMs now) :=
  decidable_of_iff (h.lastFailure.any fun failedAt => decide (failedAt + resetTimeoutMs ≤ now))
    (by simp [TimedOut, Option.any_eq_true])

/-- A call that starts now should invoke its function. -/
def Invokes (h : History) (now : Nat) : Prop :=
  h.failures < failureThreshold ∨ h.TimedOut resetTimeoutMs now

/-- What the state should be now. -/
def stateAt (h : History) (now : Nat) : CircuitState :=
  if h.failures < failureThreshold then .closed
  else if h.TimedOut resetTimeoutMs now then .halfOpen
  else .open

end History

/-- One call, and the history after it. -/
def step (p : CircuitBreaker × History) (call : Call) : CircuitBreaker × History :=
  let (outcome, b) := p.1.execute call
  (b, if outcome = .circuitOpen then p.2 else call :: p.2)

/-- A new breaker after calls that were made one after another, and the history
of the functions that it has let through. -/
def run (failureThreshold resetTimeoutMs : Nat) (calls : List Call) : CircuitBreaker × History :=
  calls.foldl step (new failureThreshold resetTimeoutMs, [])

/-- The breaker answers the next call by the history. -/
structure Conforms (b : CircuitBreaker) (h : History) (failureThreshold resetTimeoutMs : Nat)
    (call : Call) : Prop where
  invokes : (b.execute call).1 ≠ .circuitOpen ↔
    h.Invokes failureThreshold resetTimeoutMs call.startedAt
  rejects : ¬ h.Invokes failureThreshold resetTimeoutMs call.startedAt →
    b.execute call = (.circuitOpen, b)
  state : ∀ now, b.getState now = h.stateAt failureThreshold resetTimeoutMs now
  /-- While the function of the call has not settled. -/
  inFlight : ∀ b' now, b.enter call.startedAt = some b' → call.startedAt ≤ now →
    b'.getState now = h.stateAt failureThreshold resetTimeoutMs now

/-! ## The breaker records its history -/

structure Records (b : CircuitBreaker) (h : History) : Prop where
  positive : 1 ≤ b.failureThreshold
  count : b.consecutiveFailures = h.failures
  closed : h.failures < b.failureThreshold → b.state = .closed
  opened : b.failureThreshold ≤ h.failures → b.state = .open ∧ h.lastFailure = some b.openedAt

section Records

variable {b b' : CircuitBreaker} {h : History}

theorem new_records {failureThreshold resetTimeoutMs : Nat} (hf : 1 ≤ failureThreshold) :
    Records (new failureThreshold resetTimeoutMs) [] where
  positive := hf
  count := rfl
  closed _ := rfl
  opened hle := by
    have hle : failureThreshold ≤ 0 := hle
    omega

/-- The stored and the derived state are the state of the history. -/
theorem Records.getState (hb : Records b h) (now : Nat) :
    b.getState now = h.stateAt b.failureThreshold b.resetTimeoutMs now := by
  unfold CircuitBreaker.getState History.stateAt
  rcases Nat.lt_or_ge h.failures b.failureThreshold with hlt | hge
  · rw [if_pos hlt, hb.closed hlt]
    exact if_neg fun hopen => nomatch hopen.1
  · obtain ⟨hopen, hlast⟩ := hb.opened hge
    have htime : h.TimedOut b.resetTimeoutMs now ↔ b.openedAt + b.resetTimeoutMs ≤ now := by
      constructor
      · rintro ⟨failedAt, hfailed, hle⟩
        cases hlast.symm.trans hfailed
        exact hle
      · intro hle
        exact ⟨b.openedAt, hlast, hle⟩
    rw [if_neg (Nat.not_lt.mpr hge), hopen]
    by_cases hle : b.openedAt + b.resetTimeoutMs ≤ now
    · rw [if_pos ⟨rfl, hle⟩, if_pos (htime.mpr hle)]
    · rw [if_neg fun hboth => hle hboth.2, if_neg fun htimed => hle (htime.mp htimed)]

theorem History.invokes_iff {failureThreshold resetTimeoutMs now : Nat} :
    h.Invokes failureThreshold resetTimeoutMs now ↔
      h.stateAt failureThreshold resetTimeoutMs now ≠ .open := by
  unfold History.Invokes History.stateAt
  split
  next hlt => simp [hlt]
  next hlt =>
    split
    next htimed => simp [htimed]
    next htimed => simp [hlt, htimed]

/-- The function is invoked exactly if the history says so. -/
theorem Records.admits_iff (hb : Records b h) (now : Nat) :
    b.Admits now ↔ h.Invokes b.failureThreshold b.resetTimeoutMs now := by
  rw [History.invokes_iff, ← hb.getState now]
  rfl

/-- What the start of a call leaves: its state is the one that it has found. -/
theorem enter_eq_some {now : Nat} (hb : b.enter now = some b') :
    b' = { b with state := b.getState now } := by
  unfold enter at hb
  split at hb
  next hstate => cases hb
  next hstate =>
    cases hb
    rw [hstate]
  next hstate =>
    cases hb
    have hclosed : b.state = .closed := by
      unfold CircuitBreaker.getState at hstate
      split at hstate
      · cases hstate
      · exact hstate
    rw [hstate, ← hclosed]

/-- While the function is in flight, the state is what it was at the start. -/
theorem Records.enter (hb : Records b h) {now : Nat} (henter : b.enter now = some b') {later : Nat}
    (hle : now ≤ later) :
    b'.getState later = h.stateAt b.failureThreshold b.resetTimeoutMs later := by
  have hadmits : b.Admits now := Decidable.not_not.mp fun hnot => by
    rw [enter_eq_none.mpr hnot] at henter
    cases henter
  rw [enter_eq_some henter]
  rcases Nat.lt_or_ge h.failures b.failureThreshold with hlt | hge
  · have hclosed (t : Nat) : h.stateAt b.failureThreshold b.resetTimeoutMs t = .closed := if_pos hlt
    rw [hclosed, hb.getState now, hclosed]
    rfl
  · have hhalf {t : Nat} (htimed : h.TimedOut b.resetTimeoutMs t) :
        h.stateAt b.failureThreshold b.resetTimeoutMs t = .halfOpen := by
      unfold History.stateAt
      rw [if_neg (Nat.not_lt.mpr hge), if_pos htimed]
    have htimed : h.TimedOut b.resetTimeoutMs now := by
      rcases (hb.admits_iff now).mp hadmits with hlt | htimed
      · exact absurd hlt (Nat.not_lt.mpr hge)
      · exact htimed
    have hlater : h.TimedOut b.resetTimeoutMs later := by
      obtain ⟨failedAt, hlast, htime⟩ := htimed
      exact ⟨failedAt, hlast, Nat.le_trans htime hle⟩
    rw [hhalf hlater, hb.getState now, hhalf htimed]
    rfl

theorem Records.onSuccess (hb : Records b h) {now : Nat} (henter : b.enter now = some b')
    {call : Call} (hcall : call.success = true) : Records b'.onSuccess (call :: h) := by
  rw [enter_eq_some henter]
  have hzero : History.failures (call :: h) = 0 := by
    rw [History.failures, if_pos hcall]
  have hpos := hb.positive
  refine ⟨hpos, hzero.symm, fun _ => rfl, fun hle => ?_⟩
  have hle : b.failureThreshold ≤ History.failures (call :: h) := hle
  omega

theorem Records.onFailure (hb : Records b h) {now : Nat} (henter : b.enter now = some b')
    {call : Call} (hcall : call.success = false) :
    Records (b'.onFailure call.settledAt) (call :: h) := by
  have hfailures : History.failures (call :: h) = h.failures + 1 := by
    rw [History.failures, hcall]
    rfl
  have hlast : History.lastFailure (call :: h) = some call.settledAt := by
    rw [History.lastFailure, List.find?_cons, hcall]
    rfl
  have hcount := hb.count
  rw [enter_eq_some henter]
  unfold CircuitBreaker.onFailure
  -- a trial has found the threshold reached already
  have htrips : (b.getState now = .halfOpen ∨
      b.failureThreshold ≤ b.consecutiveFailures + 1) ↔ b.failureThreshold ≤ h.failures + 1 := by
    rw [hcount]
    constructor
    · rintro (hhalf | hle)
      · rcases Nat.lt_or_ge h.failures b.failureThreshold with hlt | hge
        · rw [hb.getState, History.stateAt, if_pos hlt] at hhalf
          cases hhalf
        · omega
      · exact hle
    · exact .inr
  dsimp only
  by_cases hle : b.failureThreshold ≤ h.failures + 1
  · rw [if_pos (htrips.mpr hle)]
    refine ⟨hb.positive, ?_, fun hlt => ?_, fun _ => ⟨rfl, hlast⟩⟩
    · rw [hfailures, ← hcount]
    · have hlt : History.failures (call :: h) < b.failureThreshold := hlt
      omega
  · rw [if_neg fun htrip => hle (htrips.mp htrip)]
    refine ⟨hb.positive, ?_, fun _ => ?_, fun hge => ?_⟩
    · rw [hfailures, ← hcount]
    · show b.getState now = .closed
      rw [hb.getState, History.stateAt, if_pos (by omega)]
    · have hge : b.failureThreshold ≤ History.failures (call :: h) := hge
      omega

theorem Records.step (hb : Records b h) (call : Call) :
    Records (CircuitBreaker.step (b, h) call).1 (CircuitBreaker.step (b, h) call).2 ∧
      (CircuitBreaker.step (b, h) call).1.failureThreshold = b.failureThreshold ∧
      (CircuitBreaker.step (b, h) call).1.resetTimeoutMs = b.resetTimeoutMs := by
  unfold CircuitBreaker.step execute
  cases henter : b.enter call.startedAt with
  | none => exact ⟨hb, rfl, rfl⟩
  | some b' =>
      have hf : b'.failureThreshold = b.failureThreshold := by rw [enter_eq_some henter]
      have hr : b'.resetTimeoutMs = b.resetTimeoutMs := by rw [enter_eq_some henter]
      cases hcall : call.success with
      | true => exact ⟨hb.onSuccess henter hcall, hf, hr⟩
      | false =>
          have hset (b : CircuitBreaker) (now : Nat) :
              (b.onFailure now).failureThreshold = b.failureThreshold ∧
                (b.onFailure now).resetTimeoutMs = b.resetTimeoutMs := by
            unfold CircuitBreaker.onFailure
            dsimp only
            split <;> exact ⟨rfl, rfl⟩
          obtain ⟨hf', hr'⟩ := hset b' call.settledAt
          exact ⟨hb.onFailure henter hcall, hf'.trans hf, hr'.trans hr⟩

theorem Records.conforms (hb : Records b h) (call : Call) :
    Conforms b h b.failureThreshold b.resetTimeoutMs call where
  invokes := by
    rw [← hb.admits_iff]
    unfold execute
    cases henter : b.enter call.startedAt with
    | none => simp [enter_eq_none.mp henter]
    | some b' =>
        have hadmits : b.Admits call.startedAt := by
          by_contra hnot
          rw [enter_eq_none.mpr hnot] at henter
          cases henter
        cases call.success <;> simp [hadmits]
  rejects hnot := by
    rw [← hb.admits_iff, ← enter_eq_none] at hnot
    unfold execute
    rw [hnot]
  state := hb.getState
  inFlight _ _ henter hle := hb.enter henter hle

end Records

/-! ## Runs -/

theorem Records.foldl {b : CircuitBreaker} {h : History} (hb : Records b h) (calls : List Call) :
    Records (calls.foldl CircuitBreaker.step (b, h)).1 (calls.foldl CircuitBreaker.step (b, h)).2 ∧
      (calls.foldl CircuitBreaker.step (b, h)).1.failureThreshold = b.failureThreshold ∧
      (calls.foldl CircuitBreaker.step (b, h)).1.resetTimeoutMs = b.resetTimeoutMs := by
  induction calls generalizing b h with
  | nil => exact ⟨hb, rfl, rfl⟩
  | cons call calls ih =>
      obtain ⟨hstep, hthreshold, htimeout⟩ := hb.step call
      obtain ⟨hrecords, hthreshold', htimeout'⟩ := ih hstep
      exact ⟨hrecords, hthreshold'.trans hthreshold, htimeout'.trans htimeout⟩

/-- After any calls made one after another, a breaker lets the next call through,
and shows a state, by the history alone. -/
theorem run_conforms {failureThreshold resetTimeoutMs : Nat} (hf : 1 ≤ failureThreshold)
    (calls : List Call) (call : Call) :
    Conforms (run failureThreshold resetTimeoutMs calls).1
      (run failureThreshold resetTimeoutMs calls).2 failureThreshold resetTimeoutMs call := by
  obtain ⟨hrecords, hthreshold, htimeout⟩ :=
    Records.foldl (new_records hf) calls
  have hconforms := hrecords.conforms call
  rw [hthreshold, htimeout] at hconforms
  exact hconforms

/-- Two failures trip the circuit, a trial call fails, and the timeout starts
again. -/
theorem run_conforms_trialFails :
    (run 2 10 [⟨0, 1, false⟩, ⟨2, 3, false⟩, ⟨4, 4, true⟩, ⟨13, 14, false⟩]).2 =
        [⟨13, 14, false⟩, ⟨2, 3, false⟩, ⟨0, 1, false⟩] ∧
      Conforms (run 2 10 [⟨0, 1, false⟩, ⟨2, 3, false⟩, ⟨4, 4, true⟩, ⟨13, 14, false⟩]).1
        (run 2 10 [⟨0, 1, false⟩, ⟨2, 3, false⟩, ⟨4, 4, true⟩, ⟨13, 14, false⟩]).2 2 10
        ⟨20, 21, true⟩ :=
  ⟨rfl, run_conforms (by decide) _ _⟩

end CircuitBreaker

end RydTrip
