import RydTrip.CircuitBreaker
import RydTrip.Process.Pool

/-!
# Overlapping calls of a circuit breaker

One breaker and any number of calls of `execute`.  What a call does before it
awaits the wrapped function is one step, and so is what it does when the
function has settled.  A call that has found the circuit half open is a trial.

The outcome of a call is recorded whatever has happened since it began.  So a
late success closes a circuit whose timeout still runs, and nothing keeps a
second call out while a trial is in flight.
-/

namespace RydTrip

namespace CircuitBreaker

open Process

/-! ## The machine -/

/-- A moment at which the circuit has gone from letting calls through to open,
and whether a call has succeeded since. -/
structure Trip where
  time : Nat
  closed : Bool
  deriving DecidableEq, Repr

/-- A breaker, the clock, and the trips so far. -/
structure Host where
  breaker : CircuitBreaker
  now : Nat
  trips : List Trip
  deriving DecidableEq, Repr

/-- `await fn()`, with the local variable that the call has set before it. -/
inductive Cmd where
  | await (currentState : CircuitState)
  deriving DecidableEq, Repr

/-- Whether the function has succeeded. -/
@[reducible] def Reply : Cmd → Type
  | .await _ => Bool

inductive ExecuteError where
  | circuitOpen
  | thrown
  deriving DecidableEq, Repr

/-- What is left of `execute` once the function is invoked. -/
def awaiting (currentState : CircuitState) : Prog Cmd Reply ExecuteError Unit := do
  let success : Bool ← Prog.perform (Cmd.await currentState)
  if success then return ()
  else throw .thrown

namespace Host

def onSuccess (w : Host) : Host :=
  { w with
    breaker := w.breaker.onSuccess
    trips := w.trips.map fun trip => { trip with closed := true } }

def onFailure (w : Host) : Host :=
  let breaker := w.breaker.onFailure w.now
  { w with
    breaker := breaker
    trips :=
      if w.breaker.Admits w.now ∧ ¬ breaker.Admits w.now then ⟨w.now, false⟩ :: w.trips
      else w.trips }

def settle (w : Host) (success : Bool) : Host :=
  if success then w.onSuccess else w.onFailure

/-- What `execute` does before it awaits. -/
def execute (w : Host) : Prog Cmd Reply ExecuteError Unit × Host :=
  match w.breaker.enter w.now with
  | none => (throw .circuitOpen, w)
  | some breaker => (awaiting (w.breaker.getState w.now), { w with breaker := breaker })

end Host

/-- The oracle says whether the function succeeds.  The clock never goes back. -/
def machine : Machine Host Unit Cmd Reply ExecuteError Unit Bool Nat where
  exec success c w := some (match c with | .await _ => (success, w.settle success))
  start _ w := some w.execute
  env ms w := some { w with now := w.now + ms }

abbrev BreakerPool : Type := Pool Host Unit Cmd Reply ExecuteError Unit

abbrev BreakerAction : Type := Action Unit Bool Nat

/-- A new breaker at some time, and no call. -/
def initial (failureThreshold resetTimeoutMs now : Nat) : BreakerPool :=
  ⟨⟨.new failureThreshold resetTimeoutMs, now, []⟩, fun _ => none⟩

/-! ## Safety -/

/-- The circuit has tripped at this time, and its timeout has not elapsed. -/
def Host.Running (w : Host) (trip : Trip) : Prop :=
  trip ∈ w.trips ∧ w.now < trip.time + w.breaker.resetTimeoutMs

/-- Call `i` is a trial whose function has not settled. -/
def Trial (s : BreakerPool) (i : Nat) : Prop :=
  ∃ call k log, s.threads i = some ⟨call, .call (.await .halfOpen) k, log⟩

/-- Call `i` was rejected without an invocation. -/
def Rejected (s : BreakerPool) (i : Nat) : Prop :=
  ∃ call log, s.threads i = some ⟨call, .throw .circuitOpen, log⟩

/-- A call that starts while a timeout runs or a trial is in flight is
rejected. -/
def StartsRejected (s : BreakerPool) (a : BreakerAction) (t : BreakerPool) : Prop :=
  ∀ i call, a = .spawn i call →
    ((∃ trip, s.world.Running trip) ∨ ∃ j, Trial s j) → Rejected t i

/-- At most one trial is in flight. -/
def OneTrial (s : BreakerPool) : Prop := ∀ i j, Trial s i → Trial s j → i = j

/-- The breaker keeps its promise along a run. -/
def OverlapSafe (s : BreakerPool) (acts : List BreakerAction) : Prop :=
  machine.Along StartsRejected s acts ∧ machine.Along (fun _ _ t => OneTrial t) s acts

/-- No call starts while a timeout runs that a success has cut short, or while a
trial is in flight, unless the circuit is open again. -/
def StartsApart (s : BreakerPool) (a : BreakerAction) (_ : BreakerPool) : Prop :=
  ∀ i call, a = .spawn i call →
    ((∃ trip, s.world.Running trip ∧ trip.closed = true) ∨ ∃ j, Trial s j) →
      ¬ s.world.breaker.Admits s.world.now

/-! ## A trip keeps the circuit open -/

/-- While the timeout of a trip runs and no call has succeeded, the circuit is
open, and its own timeout is not shorter. -/
def TripsHold (w : Host) : Prop :=
  ∀ trip, w.Running trip → trip.closed = false →
    w.breaker.state = .open ∧ trip.time ≤ w.breaker.openedAt

section Holds

variable {w : Host} {trip : Trip}

theorem not_admits_iff {b : CircuitBreaker} {now : Nat} :
    ¬ b.Admits now ↔ b.state = .open ∧ now < b.openedAt + b.resetTimeoutMs := by
  unfold Admits getState
  rw [Decidable.not_not]
  constructor
  · intro h
    split at h
    next => cases h
    next hrun =>
      refine ⟨h, ?_⟩
      by_contra hlt
      exact hrun ⟨h, Nat.le_of_not_lt hlt⟩
  · rintro ⟨hopen, hlt⟩
    rw [if_neg fun h => Nat.not_le_of_lt hlt h.2]
    exact hopen

theorem TripsHold.not_admits (h : TripsHold w) (hrun : w.Running trip)
    (hclosed : trip.closed = false) : ¬ w.breaker.Admits w.now := by
  obtain ⟨hopen, hle⟩ := h trip hrun hclosed
  have hlt := hrun.2
  exact not_admits_iff.mpr ⟨hopen, by omega⟩

theorem TripsHold.execute (h : TripsHold w) : TripsHold w.execute.2 := by
  unfold Host.execute
  split
  next => exact h
  next breaker hb =>
    intro trip hrun hclosed
    have hadmits : w.breaker.Admits w.now := by
      by_contra hopen
      rw [enter_eq_none.mpr hopen] at hb
      cases hb
    have hreset : breaker.resetTimeoutMs = w.breaker.resetTimeoutMs := by
      unfold enter at hb
      split at hb
      · cases hb
      · cases hb
        rfl
      · cases hb
        rfl
    have hrun : w.Running trip := ⟨hrun.1, hreset ▸ hrun.2⟩
    exact absurd hadmits (h.not_admits hrun hclosed)

theorem TripsHold.onSuccess : TripsHold w.onSuccess := by
  intro trip hrun hclosed
  obtain ⟨trip', -, rfl⟩ := List.mem_map.mp hrun.1
  cases hclosed

/-- A failure restarts the timeout or leaves it alone. -/
theorem onFailure_cases (b : CircuitBreaker) (now : Nat) :
    (b.onFailure now).resetTimeoutMs = b.resetTimeoutMs ∧
      (((b.onFailure now).state = .open ∧ (b.onFailure now).openedAt = now) ∨
        ((b.onFailure now).state = b.state ∧ (b.onFailure now).openedAt = b.openedAt)) := by
  unfold CircuitBreaker.onFailure
  dsimp only
  split
  · exact ⟨rfl, .inl ⟨rfl, rfl⟩⟩
  · exact ⟨rfl, .inr ⟨rfl, rfl⟩⟩

theorem TripsHold.onFailure (h : TripsHold w) (hpast : ∀ trip ∈ w.trips, trip.time ≤ w.now) :
    TripsHold w.onFailure := by
  rintro trip ⟨hmem, hlt⟩ hclosed
  obtain ⟨hreset, hcases⟩ := onFailure_cases w.breaker w.now
  change w.now < trip.time + (w.breaker.onFailure w.now).resetTimeoutMs at hlt
  change (w.breaker.onFailure w.now).state = .open ∧
    trip.time ≤ (w.breaker.onFailure w.now).openedAt
  have hold (hmem : trip ∈ w.trips) : (w.breaker.onFailure w.now).state = .open ∧
      trip.time ≤ (w.breaker.onFailure w.now).openedAt := by
    obtain ⟨hopen, hle⟩ := h trip ⟨hmem, hreset ▸ hlt⟩ hclosed
    rcases hcases with ⟨hst, hrestart⟩ | ⟨hst, hsame⟩
    · rw [hrestart]
      exact ⟨hst, hpast trip hmem⟩
    · rw [hsame]
      exact ⟨hst.trans hopen, hle⟩
  unfold Host.onFailure at hmem
  dsimp only at hmem
  split at hmem
  next htrip =>
    rcases List.mem_cons.mp hmem with rfl | hmem
    · obtain ⟨hopen, -⟩ := not_admits_iff.mp htrip.2
      rcases hcases with ⟨-, hrestart⟩ | ⟨hst, hsame⟩
      · exact ⟨hopen, Nat.le_of_eq hrestart.symm⟩
      · -- a breaker that has not moved lets calls through as before
        have hstill := htrip.2
        rw [not_admits_iff, hst, hsame, hreset, ← not_admits_iff] at hstill
        exact absurd htrip.1 hstill
    · exact hold hmem
  next => exact hold hmem

end Holds

/-! ## Steps -/

/-- The breaker part of the invariant: trips lie in the past and hold. -/
structure Sound (w : Host) : Prop where
  past : ∀ trip ∈ w.trips, trip.time ≤ w.now
  holds : TripsHold w

section Steps

variable {s t : BreakerPool} {a : BreakerAction}

theorem execute_frame (w : Host) : w.execute.2.trips = w.trips ∧ w.execute.2.now = w.now := by
  unfold Host.execute
  split
  · exact ⟨rfl, rfl⟩
  · exact ⟨rfl, rfl⟩

theorem initial_sound (failureThreshold resetTimeoutMs now : Nat) :
    Sound (initial failureThreshold resetTimeoutMs now).world where
  past := by
    intro trip hmem
    cases hmem
  holds := by
    intro trip hrun
    cases hrun.1

theorem Sound.settle {w : Host} (hw : Sound w) (success : Bool) : Sound (w.settle success) := by
  cases success with
  | true =>
      refine ⟨fun trip hmem => ?_, TripsHold.onSuccess⟩
      obtain ⟨trip', hmem', rfl⟩ := List.mem_map.mp hmem
      exact hw.past trip' hmem'
  | false =>
      refine ⟨fun trip hmem => ?_, hw.holds.onFailure hw.past⟩
      change trip ∈ w.onFailure.trips at hmem
      unfold Host.onFailure at hmem
      dsimp only at hmem
      split at hmem
      · rcases List.mem_cons.mp hmem with rfl | hold
        · exact Nat.le_refl _
        · exact hw.past trip hold
      · exact hw.past trip hmem

theorem Sound.step (hs : Sound s.world) (h : machine.Step s a t) : Sound t.world := by
  cases h with
  | @spawn i call p w hi hp =>
      obtain rfl : s.world.execute.2 = w := congrArg Prod.snd (Option.some.inj hp)
      obtain ⟨htrips, hnow⟩ := execute_frame s.world
      refine ⟨fun trip hmem => ?_, hs.holds.execute⟩
      rw [hnow]
      exact hs.past trip (htrips ▸ hmem)
  | @run i success call c k log r w hi hr =>
      cases c with
      | await currentState =>
          cases hr
          exact hs.settle success
  | @env ms w hw =>
      cases hw
      refine ⟨fun trip hmem => Nat.le_add_right_of_le (hs.past trip hmem), ?_⟩
      rintro trip ⟨hmem, hlt⟩ hclosed
      have hlt : s.world.now < trip.time + s.world.breaker.resetTimeoutMs :=
        Nat.lt_of_le_of_lt (Nat.le_add_right _ ms) hlt
      exact hs.holds trip ⟨hmem, hlt⟩ hclosed

/-- A call that starts is rejected if and only if the circuit is open. -/
theorem rejected_iff {i : Nat} {call : Unit} (h : machine.Step s (.spawn i call) t) :
    Rejected t i ↔ ¬ s.world.breaker.Admits s.world.now := by
  cases h with
  | @spawn _ _ p w hi hp =>
      have hp : s.world.execute = (p, w) := Option.some.inj hp
      have hself : Function.update s.threads i (some ⟨call, p, []⟩) i = some ⟨call, p, []⟩ :=
        Function.update_self ..
      rw [← enter_eq_none]
      unfold Host.execute at hp
      split at hp
      next hnone =>
        cases hp
        exact ⟨fun _ => hnone, fun _ => ⟨_, _, hself⟩⟩
      next breaker hsome =>
        cases hp
        refine ⟨fun ⟨call', log, hrej⟩ => ?_, fun hnone => ?_⟩
        · cases hself.symm.trans hrej
        · rw [hsome] at hnone
          cases hnone

/-- What follows a trip is decided by who has succeeded since. -/
theorem startsRejected_iff (hs : Sound s.world) (h : machine.Step s a t) :
    StartsRejected s a t ↔ StartsApart s a t := by
  constructor
  · rintro hrej i call rfl hbad
    refine (rejected_iff h).mp (hrej i call rfl ?_)
    rcases hbad with ⟨trip, hrun, -⟩ | htrial
    · exact .inl ⟨trip, hrun⟩
    · exact .inr htrial
  · rintro hapart i call rfl hbad
    refine (rejected_iff h).mpr ?_
    rcases hbad with ⟨trip, hrun⟩ | htrial
    · cases hclosed : trip.closed with
      | false => exact hs.holds.not_admits hrun hclosed
      | true => exact hapart i call rfl (.inl ⟨trip, hrun, hclosed⟩)
    · exact hapart i call rfl (.inr htrial)

/-- Every call awaits its function once. -/
def AwaitsOnce (s : BreakerPool) : Prop :=
  ∀ i th, s.threads i = some th → th.prog.Obeys (fun _ log => log = []) (fun _ _ => True) th.log

theorem awaiting_obeys (currentState : CircuitState) :
    (awaiting currentState).Obeys (fun _ log => log = []) (fun _ _ => True) [] := by
  refine ⟨rfl, fun success _ => ?_⟩
  cases success with
  | true => trivial
  | false => trivial

theorem AwaitsOnce.step (hs : AwaitsOnce s) (h : machine.Step s a t) : AwaitsOnce t := by
  refine Machine.obeys_step (P := fun _ _ log => log = []) (fun i call w p w' _ hstart => ?_)
    (fun _ _ _ _ _ _ _ => trivial) hs h
  have hp : w.execute.1 = p := congrArg Prod.fst (Option.some.inj hstart)
  subst hp
  unfold Host.execute
  split
  · trivial
  · exact awaiting_obeys _

/-- A trial was in flight before the step, or it is the call that starts. -/
theorem trial_origin {j : Nat} (honce : AwaitsOnce s) (h : machine.Step s a t) (hj : Trial t j) :
    Trial s j ∨ ∃ call, a = .spawn j call ∧ ¬ Rejected t j := by
  obtain ⟨call, k, log, hj⟩ := hj
  have hj' := hj
  cases h with
  | spawn hi hp =>
      rcases update_eq_some hj with ⟨rfl, heq⟩ | ⟨-, hold⟩
      · refine .inr ⟨_, rfl, fun ⟨call', log', hrej⟩ => ?_⟩
        rw [hj'] at hrej
        cases hrej
      · exact .inl ⟨_, _, _, hold⟩
  | @run i success call' c k' log' r w hi hr =>
      rcases update_eq_some hj with ⟨rfl, heq⟩ | ⟨-, hold⟩
      · -- a call whose function has settled awaits nothing more
        injection heq with _ hprog
        have hlater : (k' r).Obeys (fun _ log => log = []) (fun _ _ => True) (⟨c, r⟩ :: log') :=
          (honce _ _ hi).2 r trivial
        rw [← hprog] at hlater
        cases hlater.1
      · exact .inl ⟨_, _, _, hold⟩
  | env hw => exact .inl ⟨_, _, _, hj⟩

theorem OneTrial.step (hone : OneTrial s) (honce : AwaitsOnce s) (hrej : StartsRejected s a t)
    (h : machine.Step s a t) : OneTrial t := by
  intro i j hi hj
  rcases trial_origin honce h hi with hi₀ | ⟨call, rfl, hin⟩
  · rcases trial_origin honce h hj with hj₀ | ⟨call, rfl, hin⟩
    · exact hone i j hi₀ hj₀
    · exact absurd (hrej j call rfl (.inr ⟨i, hi₀⟩)) hin
  · rcases trial_origin honce h hj with hj₀ | ⟨call', heq, -⟩
    · exact absurd (hrej i call rfl (.inr ⟨j, hj₀⟩)) hin
    · injection heq

end Steps

/-! ## Runs -/

section Runs

/-- Trials come one at a time if every step keeps the others out. -/
theorem along_oneTrial {s : BreakerPool} {acts : List BreakerAction} (hone : OneTrial s)
    (honce : AwaitsOnce s) (h : machine.Along StartsRejected s acts) :
    machine.Along (fun _ _ t => OneTrial t) s acts := by
  induction acts generalizing s with
  | nil => trivial
  | cons a acts ih =>
      intro t ht
      have hstep := machine.step_of_next ht
      have hone' := hone.step honce (h t ht).1 hstep
      exact ⟨hone', ih hone' (honce.step hstep) (h t ht).2⟩

/-- A breaker keeps its promise in exactly the runs whose calls start apart from
late successes and from trials. -/
theorem overlapSafe_iff_startsApart (failureThreshold resetTimeoutMs now : Nat)
    (acts : List BreakerAction) :
    OverlapSafe (initial failureThreshold resetTimeoutMs now) acts ↔
      machine.Along StartsApart (initial failureThreshold resetTimeoutMs now) acts := by
  have hiff : machine.Along StartsRejected (initial failureThreshold resetTimeoutMs now) acts ↔
      machine.Along StartsApart (initial failureThreshold resetTimeoutMs now) acts :=
    Machine.along_congr (I := fun s => Sound s.world)
      (initial_sound failureThreshold resetTimeoutMs now) (fun _ _ _ hs h => hs.step h)
      fun _ _ _ hs h => startsRejected_iff hs h
  refine ⟨fun h => hiff.mp h.1, fun h => ⟨hiff.mpr h, ?_⟩⟩
  refine along_oneTrial (fun i _ hi => ?_) (fun i _ hi => ?_) (hiff.mpr h)
  · obtain ⟨call, k, log, hi⟩ := hi
    cases hi
  · cases hi

end Runs

/-! ## Two trials at once -/

/-- One call fails and trips the circuit.  When the timeout is over, two calls
start. -/
def tripAndTryTwice : List BreakerAction :=
  [.spawn 0 (), .run 0 false, .env 10000, .spawn 1 (), .spawn 2 ()]

theorem not_overlapSafe_tripAndTryTwice : ¬ OverlapSafe (initial 1 10000 0) tripAndTryTwice := by
  rintro ⟨-, hone⟩
  have hsplit : tripAndTryTwice = tripAndTryTwice.take 4 ++ [.spawn 2 ()] := rfl
  rw [hsplit] at hone
  have hlast := hone.suffix rfl
  exact absurd ((hlast _ rfl).1 1 2 ⟨_, _, _, rfl⟩ ⟨_, _, _, rfl⟩) (by decide)

end CircuitBreaker

end RydTrip
