import RydTrip.Process.Fairness
import RydTrip.DispatchService.Machine

/-!
# Concurrent dispatch is an injective matching

Calls of `handleRideRequested` for distinct rides run side by side and share
nothing but the reservation keys.  Each call knows from its log which candidates
it has lost, which one it has won and what it has published.  The invariant
says that the keys, the topics and the logs agree: a key holds a ride exactly
when the call for this ride has won it.
-/

namespace RydTrip

namespace Dispatch

open Process

/-! ## What a call has been told -/

def searchOf : (Σ c : Cmd, Reply c) → Option (List String)
  | ⟨.findNearby .., .ok candidates⟩ => some (candidates.map (·.driverId))
  | _ => none

def lossOf : (Σ c : Cmd, Reply c) → Option String
  | ⟨.tryReserve driverId .., .ok false⟩ => some driverId
  | _ => none

def winOf : (Σ c : Cmd, Reply c) → Option String
  | ⟨.tryReserve driverId .., .ok true⟩ => some driverId
  | _ => none

def outcomeOf : (Σ c : Cmd, Reply c) → Option Outcome
  | ⟨.publish outcome .., .ok ()⟩ => some outcome
  | _ => none

/-- The candidate lists that searches have returned. -/
def searches (log : DispatchLog) : List (List String) := log.filterMap searchOf

/-- The candidates that were tried in vain, in the order of the attempts. -/
def lost (log : DispatchLog) : List String := (log.filterMap lossOf).reverse

def won (log : DispatchLog) : List String := log.filterMap winOf

def said (log : DispatchLog) : List Outcome := log.filterMap outcomeOf

/-- The outcome follows from the log: the winner is the first candidate that was
not lost, and a rejection has lost them all. -/
def Justified (rideId : String) (log : DispatchLog) : Outcome → Prop
  | .reserved r driverId =>
      r = rideId ∧ won log = [driverId] ∧ ∃ rest, searches log = [lost log ++ driverId :: rest]
  | .rejected r _ => r = rideId ∧ won log = [] ∧ searches log = [lost log]

/-- What the call for a ride may issue when nothing fails. -/
def Allowed (rideId : String) : (c : Cmd) → DispatchLog → Prop
  | .settle .redis success, _ => success = true
  | .findNearby .., log => searches log = [] ∧ lost log = [] ∧ won log = [] ∧ said log = []
  | .tryReserve driverId r _, log =>
      r = rideId ∧ said log = [] ∧ won log = [] ∧
        ∃ rest, searches log = [lost log ++ driverId :: rest]
  | .publish outcome .., log => said log = [] ∧ Justified rideId log outcome
  | _, _ => True

/-- What the parties reply when nothing fails. -/
def Answered : (c : Cmd) → Reply c → Prop
  | .enter .redis, invoked => invoked = true
  | .findNearby .., res => ∃ candidates, res = .ok candidates
  | .tryReserve .., res => ∃ won, res = .ok won
  | .publish .., res => res = .ok ()
  | _, _ => True

/-! ## The specification of `handleRideRequested` -/

abbrev DispatchSpec (rideId : String) : (c : Cmd) → (Reply c → DispatchLog → Prop) →
    DispatchLog → Prop :=
  logSpec (Allowed rideId) Answered

section Programs

variable {cfg : Config} {rideId correlationId : String} {log : DispatchLog}
  {Q : Unit → DispatchLog → Prop} {E : DispatchError → DispatchLog → Prop}

theorem wp_findNearby {pickup : GeoPoint} {radiusKm : Rat} {limit : Nat}
    {k : List NearbyDriver → DispatchProg Unit}
    (hpre : Allowed rideId (.findNearby pickup radiusKm limit) log)
    (hk : ∀ candidates, (k candidates).wp (DispatchSpec rideId) Q E
      (⟨.settle .redis true, ()⟩ :: ⟨.findNearby pickup radiusKm limit, .ok candidates⟩ ::
        ⟨.enter .redis, true⟩ :: log)) :
    (DispatchService.execute .redis (DispatchService.findNearby pickup radiusKm limit) >>= k).wp
      (DispatchSpec rideId) Q E log := by
  unfold DispatchService.findNearby
  rw [Prog.perform_bind, DispatchService.execute_call]
  refine ⟨trivial, fun invoked hinvoked => ?_⟩
  cases hinvoked
  refine ⟨hpre, fun res hres => ?_⟩
  obtain ⟨candidates, rfl⟩ := hres
  exact ⟨rfl, fun _ _ => hk candidates⟩

theorem wp_tryReserve {driverId : String} {ttlSeconds : Nat} {k : Bool → DispatchProg Unit}
    (hpre : Allowed rideId (.tryReserve driverId rideId ttlSeconds) log)
    (hk : ∀ won, (k won).wp (DispatchSpec rideId) Q E
      (⟨.settle .redis true, ()⟩ :: ⟨.tryReserve driverId rideId ttlSeconds, .ok won⟩ ::
        ⟨.enter .redis, true⟩ :: log)) :
    (DispatchService.execute .redis (DispatchService.tryReserve driverId rideId ttlSeconds) >>=
      k).wp (DispatchSpec rideId) Q E log := by
  unfold DispatchService.tryReserve
  rw [Prog.perform_bind, DispatchService.execute_call]
  refine ⟨trivial, fun invoked hinvoked => ?_⟩
  cases hinvoked
  refine ⟨hpre, fun res hres => ?_⟩
  obtain ⟨won, rfl⟩ := hres
  exact ⟨rfl, fun _ _ => hk won⟩

theorem wp_publish {outcome : Outcome} {key : String}
    (hpre : Allowed rideId (.publish outcome correlationId key) log)
    (hQ : Q () (⟨.publish outcome correlationId key, .ok ()⟩ :: log)) :
    (DispatchService.publish outcome correlationId key).wp (DispatchSpec rideId) Q E log := by
  unfold DispatchService.publish
  rw [Prog.perform_bind]
  refine ⟨hpre, fun res hres => ?_⟩
  cases hres
  exact hQ

/-- The sync leaves nothing behind in the log that matters here. -/
theorem wp_syncDriverStatusBestEffort {driverId : String} {k : Unit → DispatchProg Unit}
    (hk : ∀ log', searches log' = searches log → lost log' = lost log → won log' = won log →
      said log' = said log → (k ()).wp (DispatchSpec rideId) Q E log') :
    (DispatchService.syncDriverStatusBestEffort driverId >>= k).wp
      (DispatchSpec rideId) Q E log := by
  rw [DispatchService.syncDriverStatusBestEffort_eq]
  refine ⟨trivial, fun invoked _ => ?_⟩
  cases invoked with
  | false => exact hk _ rfl rfl rfl rfl
  | true => exact ⟨trivial, fun res _ => ⟨trivial, fun _ _ => hk _ rfl rfl rfl rfl⟩⟩

/-- One outcome has been published, and no error leaves the call. -/
def Concluded (_ : Unit) (log : DispatchLog) : Prop := ∃ outcome, said log = [outcome]

theorem reserveFirst_wp {candidates : List NearbyDriver} (hsaid : said log = [])
    (hwon : won log = [])
    (hsearch : searches log = [lost log ++ candidates.map (·.driverId)]) :
    (DispatchService.reserveFirst cfg rideId correlationId candidates).wp
      (DispatchSpec rideId) Concluded (fun _ _ => False) log := by
  induction candidates generalizing log with
  | nil =>
      rw [List.map_nil, List.append_nil] at hsearch
      exact wp_publish ⟨hsaid, rfl, hwon, hsearch⟩ ⟨_, congrArg (List.cons _) hsaid⟩
  | cons candidate candidates ih =>
      rw [List.map_cons] at hsearch
      refine wp_tryReserve ⟨rfl, hsaid, hwon, _, hsearch⟩ fun b => ?_
      cases b with
      | false =>
          refine ih hsaid hwon ?_
          have hlost : lost (⟨.settle .redis true, ()⟩ ::
              ⟨.tryReserve candidate.driverId rideId cfg.reservationTtlSeconds, .ok false⟩ ::
              ⟨.enter .redis, true⟩ :: log) = lost log ++ [candidate.driverId] :=
            List.reverse_cons
          rw [hlost, List.append_assoc]
          exact hsearch
      | true =>
          refine wp_syncDriverStatusBestEffort fun log' hsearch' hlost' hwon' hsaid' => ?_
          have hwon₁ : won log' = [candidate.driverId] :=
            hwon'.trans (congrArg (List.cons _) hwon)
          have hsearch₁ : searches log' = [lost log' ++ candidate.driverId ::
              candidates.map (·.driverId)] := by
            rw [hsearch', hlost']
            exact hsearch
          have hsaid₁ : said log' = [] := hsaid'.trans hsaid
          exact wp_publish ⟨hsaid₁, rfl, hwon₁, _, hsearch₁⟩ ⟨_, congrArg (List.cons _) hsaid₁⟩

theorem handleRideRequested_wp {pickup : GeoPoint} :
    (DispatchService.handleRideRequested cfg rideId pickup correlationId).wp
      (DispatchSpec rideId) Concluded (fun _ _ => False) [] := by
  refine wp_findNearby ⟨rfl, rfl, rfl, rfl⟩ fun candidates => ?_
  exact reserveFirst_wp rfl rfl rfl

end Programs

/-! ## Logs of calls that meet the specification -/

section Logs

variable {rideId : String} {log : DispatchLog}

theorem said_cons (e : Σ c : Cmd, Reply c) :
    said (e :: log) = (outcomeOf e).toList ++ said log := by
  unfold said
  rw [List.filterMap_cons]
  cases outcomeOf e with
  | none => rfl
  | some outcome => rfl

theorem mem_won_cons (e : Σ c : Cmd, Reply c) (driverId : String) :
    driverId ∈ won (e :: log) ↔ winOf e = some driverId ∨ driverId ∈ won log := by
  unfold won
  rw [List.mem_filterMap, List.exists_mem_cons_iff, List.mem_filterMap]

/-- At most one outcome has been published, and it is the one that the log
justifies. -/
theorem justified_of_recorded (h : Recorded (Allowed rideId) Answered log) :
    said log = [] ∨ ∃ outcome, said log = [outcome] ∧ Justified rideId log outcome := by
  induction log with
  | nil => exact .inl rfl
  | cons e log ih =>
      obtain ⟨c, r⟩ := e
      obtain ⟨hpre, hpost, hrec⟩ := h
      cases c with
      | findNearby pickup radiusKm limit => exact .inl hpre.2.2.2
      | tryReserve driverId r' ttlSeconds => exact .inl hpre.2.1
      | publish outcome correlationId key =>
          cases hpost
          refine .inr ⟨outcome, congrArg (List.cons _) hpre.1, ?_⟩
          cases outcome with
          | reserved r driverId => exact hpre.2
          | rejected r reason => exact hpre.2
      | enter b => exact ih hrec
      | settle b success => exact ih hrec
      | patch driverId status => exact ih hrec
      | wasProcessed consumerName eventId => exact ih hrec
      | markProcessed consumerName eventId => exact ih hrec
      | park fields => exact ih hrec

/-- A search of the log returned the list that `searches` reports. -/
theorem exists_search {drivers : List String} (h : searches log = [drivers]) :
    ∃ pickup radiusKm limit candidates,
      ⟨.findNearby pickup radiusKm limit, .ok candidates⟩ ∈ log ∧
        drivers = candidates.map (·.driverId) := by
  have hmem : drivers ∈ searches log := by rw [h]; exact .head _
  obtain ⟨⟨c, r⟩, hlog, he⟩ := List.mem_filterMap.mp hmem
  cases c with
  | findNearby pickup radiusKm limit =>
      cases r with
      | ok candidates =>
          exact ⟨pickup, radiusKm, limit, candidates, hlog, (Option.some.inj he).symm⟩
      | error message => cases he
  | _ => cases he

theorem exists_loss {driverId : String} (h : driverId ∈ lost log) :
    ∃ r ttlSeconds, ⟨.tryReserve driverId r ttlSeconds, .ok false⟩ ∈ log := by
  obtain ⟨⟨c, r⟩, hlog, he⟩ := List.mem_filterMap.mp (List.mem_reverse.mp h)
  cases c with
  | tryReserve d r' ttlSeconds =>
      cases r with
      | ok b =>
          cases b with
          | false =>
              cases he
              exact ⟨r', ttlSeconds, hlog⟩
          | true => cases he
      | error message => cases he
  | _ => cases he

end Logs

/-! ## One command of the world -/

/-- Nothing fails, no key expires and no further call starts. -/
def Undisturbed : DispatchAction → Prop
  | .spawn .. => False
  | .run _ o => o.fault = .none
  | .env a => a = .tick

instance : DecidablePred Undisturbed
  | .spawn .. => isFalse id
  | .run _ o => inferInstanceAs (Decidable (o.fault = .none))
  | .env a => inferInstanceAs (Decidable (a = .tick))

section Effects

variable {o : Oracle} {w w' : DispatchHost} {rideId : String} {log : DispatchLog} {c : Cmd}
  {r : Reply c}

/-- Nothing fails: every party answers, and the breaker stays as it should. -/
theorem exec_answered (ho : o.fault = .none) (hw : w.redisBreaker.Admits w.now)
    (hpre : Allowed rideId c log) (h : w.exec o c = (r, w')) :
    Answered c r ∧ w'.redisBreaker.Admits w'.now := by
  cases c with
  | enter b =>
      change w.enter b = (r, w') at h
      unfold DispatchHost.enter at h
      split at h
      next hnone =>
        cases h
        cases b with
        | redis => exact absurd hw (CircuitBreaker.enter_eq_none.mp hnone)
        | driverService => exact ⟨trivial, hw⟩
      next state hsome =>
        cases h
        cases b with
        | redis => exact ⟨rfl, hw.enter hsome⟩
        | driverService => exact ⟨trivial, hw⟩
  | settle b success =>
      cases h
      cases b with
      | redis =>
          cases hpre
          exact ⟨trivial, w.redisBreaker.onSuccess_admits w.now⟩
      | driverService => exact ⟨trivial, hw⟩
  | findNearby pickup radiusKm limit =>
      simp only [DispatchHost.exec, ho, Fault.settle_none] at h
      cases h
      exact ⟨⟨_, rfl⟩, hw⟩
  | tryReserve driverId rideId' ttlSeconds =>
      simp only [DispatchHost.exec, ho, Fault.settle_none] at h
      cases h
      refine ⟨⟨_, rfl⟩, ?_⟩
      unfold DispatchHost.reserve
      split
      · exact hw
      · exact hw
  | patch driverId status =>
      cases h
      exact ⟨trivial, hw⟩
  | publish outcome correlationId key =>
      simp only [DispatchHost.exec, ho, Fault.settle_none] at h
      cases h
      exact ⟨rfl, hw⟩
  | wasProcessed consumerName eventId =>
      simp only [DispatchHost.exec, ho, Fault.settle_none] at h
      cases h
      exact ⟨trivial, hw⟩
  | markProcessed consumerName eventId =>
      simp only [DispatchHost.exec, ho, Fault.settle_none] at h
      cases h
      exact ⟨trivial, hw⟩
  | park fields =>
      simp only [DispatchHost.exec, ho, Fault.settle_none] at h
      cases h
      exact ⟨trivial, hw⟩

/-- A key is taken exactly by the attempt that wins it. -/
theorem exec_reservations (ho : o.fault = .none) (hpre : Allowed rideId c log)
    (h : w.exec o c = (r, w')) (driverId rideId' : String) :
    w'.reservations driverId = some rideId' ↔
      w.reservations driverId = some rideId' ∨
        (winOf ⟨c, r⟩ = some driverId ∧ rideId' = rideId) := by
  by_cases hc : ∃ d r' ttl, c = .tryReserve d r' ttl
  · obtain ⟨d, r', ttl, rfl⟩ := hc
    obtain ⟨rfl, -⟩ := hpre
    simp only [DispatchHost.exec, ho, Fault.settle_none, DispatchHost.reserve] at h
    cases hd : w.reservations d with
    | some held =>
        simp only [hd] at h
        cases h
        refine ⟨.inl, fun h => h.elim id fun h => ?_⟩
        cases h.1
    | none =>
        simp only [hd] at h
        cases h
        by_cases hdd : driverId = d
        · subst hdd
          simp only [Function.update_self, hd, winOf, true_and, reduceCtorEq, false_or,
            Option.some.injEq]
          exact eq_comm
        · simp only [Function.update_of_ne hdd, winOf, Option.some.injEq]
          exact ⟨.inl, fun h => h.elim id fun h => absurd h.1.symm hdd⟩
  · push Not at hc
    have hsame : w'.reservations = w.reservations := by
      have := reservations_exec o w hc
      rw [h] at this
      exact this
    have hwin : winOf ⟨c, r⟩ = none := by
      cases c with
      | tryReserve d r' ttl => exact absurd rfl (hc d r' ttl)
      | _ => rfl
    rw [hsame, hwin]
    exact ⟨.inl, fun h => h.elim id fun h => by cases h.1⟩

/-- A call only publishes for its own ride. -/
theorem outcome_rideId {outcome : Outcome} (hpre : Allowed rideId c log)
    (h : outcomeOf ⟨c, r⟩ = some outcome) : outcome.rideId = rideId := by
  cases c with
  | publish outcome' correlationId key =>
      cases r with
      | ok u =>
          cases h
          cases outcome with
          | reserved r driverId => exact hpre.2.1
          | rejected r reason => exact hpre.2.1
      | error message => cases h
  | _ => cases h

/-- An outcome is added exactly by the call that publishes it. -/
theorem exec_published (ho : o.fault = .none) (h : w.exec o c = (r, w')) :
    w'.published = (outcomeOf ⟨c, r⟩).toList ++ w.published := by
  by_cases hc : ∃ outcome correlationId key, c = .publish outcome correlationId key
  · obtain ⟨outcome, correlationId, key, rfl⟩ := hc
    simp only [DispatchHost.exec, ho, Fault.settle_none] at h
    cases h
    rfl
  · push Not at hc
    have hsame : w'.published = w.published := by
      have := published_exec o w hc
      rw [h] at this
      exact this
    have hout : outcomeOf ⟨c, r⟩ = none := by
      cases c with
      | publish outcome correlationId key => exact absurd rfl (hc outcome correlationId key)
      | _ => rfl
    rw [hsame, hout]
    rfl

end Effects

/-! ## Calls side by side -/

/-- The arguments of one call. -/
structure Request where
  rideId : String
  pickup : GeoPoint
  correlationId : String
  deriving DecidableEq, Repr

def Request.call (req : Request) : Call :=
  .handleRideRequested req.rideId req.pickup req.correlationId

/-- One thread for each request, none of which has run yet. -/
def dispatching (cfg : Config) (reqs : List Request) (w : DispatchHost) : DispatchPool :=
  ⟨w, fun i => reqs[i]?.map fun req => ⟨req.call, req.call.prog cfg, []⟩⟩

/-- The world has not heard of the rides, and the Redis breaker is not open. -/
structure Unaware (w : DispatchHost) (reqs : List Request) : Prop where
  reservations : ∀ driverId, ∀ req ∈ reqs, w.reservations driverId ≠ some req.rideId
  published : ∀ req ∈ reqs, outcomesFor w req.rideId = []
  redisBreaker : w.redisBreaker.Admits w.now

/-- The world and the log of the call for a ride agree. -/
structure Agrees (w : DispatchHost) (rideId : String)
    (th : Thread Call Cmd Reply DispatchError Unit) : Prop where
  meets : th.prog.wp (DispatchSpec rideId) Concluded (fun _ _ => False) th.log
  recorded : Recorded (Allowed rideId) Answered th.log
  keys : ∀ driverId, w.reservations driverId = some rideId ↔ driverId ∈ won th.log
  outcomes : outcomesFor w rideId = said th.log

/-- Each request has its thread, and they all agree with the world. -/
structure Dispatching (reqs : List Request) (s : DispatchPool) : Prop where
  redisBreaker : s.world.redisBreaker.Admits s.world.now
  calls : ∀ i, (s.threads i).isSome = reqs[i]?.isSome
  agrees : ∀ i th req, s.threads i = some th → reqs[i]? = some req →
    Agrees s.world req.rideId th

theorem dispatching_start {cfg : Config} {reqs : List Request} {w : DispatchHost}
    (hw : Unaware w reqs) : Dispatching reqs (dispatching cfg reqs w) where
  redisBreaker := hw.redisBreaker
  calls i := Option.isSome_map
  agrees i th req hth hreq := by
    simp only [dispatching, hreq, Option.map_some, Option.some.injEq] at hth
    subst hth
    have hmem : req ∈ reqs := List.mem_of_getElem? hreq
    refine ⟨handleRideRequested_wp, trivial, fun driverId => ?_, hw.published req hmem⟩
    exact ⟨fun h => absurd h (hw.reservations driverId req hmem), fun h => by cases h⟩

section Steps

variable {cfg : Config} {reqs : List Request} {s t : DispatchPool} {a : DispatchAction}

/-- A command of another ride changes nothing that a call depends on. -/
theorem Agrees.other {o : Oracle} {w w' : DispatchHost} {rideId rideId' : String}
    {th : Thread Call Cmd Reply DispatchError Unit} {c : Cmd} {r : Reply c} {log : DispatchLog}
    (hth : Agrees w rideId th) (hne : rideId ≠ rideId') (ho : o.fault = .none)
    (hpre : Allowed rideId' c log) (h : w.exec o c = (r, w')) : Agrees w' rideId th where
  meets := hth.meets
  recorded := hth.recorded
  keys driverId := by
    rw [exec_reservations ho hpre h, hth.keys]
    exact ⟨fun h => h.elim id fun h => absurd h.2 hne, .inl⟩
  outcomes := by
    rw [← hth.outcomes]
    unfold outcomesFor
    rw [exec_published ho h, List.filter_append]
    cases hout : outcomeOf ⟨c, r⟩ with
    | none => rfl
    | some outcome =>
        have hride : outcome.rideId = rideId' := outcome_rideId hpre hout
        simp [hride, hne.symm]

/-- The step of the call itself. -/
theorem Agrees.issue {o : Oracle} {w w' : DispatchHost} {rideId : String} {call : Call} {c : Cmd}
    {k : Reply c → DispatchProg Unit} {log : DispatchLog} {r : Reply c}
    (hth : Agrees w rideId ⟨call, .call c k, log⟩) (hw : w.redisBreaker.Admits w.now)
    (ho : o.fault = .none) (h : w.exec o c = (r, w')) :
    Agrees w' rideId ⟨call, k r, ⟨c, r⟩ :: log⟩ where
  meets := hth.meets.2 r (exec_answered ho hw hth.meets.1 h).1
  recorded := ⟨hth.meets.1, (exec_answered ho hw hth.meets.1 h).1, hth.recorded⟩
  keys driverId := by
    rw [exec_reservations ho hth.meets.1 h, hth.keys, mem_won_cons]
    simp only [and_true]
    exact or_comm
  outcomes := by
    unfold outcomesFor
    rw [exec_published ho h, List.filter_append, said_cons]
    refine congrArg₂ _ ?_ hth.outcomes
    cases hout : outcomeOf ⟨c, r⟩ with
    | none => rfl
    | some outcome =>
        have hride : outcome.rideId = rideId := outcome_rideId hth.meets.1 hout
        simp [hride]

theorem rideId_ne {i j : Nat} {req req' : Request} (hd : (reqs.map (·.rideId)).Nodup)
    (hi : reqs[i]? = some req) (hj : reqs[j]? = some req') (hij : i ≠ j) :
    req.rideId ≠ req'.rideId := by
  intro heq
  refine hij ((List.getElem?_inj ?_ hd).mp ?_)
  · rw [List.length_map]
    exact (List.getElem?_eq_some_iff.mp hi).1
  · rw [List.getElem?_map, List.getElem?_map, hi, hj]
    exact congrArg some heq

theorem dispatching_step (hd : (reqs.map (·.rideId)).Nodup) (hs : Dispatching reqs s)
    (ha : Undisturbed a) (hstep : (machine cfg).Step s a t) : Dispatching reqs t := by
  cases hstep with
  | spawn hi hp => cases ha
  | @run i o call c k log r w' hi hr =>
      have hexec : s.world.exec o c = (r, w') := Option.some.inj hr
      obtain ⟨req, hreq⟩ : ∃ req, reqs[i]? = some req := by
        rw [← Option.isSome_iff_exists, ← hs.calls i, hi]
        rfl
      have hagrees := hs.agrees i _ req hi hreq
      refine ⟨(exec_answered ha hs.redisBreaker hagrees.meets.1 hexec).2, fun j => ?_, ?_⟩
      · by_cases hij : j = i
        · subst hij
          simp [hreq]
        · rw [← hs.calls j]
          exact congrArg _ (Function.update_of_ne hij ..)
      · intro j th req' hj hreq'
        rcases update_eq_some hj with ⟨rfl, rfl⟩ | ⟨hij, hj⟩
        · rw [hreq] at hreq'
          cases hreq'
          exact hagrees.issue hs.redisBreaker ha hexec
        · refine (hs.agrees j th req' hj hreq').other ?_ ha hagrees.meets.1 hexec
          exact rideId_ne hd hreq' hreq hij
  | @env e w' hw =>
      cases hw
      have he : e = .tick := ha
      subst he
      refine ⟨hs.redisBreaker.later (Nat.le_succ _), hs.calls, fun i th req hi hreq => ?_⟩
      have h := hs.agrees i th req hi hreq
      exact ⟨h.meets, h.recorded, h.keys, h.outcomes⟩

end Steps

/-! ## Runs -/

section Runs

variable {cfg : Config} {reqs : List Request} {w : DispatchHost} {s : DispatchPool}
  {acts : List DispatchAction}

theorem dispatching_run (hd : (reqs.map (·.rideId)).Nodup) (hw : Unaware w reqs)
    (hrun : (machine cfg).run (dispatching cfg reqs w) acts = some s)
    (hacts : ∀ a ∈ acts, Undisturbed a) : Dispatching reqs s :=
  Machine.run_invariant (dispatching_start hw)
    (fun _ _ _ hs ha hstep => dispatching_step hd hs ha hstep) hrun (Machine.along_of_forall hacts)

/-- The attempt to reserve the driver for the ride failed in the run, and at that
moment the key of the driver held another ride. -/
def HeldByAnother (cfg : Config) (s : DispatchPool) (acts : List DispatchAction) (i : Nat)
    (rideId driverId : String) : Prop :=
  ∃ ttlSeconds u rideId', (machine cfg).Issues s acts i
      ⟨.tryReserve driverId rideId ttlSeconds, .ok false⟩ u ∧
    u.world.reservations driverId = some rideId' ∧ rideId' ≠ rideId

/-- A call that lost a candidate found it held by another ride. -/
theorem heldByAnother_of_lost {i : Nat} {req : Request}
    {th : Thread Call Cmd Reply DispatchError Unit} {driverId : String}
    (hd : (reqs.map (·.rideId)).Nodup) (hw : Unaware w reqs)
    (hrun : (machine cfg).run (dispatching cfg reqs w) acts = some s)
    (hacts : ∀ a ∈ acts, Undisturbed a) (hreq : reqs[i]? = some req)
    (hth : s.threads i = some th) (hlost : driverId ∈ lost th.log) :
    HeldByAnother cfg (dispatching cfg reqs w) acts i req.rideId driverId := by
  obtain ⟨r, ttlSeconds, hmem⟩ := exists_loss hlost
  rcases Machine.issues_of_mem_log hrun hth hmem with ⟨th₀, hth₀, hmem₀⟩ | ⟨u, hu⟩
  · simp only [dispatching, hreq, Option.map_some, Option.some.injEq] at hth₀
    subst hth₀
    cases hmem₀
  · obtain ⟨acts₁, o, acts₂, call, k, log, w', rfl, hrun₁, hi, hexec⟩ := id hu
    have hacts₁ : ∀ a ∈ acts₁, Undisturbed a := fun a ha => hacts a (List.mem_append_left _ ha)
    have ho : o.fault = .none := hacts (.run i o) (List.mem_append_right _ (.head _))
    have hagrees := (dispatching_run hd hw hrun₁ hacts₁).agrees i _ req hi hreq
    obtain ⟨rfl, -, hwon, -⟩ := hagrees.meets.1
    have hnot : u.world.reservations driverId ≠ some req.rideId := by
      rw [Ne, hagrees.keys, hwon]
      exact List.not_mem_nil
    cases hheld : u.world.reservations driverId with
    | some rideId' =>
        refine ⟨ttlSeconds, u, rideId', hu, hheld, fun heq => hnot ?_⟩
        rw [hheld, heq]
    | none =>
        simp only [machine, DispatchHost.exec, DispatchHost.reserve, hheld, ho,
          Fault.settle_none, Option.some.injEq, Prod.mk.injEq, Except.ok.injEq, Bool.true_eq_false,
          false_and] at hexec

/-- The winner is a candidate, and every candidate before it was held by another
ride when it was tried.  A rejection found every candidate held. -/
def Explained (cfg : Config) (s : DispatchPool) (acts : List DispatchAction) (i : Nat)
    (rideId : String) (candidates : List NearbyDriver) : Outcome → Prop
  | .reserved _ driverId => ∃ before winner after,
      candidates = before ++ winner :: after ∧ winner.driverId = driverId ∧
        ∀ c ∈ before, HeldByAnother cfg s acts i rideId c.driverId
  | .rejected .. => ∀ c ∈ candidates, HeldByAnother cfg s acts i rideId c.driverId

/-- What a run of concurrent dispatches has achieved. -/
structure Matched (cfg : Config) (reqs : List Request) (w : DispatchHost)
    (acts : List DispatchAction) (s : DispatchPool) : Prop where
  /-- No ride has two outcomes. -/
  atMostOne : ∀ req ∈ reqs, (outcomesFor s.world req.rideId).length ≤ 1
  /-- A call that has ended returned normally and left an outcome. -/
  concluded : ∀ i req th, reqs[i]? = some req → s.threads i = some th → ¬ th.Live →
    th.prog = .ret () ∧ ∃ outcome, outcomesFor s.world req.rideId = [outcome]
  /-- Every outcome follows from the candidates that the call has found. -/
  explained : ∀ i req th outcome, reqs[i]? = some req → s.threads i = some th →
    outcome ∈ outcomesFor s.world req.rideId →
    ∃ pickup radiusKm limit candidates,
      ⟨.findNearby pickup radiusKm limit, .ok candidates⟩ ∈ th.log ∧
        Explained cfg (dispatching cfg reqs w) acts i req.rideId candidates outcome
  /-- Different rides have different drivers. -/
  injective : ∀ req ∈ reqs, ∀ req' ∈ reqs, ∀ driverId,
    .reserved req.rideId driverId ∈ s.world.published →
    .reserved req'.rideId driverId ∈ s.world.published → req = req'

section Agreement

variable {i : Nat} {req : Request} {th : Thread Call Cmd Reply DispatchError Unit}

theorem Dispatching.thread (h : Dispatching reqs s) (hreq : reqs[i]? = some req) :
    ∃ th, s.threads i = some th ∧ Agrees s.world req.rideId th := by
  obtain ⟨th, hth⟩ : ∃ th, s.threads i = some th := by
    rw [← Option.isSome_iff_exists, h.calls i, hreq]
    rfl
  exact ⟨th, hth, h.agrees i th req hth hreq⟩

/-- The driver of a ride is held for it. -/
theorem Dispatching.reserved (h : Dispatching reqs s) {driverId : String} (hreq : req ∈ reqs)
    (hmem : .reserved req.rideId driverId ∈ s.world.published) :
    s.world.reservations driverId = some req.rideId := by
  obtain ⟨i, hi⟩ := List.getElem?_of_mem hreq
  obtain ⟨th, hth, hagrees⟩ := h.thread hi
  have hsaid : .reserved req.rideId driverId ∈ said th.log := by
    rw [← hagrees.outcomes, mem_outcomesFor]
    exact ⟨hmem, rfl⟩
  rw [hagrees.keys]
  rcases justified_of_recorded hagrees.recorded with hnil | ⟨outcome, hone, hjust⟩
  · rw [hnil] at hsaid
    cases hsaid
  · rw [hone, List.mem_singleton] at hsaid
    subst hsaid
    rw [hjust.2.1]
    exact .head _

/-- What the log justifies, read on the run. -/
theorem explained_of_justified {outcome : Outcome} (hd : (reqs.map (·.rideId)).Nodup)
    (hw : Unaware w reqs) (hrun : (machine cfg).run (dispatching cfg reqs w) acts = some s)
    (hacts : ∀ a ∈ acts, Undisturbed a) (hreq : reqs[i]? = some req)
    (hth : s.threads i = some th) (hjust : Justified req.rideId th.log outcome) :
    ∃ pickup radiusKm limit candidates,
      ⟨.findNearby pickup radiusKm limit, .ok candidates⟩ ∈ th.log ∧
        Explained cfg (dispatching cfg reqs w) acts i req.rideId candidates outcome := by
  have hheld : ∀ driverId ∈ lost th.log,
      HeldByAnother cfg (dispatching cfg reqs w) acts i req.rideId driverId :=
    fun driverId hlost => heldByAnother_of_lost hd hw hrun hacts hreq hth hlost
  cases outcome with
  | reserved r driverId =>
      obtain ⟨-, -, rest, hsearch⟩ := hjust
      obtain ⟨pickup, radiusKm, limit, candidates, hmem, hdrivers⟩ := exists_search hsearch
      obtain ⟨before, l, rfl, hbefore, hl⟩ := List.map_eq_append_iff.mp hdrivers.symm
      obtain ⟨winner, after, rfl, hwinner, -⟩ := List.map_eq_cons_iff.mp hl
      refine ⟨pickup, radiusKm, limit, _, hmem, before, winner, after, rfl, hwinner, fun c hc => ?_⟩
      refine hheld _ ?_
      rw [← hbefore]
      exact List.mem_map_of_mem hc
  | rejected r reason =>
      obtain ⟨-, -, hsearch⟩ := hjust
      obtain ⟨pickup, radiusKm, limit, candidates, hmem, hdrivers⟩ := exists_search hsearch
      refine ⟨pickup, radiusKm, limit, candidates, hmem, fun c hc => hheld _ ?_⟩
      rw [hdrivers]
      exact List.mem_map_of_mem hc

end Agreement

theorem matched_of_run (hd : (reqs.map (·.rideId)).Nodup) (hw : Unaware w reqs)
    (hrun : (machine cfg).run (dispatching cfg reqs w) acts = some s)
    (hacts : ∀ a ∈ acts, Undisturbed a) : Matched cfg reqs w acts s where
  atMostOne req hreq := by
    obtain ⟨i, hi⟩ := List.getElem?_of_mem hreq
    obtain ⟨th, -, hagrees⟩ := (dispatching_run hd hw hrun hacts).thread hi
    rw [hagrees.outcomes]
    rcases justified_of_recorded hagrees.recorded with hnil | ⟨outcome, hone, -⟩
    · rw [hnil]
      exact Nat.zero_le 1
    · rw [hone]
      exact Nat.le_refl 1
  concluded i req th hreq hth hdead := by
    have hagrees := (dispatching_run hd hw hrun hacts).agrees i th req hth hreq
    have hmeets := hagrees.meets
    cases hprog : th.prog with
    | ret u =>
        rw [hprog] at hmeets
        refine ⟨rfl, ?_⟩
        rw [hagrees.outcomes]
        exact hmeets
    | throw e =>
        rw [hprog] at hmeets
        cases hmeets
    | call c k => exact absurd ⟨c, k, hprog⟩ hdead
  explained i req th outcome hreq hth hmem := by
    have hagrees := (dispatching_run hd hw hrun hacts).agrees i th req hth hreq
    rw [hagrees.outcomes] at hmem
    rcases justified_of_recorded hagrees.recorded with hnil | ⟨outcome', hone, hjust⟩
    · rw [hnil] at hmem
      cases hmem
    · rw [hone, List.mem_singleton] at hmem
      subst hmem
      exact explained_of_justified hd hw hrun hacts hreq hth hjust
  injective req hreq req' hreq' driverId hmem hmem' := by
    have h := dispatching_run hd hw hrun hacts
    have hkey := h.reserved hreq hmem
    rw [h.reserved hreq' hmem'] at hkey
    exact (List.inj_on_of_nodup_map hd hreq' hreq (Option.some.inj hkey)).symm

/-- Calls for distinct rides that run side by side form an injective matching,
and under any fair schedule each of them comes to its one outcome. -/
theorem concurrentDispatch_matches {cfg : Config} {reqs : List Request} {w : DispatchHost}
    (hd : (reqs.map (·.rideId)).Nodup) (hw : Unaware w reqs) :
    (∀ acts s, (machine cfg).run (dispatching cfg reqs w) acts = some s →
      (∀ a ∈ acts, Undisturbed a) → Matched cfg reqs w acts s) ∧
    ∀ σ act, σ 0 = dispatching cfg reqs w → (machine cfg).Execution σ act →
      (∀ n, Undisturbed (act n)) → (∀ i, i < reqs.length → Machine.Fair σ act i) →
      ∃ n, ∀ k, n ≤ k → ∀ req ∈ reqs, ∃ outcome,
        outcomesFor (σ k).world req.rideId = [outcome] := by
  refine ⟨fun acts s hrun hacts => matched_of_run hd hw hrun hacts, ?_⟩
  intro σ act h0 hexec hact hfair
  obtain ⟨n, hn⟩ := hexec.all_finish reqs.length hfair fun i hi => by
    refine ⟨⟨reqs[i].call, reqs[i].call.prog cfg, []⟩, ?_⟩
    rw [h0]
    simp [dispatching, hi]
  refine ⟨n, fun k hk req hreq => ?_⟩
  obtain ⟨i, hi⟩ := List.getElem?_of_mem hreq
  obtain ⟨th, hth, hdead⟩ := hn k hk i (List.getElem?_eq_some_iff.mp hi).1
  have hrun := hexec.run k
  rw [h0] at hrun
  have hacts : ∀ a ∈ (List.range k).map act, Undisturbed a := by
    intro a ha
    obtain ⟨j, -, rfl⟩ := List.mem_map.mp ha
    exact hact j
  exact ((matched_of_run hd hw hrun hacts).concluded i req th hi hth hdead).2

/-- Two rides that are offered the same drivers in the same order. -/
def raceRequests : List Request := [⟨"r1", ⟨0, 0⟩, "c1"⟩, ⟨"r2", ⟨0, 0⟩, "c2"⟩]

/-- Both have searched and entered the breaker, then the second ride is faster. -/
def race : List DispatchAction :=
  let search : Oracle := { candidates := [⟨"d1", 0, 0, 1⟩, ⟨"d2", 0, 0, 2⟩] }
  [.run 0 {}, .run 0 search, .run 0 {}, .run 1 {}, .run 1 search, .run 1 {}, .run 0 {},
    .run 1 {}, .run 1 {}, .run 0 {}] ++ .replicate 8 (.run 0 {}) ++ .replicate 5 (.run 1 {})

theorem unaware_empty (reqs : List Request) : Unaware .empty reqs where
  reservations driverId req _ := by simp [DispatchHost.empty]
  published req _ := rfl
  redisBreaker := by decide

theorem concurrentDispatch_race : ∃ s, (machine .defaults).run
      (dispatching .defaults raceRequests .empty) race = some s ∧
    s.world.published = [.reserved "r2" "d1", .reserved "r1" "d2"] ∧
    Matched .defaults raceRequests .empty race s :=
  ⟨_, rfl, rfl, (concurrentDispatch_matches (by decide) (unaware_empty _)).1 _ _ rfl (by decide)⟩

end Runs

end Dispatch

end RydTrip
