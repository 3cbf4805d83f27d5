import Mathlib.Data.List.Infix
import RydTrip.DispatchService.Machine
import RydTrip.RiderService.Rides

/-!
# Requests outside of Redis's domain

The Redis breaker of dispatch-service while Redis is up.  Redis rejects a
`GEOSEARCH` whose centre is no longitude and latitude of its projection, and the
latitudes of the projection end before those of `GeoPointDto` do.  The breaker
takes the rejection for a failure of Redis, and the retries of the consumer
multiply it.

Requests are handled one after the other, as the single partition of the topic
is.  The oracle is a stream, one entry for each command, and Kafka and
driver-service may answer as they like.
-/

namespace RydTrip

namespace Dispatch

open Process Rides

/-! ## The handler on a published request -/

/-- What Redis answers to a centre without a latitude and a longitude. -/
def notAFloat : String := "ERR value is not a valid float"

/-- `handleRideRequested` with such a centre. -/
def handleWithoutCentre (cfg : Config) (rideId correlationId : String) : DispatchProg Unit := do
  let candidates ← DispatchService.execute .redis (throw (.error notAFloat))
  DispatchService.reserveFirst cfg rideId correlationId candidates

/-- The ledger around the handling of an event. -/
def handleOnce (eventId : Nat) (handle : DispatchProg Unit) : DispatchProg Unit := do
  let alreadyProcessed ← orThrow (← Prog.perform
    (Cmd.wasProcessed RideRequestedConsumer.consumerName eventId))
  if alreadyProcessed then pure ()
  else
    handle
    orThrow (← Prog.perform (Cmd.markProcessed RideRequestedConsumer.consumerName eventId))

/-- The callback given to `EventConsumer.run`, on the event of a request.  An
array is truthy and passes for a payload, but it has no `lat` and no `lng`. -/
def handleRequest (cfg : Config) (request : RideRequest) (eventId : Nat) : DispatchProg Unit :=
  match request.dto.pickup with
  | .missing => RideRequestedConsumer.handler cfg (request.envelope eventId)
  | .one _ => RideRequestedConsumer.handler cfg (request.envelope eventId)
  | .many _ => handleOnce eventId (handleWithoutCentre cfg request.rideId request.correlationId)

/-- The delivery of the event. -/
def consumeRequest (cfg : Config) (request : RideRequest) (eventId : Nat) : DispatchProg Unit :=
  EventConsumer.deliver DispatchError.message RideRequestedConsumer.park
    (fun _ => handleRequest cfg request eventId) EventConsumer.defaultMaxAttempts
    (request.envelope eventId)

/-! ## Redis is up -/

/-- The centres that `GEOSEARCH` takes. -/
def InDomain (centre : GeoPoint) : Prop :=
  -85.05112878 ≤ centre.lat ∧ centre.lat ≤ 85.05112878 ∧ -180 ≤ centre.lng ∧ centre.lng ≤ 180

instance (centre : GeoPoint) : Decidable (InDomain centre) :=
  inferInstanceAs (Decidable (_ ∧ _))

/-- What the oracle decides for one command. -/
structure Turn where
  elapsed : Nat := 0
  candidates : List NearbyDriver := []
  kafka : Fault := .none
  patchReply : PatchReply := .response 200

/-- Redis commands take effect, unless they are outside of its domain. -/
def Turn.fault (turn : Turn) : Cmd → Fault
  | .findNearby centre _ _ =>
      if InDomain centre then .none else .refused "ERR invalid longitude,latitude pair"
  | .publish .. => turn.kafka
  | .park _ => turn.kafka
  | _ => .none

/-- The host, the turns taken, and whether the Redis breaker has been closed in
every state so far and has thrown a `CircuitOpenError`. -/
structure Watch where
  host : DispatchHost
  turns : Nat
  closed : Bool
  rejected : Bool

/-- One command, at its turn. -/
def answer (turns : Nat → Turn) (c : Cmd) (w : Watch) : Reply c × Watch :=
  let turn := turns w.turns
  let before := { w.host with now := w.host.now + turn.elapsed }
  let (r, host) := before.exec ⟨turn.fault c, turn.candidates, turn.patchReply⟩ c
  (r,
    { host := host
      turns := w.turns + 1
      closed := w.closed && host.redisBreaker.state = .closed
      rejected := w.rejected || (c = .enter .redis && !before.redisBreaker.Admits before.now) })

/-- The meaning of one command while Redis is up. -/
abbrev Served (turns : Nat → Turn) : (c : Cmd) → (Reply c → Watch → Prop) → Watch → Prop :=
  Prog.answering (answer turns)

/-- The requests are handled one after the other.  The first one has the event
id `eventId`. -/
def handleAll (cfg : Config) (turns : Nat → Turn) : Nat → List RideRequest → Watch → Watch
  | _, [], w => w
  | eventId, request :: requests, w =>
      handleAll cfg turns (eventId + 1) requests
        ((consumeRequest cfg request eventId).eval (answer turns) w).2

/-- A new service. -/
def Watch.start (failureThreshold resetTimeoutMs : Nat) : Watch where
  host := { DispatchHost.empty with redisBreaker := .new failureThreshold resetTimeoutMs }
  turns := 0
  closed := true
  rejected := false

/-- The breaker has been closed throughout, and nothing was rejected by it. -/
def StaysClosed (w : Watch) : Prop := w.closed = true ∧ w.rejected = false

/-! ## Requests in a row -/

/-- How many requests with a pickup outside of the domain there have been since
the last one inside. -/
def outsideAfter (n : Nat) (request : RideRequest) : Nat :=
  match request.dto.pickup with
  | .missing => n
  | .one point => if InDomain point.toGeoPoint then 0 else n + 1
  | .many _ => n + 1

def outsideSince (requests : List RideRequest) : Nat := requests.foldl outsideAfter 0

/-- The longitudes of a validated point are all in the domain. -/
theorem inDomain_iff (point : GeoPointDto) :
    InDomain point.toGeoPoint ↔ -85.05112878 ≤ point.lat ∧ point.lat ≤ 85.05112878 :=
  ⟨fun h => ⟨h.1, h.2.1⟩, fun h => ⟨h.1, h.2, point.minLng, point.maxLng⟩⟩

/-! ## The breaker between commands -/

section Calm

variable {cfg : Config} {turns : Nat → Turn} {failureThreshold n eventId : Nat} {w : Watch}

/-- The breaker has been closed so far, with `n` failures on record, and no event
from `eventId` on has been processed. -/
structure Calm (failureThreshold n eventId : Nat) (w : Watch) : Prop where
  state : w.host.redisBreaker.state = .closed
  failures : w.host.redisBreaker.consecutiveFailures = n
  threshold : w.host.redisBreaker.failureThreshold = failureThreshold
  closed : w.closed = true
  rejected : w.rejected = false
  fresh : ∀ id, eventId ≤ id → w.host.processed RideRequestedConsumer.consumerName id = false

/-- The breaker has not been closed throughout. -/
def Tripped (w : Watch) : Prop := w.closed = false

theorem Calm.admits (h : Calm failureThreshold n eventId w) (now : Nat) :
    w.host.redisBreaker.Admits now := by
  simp [CircuitBreaker.Admits, CircuitBreaker.getState, h.state]

/-- A tripped breaker stays on record. -/
theorem tripped_wp {ε α : Type} (p : Prog Cmd Reply ε α) (h : Tripped w) :
    p.wp (Served turns) (fun _ => Tripped) (fun _ => Tripped) w := by
  induction p generalizing w with
  | ret a => exact h
  | throw e => exact h
  | call c k ih =>
      refine ih _ ?_
      unfold Tripped at *
      simp [answer, h]

/-- The commands that leave the Redis breaker and the ledger alone. -/
def Aside : Cmd → Prop
  | .enter .redis => False
  | .settle .redis _ => False
  | .markProcessed .. => False
  | _ => True

theorem exec_aside {o : Oracle} (host : DispatchHost) {c : Cmd} (hc : Aside c) :
    (host.exec o c).2.redisBreaker = host.redisBreaker ∧
      (host.exec o c).2.processed = host.processed := by
  cases c with
  | enter b =>
      cases b with
      | redis => exact hc.elim
      | driverService =>
          change (host.enter .driverService).2.redisBreaker = _ ∧
            (host.enter .driverService).2.processed = _
          unfold DispatchHost.enter
          split
          · exact ⟨rfl, rfl⟩
          · exact ⟨rfl, rfl⟩
  | settle b success =>
      cases b with
      | redis => exact hc.elim
      | driverService => exact ⟨rfl, rfl⟩
  | findNearby pickup radiusKm limit =>
      exact ⟨Fault.settle_world _ _ rfl, Fault.settle_world _ _ rfl⟩
  | tryReserve driverId rideId ttl =>
      have hreserve : (host.reserve driverId rideId).2.redisBreaker = host.redisBreaker ∧
          (host.reserve driverId rideId).2.processed = host.processed := by
        unfold DispatchHost.reserve
        split
        · exact ⟨rfl, rfl⟩
        · exact ⟨rfl, rfl⟩
      exact ⟨Fault.settle_world _ _ hreserve.1, Fault.settle_world _ _ hreserve.2⟩
  | patch driverId status => exact ⟨rfl, rfl⟩
  | publish outcome correlationId key =>
      exact ⟨Fault.settle_world _ _ rfl, Fault.settle_world _ _ rfl⟩
  | wasProcessed consumerName id => exact ⟨Fault.settle_world _ _ rfl, Fault.settle_world _ _ rfl⟩
  | markProcessed consumerName id => exact hc.elim
  | park fields => exact ⟨Fault.settle_world _ _ rfl, Fault.settle_world _ _ rfl⟩

variable (turns) in
/-- A command aside keeps the calm. -/
theorem Calm.aside (h : Calm failureThreshold n eventId w) {c : Cmd} (hc : Aside c) :
    Calm failureThreshold n eventId (answer turns c w).2 := by
  obtain ⟨hbreaker, hprocessed⟩ := exec_aside (o := ⟨(turns w.turns).fault c,
    (turns w.turns).candidates, (turns w.turns).patchReply⟩)
    { w.host with now := w.host.now + (turns w.turns).elapsed } hc
  have hne : c ≠ .enter .redis := by
    rintro rfl
    exact hc
  constructor
  · exact (congrArg CircuitBreaker.state hbreaker).trans h.state
  · exact (congrArg CircuitBreaker.consecutiveFailures hbreaker).trans h.failures
  · exact (congrArg CircuitBreaker.failureThreshold hbreaker).trans h.threshold
  · have hstate := (congrArg CircuitBreaker.state hbreaker).trans h.state
    simp only [answer, h.closed, Bool.true_and]
    exact decide_eq_true hstate
  · simp [answer, h.rejected, hne]
  · intro id hid
    exact (congrFun (congrFun hprocessed _) id).trans (h.fresh id hid)

variable (turns) in
/-- A closed breaker invokes the function. -/
theorem Calm.enter (h : Calm failureThreshold n eventId w) :
    (answer turns (.enter .redis) w).1 = true ∧
      Calm failureThreshold n eventId (answer turns (.enter .redis) w).2 := by
  have henter (now : Nat) : DispatchHost.enter { w.host with now := now } .redis =
      (true, { w.host with now := now }) := by
    unfold DispatchHost.enter DispatchHost.breaker
    dsimp only
    rw [CircuitBreaker.enter_of_closed h.state]
    rfl
  have hadmits := h.admits (w.host.now + (turns w.turns).elapsed)
  unfold answer
  dsimp only [DispatchHost.exec]
  rw [henter]
  refine ⟨rfl, h.state, h.failures, h.threshold, ?_, ?_, h.fresh⟩
  · simp [h.closed, h.state]
  · simp [h.rejected, hadmits]

/-- A success leaves no failure on record. -/
theorem Calm.success (h : Calm failureThreshold n eventId w) :
    Calm failureThreshold 0 eventId (answer turns (.settle .redis true) w).2 where
  state := rfl
  failures := rfl
  threshold := h.threshold
  closed := by
    change (w.closed && decide (CircuitState.closed = .closed)) = true
    rw [h.closed]
    rfl
  rejected := by
    simp [answer, h.rejected]
  fresh := h.fresh

/-- A failure counts, and trips the breaker at the threshold. -/
theorem Calm.failure (h : Calm failureThreshold n eventId w) :
    (n + 1 < failureThreshold ∧
        Calm failureThreshold (n + 1) eventId (answer turns (.settle .redis false) w).2) ∨
      (failureThreshold ≤ n + 1 ∧ Tripped (answer turns (.settle .redis false) w).2) := by
  have hbreaker (now : Nat) : w.host.redisBreaker.onFailure now =
      if failureThreshold ≤ n + 1 then
        { w.host.redisBreaker with
          consecutiveFailures := n + 1
          state := .open
          openedAt := now }
      else { w.host.redisBreaker with consecutiveFailures := n + 1 } := by
    unfold CircuitBreaker.onFailure
    simp [h.state, h.failures, h.threshold]
  unfold answer
  dsimp only [DispatchHost.exec, DispatchHost.settle, DispatchHost.setBreaker, DispatchHost.breaker]
  rw [if_neg Bool.false_ne_true, hbreaker]
  by_cases hle : failureThreshold ≤ n + 1
  · refine .inr ⟨hle, ?_⟩
    rw [if_pos hle]
    unfold Tripped
    simp
  · refine .inl ⟨Nat.lt_of_not_le hle, ?_⟩
    rw [if_neg hle]
    refine ⟨h.state, rfl, h.threshold, ?_, ?_, h.fresh⟩
    · simp [h.closed, h.state]
    · simp [h.rejected]

end Calm

/-! ## The breaker over a delivery -/

section Delivery

variable {cfg : Config} {turns : Nat → Turn} {failureThreshold n eventId : Nat} {w : Watch}
  {α : Type}

/-- After one more failure. -/
def Counted (failureThreshold n eventId : Nat) (w : Watch) : Prop :=
  (n + 1 < failureThreshold ∧ Calm failureThreshold (n + 1) eventId w) ∨
    (failureThreshold ≤ n + 1 ∧ Tripped w)

theorem execute_eq {b : Breaker} {fn : DispatchProg α} :
    DispatchService.execute b fn =
      .call (.enter b) fun invoked =>
        if invoked then
          (fn.tryCatch fun err => .call (.settle b false) fun _ => .throw err) >>= fun result =>
            .call (.settle b true) fun _ => .ret result
        else .throw (.circuitOpen b.name) := rfl

/-- A call through a closed breaker runs, and its end is told to the breaker. -/
theorem execute_wp {fn : DispatchProg α} {P Q : α → Watch → Prop}
    {E F : DispatchError → Watch → Prop}
    (hfn : ∀ w, Calm failureThreshold n eventId w → fn.wp (Served turns) P E w)
    (hok : ∀ a w, P a w → Q a (answer turns (.settle .redis true) w).2)
    (herr : ∀ err w, E err w → F err (answer turns (.settle .redis false) w).2)
    (h : Calm failureThreshold n eventId w) :
    (DispatchService.execute .redis fn).wp (Served turns) Q F w := by
  obtain ⟨hinvoked, hcalm⟩ := h.enter turns
  rw [execute_eq]
  change Prog.wp (Served turns) _ _ (if (answer turns (.enter .redis) w).1 then _ else _) _
  rw [if_pos hinvoked]
  refine Prog.wp_seq (Prog.wp_try ?_)
  exact Prog.wp_mono Prog.answering_mono hok herr (hfn _ hcalm)

/-- A call that succeeds, through a closed breaker. -/
theorem execute_success {fn : DispatchProg α} {E : DispatchError → Watch → Prop}
    (hfn : ∀ w, Calm failureThreshold n eventId w → fn.wp (Served turns)
      (fun _ => Calm failureThreshold n eventId) (fun _ _ => False) w)
    (h : Calm failureThreshold n eventId w) :
    (DispatchService.execute .redis fn).wp (Served turns)
      (fun _ => Calm failureThreshold 0 eventId) E w :=
  execute_wp hfn (fun _ _ hw => hw.success) (fun _ _ hw => hw.elim) h

/-- A call that fails, through a closed breaker. -/
theorem execute_failure {fn : DispatchProg α} {Q : α → Watch → Prop}
    (hfn : ∀ w, Calm failureThreshold n eventId w → fn.wp (Served turns)
      (fun _ _ => False) (fun _ => Calm failureThreshold n eventId) w)
    (h : Calm failureThreshold n eventId w) :
    (DispatchService.execute .redis fn).wp (Served turns) Q
      (fun _ => Counted failureThreshold n eventId) w :=
  execute_wp hfn (fun _ _ hw => hw.elim) (fun _ _ hw => hw.failure) h

theorem findNearby_inside {pickup : GeoPoint} {radiusKm : Rat} {limit : Nat}
    (hin : InDomain pickup) (h : Calm failureThreshold n eventId w) :
    (DispatchService.findNearby pickup radiusKm limit).wp (Served turns)
      (fun _ => Calm failureThreshold n eventId) (fun _ _ => False) w := by
  have hcalm := h.aside turns (c := .findNearby pickup radiusKm limit) trivial
  have hreply : (answer turns (.findNearby pickup radiusKm limit) w).1 =
      .ok (turns w.turns).candidates := by
    simp [answer, DispatchHost.exec, Turn.fault, hin]
  change Prog.wp (Served turns) _ _
    (orThrow (answer turns (.findNearby pickup radiusKm limit) w).1) _
  rw [hreply]
  exact hcalm

theorem findNearby_outside {pickup : GeoPoint} {radiusKm : Rat} {limit : Nat}
    (hout : ¬ InDomain pickup) (h : Calm failureThreshold n eventId w) :
    (DispatchService.findNearby pickup radiusKm limit).wp (Served turns)
      (fun _ _ => False) (fun _ => Calm failureThreshold n eventId) w := by
  have hcalm := h.aside turns (c := .findNearby pickup radiusKm limit) trivial
  have hreply : (answer turns (.findNearby pickup radiusKm limit) w).1 =
      .error "ERR invalid longitude,latitude pair" := by
    simp [answer, DispatchHost.exec, Turn.fault, hout, Fault.settle]
  change Prog.wp (Served turns) _ _
    (orThrow (answer turns (.findNearby pickup radiusKm limit) w).1) _
  rw [hreply]
  exact hcalm

theorem tryReserve_calm (driverId rideId : String) (ttlSeconds : Nat)
    (h : Calm failureThreshold n eventId w) :
    (DispatchService.tryReserve driverId rideId ttlSeconds).wp (Served turns)
      (fun _ => Calm failureThreshold n eventId) (fun _ _ => False) w := by
  have hcalm := h.aside turns (c := .tryReserve driverId rideId ttlSeconds) trivial
  obtain ⟨won, hreply⟩ : ∃ won, (answer turns (.tryReserve driverId rideId ttlSeconds) w).1 =
      .ok won := ⟨_, rfl⟩
  unfold DispatchService.tryReserve
  rw [Prog.perform_bind, Prog.wp_call]
  change (fun reply : Except String Bool => (orThrow reply).wp (Served turns) _ _ _) _
  rw [hreply]
  exact hcalm

theorem publish_calm (outcome : Outcome) (correlationId key : String)
    (h : Calm failureThreshold n eventId w) :
    (DispatchService.publish outcome correlationId key).wp (Served turns)
      (fun _ => Calm failureThreshold n eventId) (fun _ => Calm failureThreshold n eventId) w := by
  have hcalm := h.aside turns (c := .publish outcome correlationId key) trivial
  change Prog.wp (Served turns) _ _
    (orThrow (answer turns (.publish outcome correlationId key) w).1) _
  cases (answer turns (.publish outcome correlationId key) w).1 with
  | error message => exact hcalm
  | ok done => exact hcalm

theorem sync_calm (driverId : String) {E : DispatchError → Watch → Prop}
    (h : Calm failureThreshold n eventId w) :
    (DispatchService.syncDriverStatusBestEffort driverId).wp (Served turns)
      (fun _ => Calm failureThreshold n eventId) E w := by
  rw [DispatchService.syncDriverStatusBestEffort_eq]
  have hentered := h.aside turns (c := .enter .driverService) trivial
  change Prog.wp (Served turns) _ _ (if (answer turns (.enter .driverService) w).1 then _ else _) _
  split
  · have hpatched := hentered.aside turns (c := .patch driverId .reserved) trivial
    exact hpatched.aside turns (c := .settle .driverService _) trivial
  · exact hentered

theorem reserveFirst_calm (rideId correlationId : String) (candidates : List NearbyDriver)
    (h : Calm failureThreshold 0 eventId w) :
    (DispatchService.reserveFirst cfg rideId correlationId candidates).wp
      (Served turns) (fun _ => Calm failureThreshold 0 eventId)
      (fun _ => Calm failureThreshold 0 eventId) w := by
  induction candidates generalizing w with
  | nil => exact publish_calm _ _ _ h
  | cons candidate candidates ih =>
      unfold DispatchService.reserveFirst
      refine Prog.wp_seq ?_
      refine Prog.wp_mono Prog.answering_mono (fun won w hw => ?_) (fun _ _ hw => hw)
        (execute_success (E := fun _ => Calm failureThreshold 0 eventId)
          (fun w hw => tryReserve_calm _ _ _ hw) h)
      cases won with
      | false => exact ih hw
      | true =>
          refine Prog.wp_seq ?_
          exact Prog.wp_mono Prog.answering_mono (fun _ w hw => publish_calm _ _ _ hw)
            (fun _ _ hw => hw) (sync_calm candidate.driverId hw)

theorem Calm.lookup (h : Calm failureThreshold n eventId w) :
    (answer turns (.wasProcessed RideRequestedConsumer.consumerName eventId) w).1 = .ok false := by
  have hfresh := h.fresh eventId (Nat.le_refl _)
  simp [answer, DispatchHost.exec, Turn.fault, hfresh]

theorem Calm.mark (h : Calm failureThreshold n eventId w) :
    Calm failureThreshold n (eventId + 1)
      (answer turns (.markProcessed RideRequestedConsumer.consumerName eventId) w).2 where
  state := h.state
  failures := h.failures
  threshold := h.threshold
  closed := by
    change (w.closed && decide (w.host.redisBreaker.state = .closed)) = true
    simp [h.closed, h.state]
  rejected := by
    simp [answer, h.rejected]
  fresh := by
    intro id hid
    have hne : id ≠ eventId := by omega
    have hold := h.fresh id (by omega)
    change Function.update w.host.processed RideRequestedConsumer.consumerName
      (Function.update (w.host.processed RideRequestedConsumer.consumerName) eventId true)
      RideRequestedConsumer.consumerName id = false
    rw [Function.update_self, Function.update_of_ne hne]
    exact hold

theorem Calm.mono (h : Calm failureThreshold n eventId w) :
    Calm failureThreshold n (eventId + 1) w :=
  { h with fresh := fun id hid => h.fresh id (by omega) }

/-- An event that has not been handled yet is handled, and then marked. -/
theorem handleOnce_seq {handle : DispatchProg Unit} {P Q : Watch → Prop}
    {E : DispatchError → Watch → Prop}
    (hhandle : ∀ w, Calm failureThreshold n eventId w →
      handle.wp (Served turns) (fun _ => P) E w)
    (hmark : ∀ w, P w →
      Q (answer turns (.markProcessed RideRequestedConsumer.consumerName eventId) w).2)
    (h : Calm failureThreshold n eventId w) :
    (handleOnce eventId handle).wp (Served turns) (fun _ => Q) E w := by
  have hcalm := h.aside turns
    (c := .wasProcessed RideRequestedConsumer.consumerName eventId) trivial
  unfold handleOnce
  rw [Prog.perform_bind, Prog.wp_call]
  change (fun reply : Except String Bool => Prog.wp (Served turns) _ _ (orThrow reply >>= _) _) _
  rw [h.lookup]
  change Prog.wp (Served turns) _ _ (handle >>= _) _
  exact Prog.wp_seq (Prog.wp_mono Prog.answering_mono (fun _ w hw => hmark w hw)
    (fun _ _ hw => hw) (hhandle _ hcalm))

theorem handleOnce_wp {handle : DispatchProg Unit} {m : Nat}
    {E : DispatchError → Watch → Prop}
    (hhandle : ∀ w, Calm failureThreshold n eventId w →
      handle.wp (Served turns) (fun _ => Calm failureThreshold m eventId) E w)
    (h : Calm failureThreshold n eventId w) :
    (handleOnce eventId handle).wp (Served turns)
      (fun _ => Calm failureThreshold m (eventId + 1)) E w :=
  handleOnce_seq hhandle (fun _ hw => hw.mark) h

/-- A handling that fails is not marked. -/
theorem handleOnce_fails {handle : DispatchProg Unit} {E : DispatchError → Watch → Prop}
    (hhandle : ∀ w, Calm failureThreshold n eventId w →
      handle.wp (Served turns) (fun _ _ => False) E w)
    (h : Calm failureThreshold n eventId w) :
    (handleOnce eventId handle).wp (Served turns) (fun _ _ => False) E w :=
  handleOnce_seq hhandle (fun _ hw => hw.elim) h

/-- A pickup inside of the domain: the failures are forgotten. -/
theorem handleRideRequested_inside {rideId correlationId : String} {pickup : GeoPoint}
    (hin : InDomain pickup) (h : Calm failureThreshold n eventId w) :
    (DispatchService.handleRideRequested cfg rideId pickup correlationId).wp (Served turns)
      (fun _ => Calm failureThreshold 0 eventId) (fun _ => Calm failureThreshold 0 eventId) w :=
  Prog.wp_seq (Prog.wp_mono Prog.answering_mono
    (fun candidates _ hw => reserveFirst_calm rideId correlationId candidates hw)
    (fun _ _ hw => hw)
    (execute_success (E := fun _ => Calm failureThreshold 0 eventId)
      (fun _ hw => findNearby_inside hin hw) h))

/-- A pickup outside of the domain: one more failure. -/
theorem handleRideRequested_outside {rideId correlationId : String} {pickup : GeoPoint}
    {Q : Unit → Watch → Prop} (hout : ¬ InDomain pickup)
    (h : Calm failureThreshold n eventId w) :
    (DispatchService.handleRideRequested cfg rideId pickup correlationId).wp (Served turns) Q
      (fun _ => Counted failureThreshold n eventId) w :=
  Prog.wp_seq (execute_failure (fun _ hw => findNearby_outside hout hw) h)

theorem handleWithoutCentre_wp {rideId correlationId : String} {Q : Unit → Watch → Prop}
    (h : Calm failureThreshold n eventId w) :
    (handleWithoutCentre cfg rideId correlationId).wp (Served turns) Q
      (fun _ => Counted failureThreshold n eventId) w :=
  Prog.wp_seq (execute_failure (fun _ hw => hw) h)

/-- The event of a request with one point is handled once. -/
theorem handleRequest_one {request : RideRequest} {point : GeoPointDto}
    (hpickup : request.dto.pickup = .one point) :
    handleRequest cfg request eventId = handleOnce eventId
      (DispatchService.handleRideRequested cfg request.rideId point.toGeoPoint
        request.correlationId) := by
  obtain ⟨⟨riderId, pickup, destination⟩, rideId, correlationId⟩ := request
  cases hpickup
  rfl

/-- After deliveries that have left `n` failures on record. -/
def After (failureThreshold n eventId : Nat) (w : Watch) : Prop :=
  (n < failureThreshold ∧ Calm failureThreshold n eventId w) ∨
    (failureThreshold ≤ n ∧ Tripped w)

theorem park_calm (fields : DlqFields) (h : Calm failureThreshold n eventId w) :
    (RideRequestedConsumer.park fields).wp (Served turns)
      (fun _ => Calm failureThreshold n eventId) (fun _ => Calm failureThreshold n eventId) w := by
  have hcalm := h.aside turns (c := .park fields) trivial
  change Prog.wp (Served turns) _ _ (orThrow (answer turns (.park fields) w).1) _
  cases (answer turns (.park fields) w).1 with
  | error message => exact hcalm
  | ok done => exact hcalm

/-- A delivery whose attempts all fail in Redis adds one failure for each. -/
theorem consume_failing {request : RideRequest}
    (hfail : ∀ n w, Calm failureThreshold n eventId w → (handleRequest cfg request eventId).wp
      (Served turns) (fun _ _ => False) (fun _ => Counted failureThreshold n eventId) w)
    (hn : n < failureThreshold) (h : Calm failureThreshold n eventId w) :
    (consumeRequest cfg request eventId).wp (Served turns)
      (fun _ => After failureThreshold (n + 3) (eventId + 1))
      (fun _ => After failureThreshold (n + 3) (eventId + 1)) w := by
  refine EventConsumer.deliver_wp_indexed (J := fun m w => After failureThreshold (n + m) eventId w)
    Prog.answering_mono (fun m w hm hw => ?_) (fun fields w hw => ?_) (by decide) (.inl ⟨hn, h⟩)
  · rcases hw with ⟨-, hw⟩ | ⟨hle, hw⟩
    · exact Prog.wp_mono Prog.answering_mono (fun _ _ hw => hw.elim) (fun _ _ hw => hw)
        (hfail _ w hw)
    · have hm : m < 3 := hm
      refine Prog.wp_mono Prog.answering_mono (fun _ w hw => ?_) (fun _ w hw => ?_)
        (tripped_wp _ hw)
      · exact .inr ⟨by omega, hw⟩
      · exact .inr ⟨by omega, hw⟩
  · rcases hw with ⟨hlt, hw⟩ | ⟨hle, hw⟩
    · have hafter (w : Watch) (hw : Calm failureThreshold (n + 3) eventId w) :
          After failureThreshold (n + 3) (eventId + 1) w := .inl ⟨hlt, hw.mono⟩
      exact Prog.wp_mono Prog.answering_mono (fun _ w hw => hafter w hw) (fun _ w hw => hafter w hw)
        (park_calm fields hw)
    · have hafter (w : Watch) (hw : Tripped w) :
          After failureThreshold (n + 3) (eventId + 1) w := .inr ⟨hle, hw⟩
      exact Prog.wp_mono Prog.answering_mono (fun _ w hw => hafter w hw) (fun _ w hw => hafter w hw)
        (tripped_wp _ hw)

/-- A delivery whose every attempt reaches Redis leaves no failure. -/
theorem consume_inside {request : RideRequest} {point : GeoPointDto}
    (hpickup : request.dto.pickup = .one point) (hin : InDomain point.toGeoPoint)
    (h : Calm failureThreshold n eventId w) :
    (consumeRequest cfg request eventId).wp (Served turns)
      (fun _ => Calm failureThreshold 0 (eventId + 1))
      (fun _ => Calm failureThreshold 0 (eventId + 1)) w := by
  refine EventConsumer.deliver_wp_indexed
    (J := fun m w => Calm failureThreshold (if m = 0 then n else 0) eventId w)
    Prog.answering_mono (fun m w hm hw => ?_) (fun fields w hw => ?_) (by decide) h
  · rw [handleRequest_one hpickup]
    exact handleOnce_wp (fun _ hw => handleRideRequested_inside hin hw) hw
  · exact Prog.wp_mono Prog.answering_mono (fun _ _ hw => hw.mono) (fun _ _ hw => hw.mono)
      (park_calm fields hw)

/-- A delivery that does not reach Redis changes nothing. -/
theorem consume_missing {request : RideRequest} (hpickup : request.dto.pickup = .missing)
    (h : Calm failureThreshold n eventId w) :
    (consumeRequest cfg request eventId).wp (Served turns)
      (fun _ => Calm failureThreshold n (eventId + 1))
      (fun _ => Calm failureThreshold n (eventId + 1)) w := by
  refine EventConsumer.deliver_wp_indexed (J := fun _ w => Calm failureThreshold n eventId w)
    Prog.answering_mono (fun m w hm hw => ?_) (fun fields w hw => ?_) (by decide) h
  · obtain ⟨⟨riderId, pickup, destination⟩, rideId, correlationId⟩ := request
    cases hpickup
    exact hw
  · exact Prog.wp_mono Prog.answering_mono (fun _ _ hw => hw.mono) (fun _ _ hw => hw.mono)
      (park_calm fields hw)

variable (cfg) (turns) in
/-- One delivery, whatever the request. -/
theorem consumeRequest_after {m : Nat} (request : RideRequest) (hm : 3 * m < failureThreshold)
    (h : Calm failureThreshold (3 * m) eventId w) :
    After failureThreshold (3 * outsideAfter m request) (eventId + 1)
      ((consumeRequest cfg request eventId).eval (answer turns) w).2 := by
  have hfailing (hfail : ∀ n w, Calm failureThreshold n eventId w →
      (handleRequest cfg request eventId).wp (Served turns) (fun _ _ => False)
        (fun _ => Counted failureThreshold n eventId) w) :
      After failureThreshold (3 * (m + 1)) (eventId + 1)
        ((consumeRequest cfg request eventId).eval (answer turns) w).2 :=
    Prog.eval_of_wp (consume_failing hfail hm h)
  unfold outsideAfter
  cases hpickup : request.dto.pickup with
  | missing => exact .inl ⟨hm, Prog.eval_of_wp (consume_missing hpickup h)⟩
  | one point =>
      dsimp only
      split
      next hin => exact .inl ⟨by omega, Prog.eval_of_wp (consume_inside hpickup hin h)⟩
      next hout =>
        refine hfailing fun n w hw => ?_
        rw [handleRequest_one hpickup]
        exact handleOnce_fails (fun _ hw => handleRideRequested_outside hout hw) hw
  | many items =>
      refine hfailing fun n w hw => ?_
      have heq : handleRequest cfg request eventId = handleOnce eventId
          (handleWithoutCentre cfg request.rideId request.correlationId) := by
        unfold handleRequest
        rw [hpickup]
      rw [heq]
      exact handleOnce_fails (fun _ hw => handleWithoutCentre_wp hw) hw

end Delivery

/-! ## Sequences of requests -/

section Sequences

variable {cfg : Config} {turns : Nat → Turn} {failureThreshold eventId : Nat} {w : Watch}

theorem tripped_handleAll (requests : List RideRequest) (h : Tripped w) :
    Tripped (handleAll cfg turns eventId requests w) := by
  induction requests generalizing eventId w with
  | nil => exact h
  | cons request requests ih => exact ih (Prog.eval_of_wp (tripped_wp _ h))

/-- From a calm service on, with `m` requests in a row that Redis has rejected. -/
theorem handleAll_staysClosed_iff {m : Nat} (hm : 3 * m < failureThreshold)
    (h : Calm failureThreshold (3 * m) eventId w) (requests : List RideRequest) :
    StaysClosed (handleAll cfg turns eventId requests w) ↔
      ∀ pre, pre <+: requests → 3 * pre.foldl outsideAfter m < failureThreshold := by
  induction requests generalizing m eventId w with
  | nil =>
      refine ⟨fun _ pre hpre => ?_, fun _ => ⟨h.closed, h.rejected⟩⟩
      rw [List.prefix_nil.mp hpre]
      exact hm
  | cons request requests ih =>
      rcases consumeRequest_after cfg turns request hm h with
        ⟨hlt, hcalm⟩ | ⟨hle, htripped⟩
      · rw [handleAll, ih hlt hcalm]
        refine ⟨fun hall pre hpre => ?_, fun hall pre hpre => ?_⟩
        · rcases List.prefix_cons_iff.mp hpre with rfl | ⟨pre', rfl, hpre'⟩
          · exact hm
          · exact hall pre' hpre'
        · exact hall (request :: pre) (List.cons_prefix_cons.mpr ⟨rfl, hpre⟩)
      · refine ⟨fun hstays => ?_, fun hall => ?_⟩
        · have hopen : Tripped (handleAll cfg turns eventId (request :: requests) w) :=
            tripped_handleAll requests htripped
          exact absurd (hstays.1.symm.trans hopen) (by decide)
        · have hone := hall [request] (List.cons_prefix_cons.mpr ⟨rfl, List.nil_prefix⟩)
          exact absurd hle (Nat.not_le_of_lt hone)

/-- While Redis is up, its breaker stays closed in exactly the sequences in which
three failures for each of the requests outside of the domain in a row never
reach the threshold. -/
theorem redisBreaker_staysClosed_iff (cfg : Config) (turns : Nat → Turn)
    (failureThreshold resetTimeoutMs : Nat) (hthreshold : 0 < failureThreshold)
    (requests : List RideRequest) :
    StaysClosed (handleAll cfg turns 0 requests (.start failureThreshold resetTimeoutMs)) ↔
      ∀ pre, pre <+: requests → 3 * outsideSince pre < failureThreshold := by
  have hcalm : Calm failureThreshold (3 * 0) 0 (.start failureThreshold resetTimeoutMs) :=
    ⟨rfl, rfl, rfl, rfl, rfl, fun _ _ => rfl⟩
  exact handleAll_staysClosed_iff hthreshold hcalm requests

end Sequences

/-! ## Two requests from the far north -/

def farNorth : GeoPointDto := ⟨86, 0, by decide, by decide, by decide, by decide⟩

def mangalore : GeoPointDto := ⟨12, 77, by decide, by decide, by decide, by decide⟩

def requestAt (rideId : String) (point : GeoPointDto) : RideRequest :=
  ⟨⟨"rider", .one point, .one point⟩, rideId, "c"⟩

/-- With a request between them, two requests outside of the domain do no harm. -/
theorem redisBreaker_staysClosed_between :
    StaysClosed (handleAll .defaults (fun _ => {}) 0
      [requestAt "r" farNorth, requestAt "r'" mangalore, requestAt "r''" farNorth]
      (.start 5 10000)) := by
  have hall : ∀ pre ∈
      [requestAt "r" farNorth, requestAt "r'" mangalore, requestAt "r''" farNorth].inits,
      3 * outsideSince pre < 5 := by
    decide +kernel
  exact (redisBreaker_staysClosed_iff .defaults (fun _ => {}) 5 10000 (by decide) _).mpr
    fun pre hpre => hall pre ((List.mem_inits pre _).mpr hpre)

/-- In a row they open the circuit, and the next rider's request is rejected. -/
theorem not_staysClosed_farNorth :
    ¬ StaysClosed (handleAll .defaults (fun _ => {}) 0
      [requestAt "r" farNorth, requestAt "r'" farNorth, requestAt "r''" mangalore]
      (.start 5 10000)) := by
  have hrejected : (handleAll .defaults (fun _ => {}) 0
      [requestAt "r" farNorth, requestAt "r'" farNorth, requestAt "r''" mangalore]
      (.start 5 10000)).rejected = true := by
    decide +kernel
  intro hstays
  rw [hstays.2] at hrejected
  cases hrejected

end Dispatch

end RydTrip
