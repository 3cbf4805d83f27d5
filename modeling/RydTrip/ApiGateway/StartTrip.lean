import RydTrip.ApiGateway.Trips
import RydTrip.TripService.PickupCode

/-!
# Who can start a trip

The trip service is reached through the gateway and by events only, so a call of
`start` carries the `sub` of a verified token.  With the invariants of
`PickupCode` a trip only starts for its driver and with the code of its ride.
-/

namespace RydTrip

namespace ApiGateway

open Http Process TripService

abbrev ArrivalAction : Type := Action Arrival Oracle Unit

/-- What an action means to the trip service. -/
def tripAction (jwt : JwtService) : ArrivalAction → Option TripAction
  | .spawn i arrival => (arrival.op? jwt).map (.spawn i)
  | .run i o => some (.run i o)
  | .env u => some (.env u)

def tripActions (jwt : JwtService) (arrivals : List ArrivalAction) : List TripAction :=
  arrivals.filterMap (tripAction jwt)

/-- The request with another header. -/
def Request.withHeader {β : Type} (req : Request β) (name value : String) : Request β :=
  { req with headers := Function.update req.headers name (some value) }

/-! ## Requests that start a trip -/

section Requests

variable {jwt : JwtService} {req : Request Body} {uuid : String} {draw : Fin 10000}

/-- The client has no say in who the trip service thinks it is. -/
theorem op?_withHeader (value : String) :
    (Arrival.request (req.withHeader "x-user-id" value) uuid draw).op? jwt =
      (Arrival.request req uuid draw).op? jwt := by
  rfl

theorem tripActions_spawn {arrivals : List ArrivalAction} {i : Nat} {op : Op}
    (h : .spawn i op ∈ tripActions jwt arrivals) :
    ∃ arrival, .spawn i arrival ∈ arrivals ∧ arrival.op? jwt = some op := by
  obtain ⟨a, hmem, ha⟩ := List.mem_filterMap.mp h
  cases a with
  | spawn j arrival =>
      obtain ⟨op', hop, heq⟩ := Option.map_eq_some_iff.mp ha
      cases heq
      exact ⟨arrival, hmem, hop⟩
  | run j o => cases ha
  | env u => cases ha

end Requests

/-! ## Runs -/

section Runs

variable {haversineKm : GeoPoint → GeoPoint → Option Rat} {jwt : JwtService}
  {arrivals : List ArrivalAction} {s t u v : TripPool} {a b : TripAction}
  {acts acts₁ acts₂ acts₃ : List TripAction} {id : String}

/-- The step is taken by a request to start the ride, with the token of its
driver and the code that its acceptance has minted. -/
def StartedByDriver (jwt : JwtService) (arrivals : List ArrivalAction) (id : String)
    (s : TripPool) (a : TripAction) : Prop :=
  ∃ i o req uuid draw user otp row, a = .run i o ∧
    .spawn i (.request req uuid draw) ∈ arrivals ∧ verified jwt req = some user ∧
    (Arrival.request req uuid draw).op? jwt = some (.start id otp (some user.sub)) ∧
    (∀ value, (Arrival.request (req.withHeader "x-user-id" value) uuid draw).op? jwt =
      (Arrival.request req uuid draw).op? jwt) ∧
    s.world.db.findRide id = some row ∧ row.driverId = some user.sub ∧ row.otp = some otp ∧
    Minted s id otp

/-- The stored code of the ride. -/
def storedCode (s : TripPool) (id : String) : Option String :=
  (s.world.db.findRide id).bind (·.otp)

theorem startedByDriver (hcalls : ∀ i th, s.threads i = some th →
      .spawn i th.call ∈ tripActions jwt arrivals)
    (h : StartedWithCode id s a) : StartedByDriver jwt arrivals id s a := by
  obtain ⟨i, o, th, otp, caller, row, rfl, hi, hcall, hrow, hotp, hdriver, hminted⟩ := h
  obtain ⟨arrival, hmem, hop⟩ := tripActions_spawn (hcall ▸ hcalls i th hi)
  cases arrival with
  | event maxAttempts envelope => cases hop
  | request req uuid draw =>
      obtain ⟨-, user, hverified, rfl⟩ := caller_of_start hop
      exact ⟨i, o, req, uuid, draw, user, otp, row, rfl, hmem, hverified, hop, op?_withHeader,
        hrow, hdriver user.sub (truthy_sub hverified), hotp, hminted⟩

theorem pickupInv_run (hturn : (machine haversineKm).Along (fun s a _ => InTurn s a) s acts)
    (hs : PickupInv s) (hrun : (machine haversineKm).run s acts = some t) : PickupInv t :=
  Machine.run_invariant (I := PickupInv) hs (fun _ _ _ hI ha hstep => hI.step ha hstep) hrun hturn

/-- A code that is gone stays gone. -/
theorem gone_run (hturn : (machine haversineKm).Along (fun s a _ => InTurn s a) s acts)
    (hs : PickupInv s) (hgone : Gone s.world.db id)
    (hrun : (machine haversineKm).run s acts = some t) : Gone t.world.db id :=
  (Machine.run_invariant (I := fun s => PickupInv s ∧ Gone s.world.db id) ⟨hs, hgone⟩
    (fun _ _ _ hI ha hstep => ⟨hI.1.step ha hstep, hI.2.step hI.1.sequential ha hstep⟩) hrun
    hturn).2

/-- A trip starts only by its driver with the code of the ride, once, and the
code cannot be read afterwards. -/
theorem starts_by_driver_once
    (hturn : (machine haversineKm).Along (fun s a _ => InTurn s a) (initial .empty)
      (tripActions jwt arrivals))
    (hacts : tripActions jwt arrivals = acts₁ ++ a :: acts₂)
    (hrun : (machine haversineKm).run (initial .empty) acts₁ = some s)
    (hnext : (machine haversineKm).next s a = some t) (hstart : Starts id s t) :
    StartedByDriver jwt arrivals id s a ∧
      (∀ before later b u v, acts₁ = before ++ b :: later →
        (machine haversineKm).run (initial .empty) before = some u →
        (machine haversineKm).next u b = some v → ¬ Starts id u v) ∧
      ∀ later rest u, acts₂ = later ++ rest → (machine haversineKm).run t later = some u →
        storedCode u id = none := by
  rw [hacts] at hturn
  have hs := pickupInv_run hturn.prefix initial_pickupInv hrun
  have hstep := (machine haversineKm).step_of_next hnext
  obtain ⟨hturna, hturnt⟩ := hturn.suffix hrun t hnext
  obtain ⟨hcode, hgone⟩ := hs.start hturna hstep hstart
  refine ⟨startedByDriver ?_ hcode, ?_, ?_⟩
  · refine Machine.calls_of_run (P := fun i op => .spawn i op ∈ tripActions jwt arrivals)
      (fun i th hi => ?_) (fun i call hmem => ?_) hrun
    · cases hi
    · rw [hacts]
      exact List.mem_append_left _ hmem
  · intro before later b u v hsplit hrunu hnextv hstartu
    subst hsplit
    rw [List.append_assoc] at hturn
    have hu := pickupInv_run hturn.prefix initial_pickupInv hrunu
    obtain ⟨hturnb, hturnv⟩ := hturn.suffix hrunu v hnextv
    have hstepv := (machine haversineKm).step_of_next hnextv
    have hgonev := (hu.start hturnb hstepv hstartu).2
    rw [Machine.run_append, hrunu, Option.bind_some, Machine.run_cons, hnextv,
      Option.bind_some] at hrun
    obtain ⟨row, hrow, -, hnone⟩ :=
      gone_run hturnv.prefix (hu.step hturnb hstepv) hgonev hrun
    obtain ⟨i, o, th, otp, caller, row', -, -, -, hrow', hotp, -⟩ := hcode
    rw [hrow] at hrow'
    cases hrow'
    rw [hnone] at hotp
    cases hotp
  · intro later rest u hsplit hrunu
    subst hsplit
    obtain ⟨row, hrow, -, hnone⟩ := gone_run hturnt.prefix (hs.step hturna hstep) hgone hrunu
    rw [storedCode, hrow]
    exact hnone

/-- The token of the driver, and no other. -/
def driverToken : JwtService where
  verify token := if token = "t" then some ⟨"driver-1", .driver⟩ else none
  isPlain_sub token user h := by
    split at h
    · cases h
      decide
    · cases h

/-- A request of the driver, who also claims to be somebody else. -/
def driverRequest (path : String) (body : Body) : Arrival :=
  .request
    { method := "POST"
      path := path.toList
      headers := fun name =>
        if name = "authorization" then some "Bearer t"
        else if name = "x-user-id" then some "driver-2"
        else none
      limit := none
      body := body }
    "c" ⟨7, by decide⟩

def requestPayload : Payload :=
  { Payload.empty with
    rideId := some "ride-1", riderId := some "rider-1"
    pickup := some ⟨0, 0⟩, destination := some ⟨0, 0⟩ }

def reservedPayload : Payload :=
  { Payload.empty with rideId := some "ride-1", driverId := some "driver-1" }

/-- A ride from its request to the commit of its start. -/
def startedTrip : List ArrivalAction :=
  [.spawn 0 (.event 1 ⟨0, .rideRequested, "c", some requestPayload⟩), .run 0 {}, .run 0 {},
    .run 0 {}, .run 0 {},
    .spawn 1 (.event 1 ⟨1, .driverReserved, "c", some reservedPayload⟩), .run 1 {}, .run 1 {},
    .run 1 {}, .run 1 {},
    .spawn 2 (driverRequest "trips/ride-1/accept" {}), .run 2 {}, .run 2 {},
    .spawn 3 (driverRequest "trips/ride-1/driver-arrived" {}), .run 3 {}, .run 3 {},
    .spawn 4 (driverRequest "trips/ride-1/start" { otp := .text "0007" }), .run 4 {}, .run 4 {},
    .run 4 {}]

/-- What `startedTrip` means to the trip service, up to the last step. -/
def startedTripOps : List TripAction :=
  [.spawn 0 (.consume 1 ⟨0, .rideRequested, "c", some requestPayload⟩), .run 0 {}, .run 0 {},
    .run 0 {}, .run 0 {},
    .spawn 1 (.consume 1 ⟨1, .driverReserved, "c", some reservedPayload⟩), .run 1 {}, .run 1 {},
    .run 1 {}, .run 1 {},
    .spawn 2 (.accept "ride-1" ⟨7, by decide⟩), .run 2 {}, .run 2 {},
    .spawn 3 (.driverArrived "ride-1"), .run 3 {}, .run 3 {},
    .spawn 4 (.start "ride-1" "0007" (some "driver-1")), .run 4 {}, .run 4 {}]

theorem startedTrip_started :
    ∃ s, StartedByDriver driverToken startedTrip "ride-1" s (.run 4 {}) := by
  have hacts : tripActions driverToken startedTrip = startedTripOps ++ .run 4 {} :: [] := rfl
  have hturn : (machine fun _ _ => some 0).Along (fun s a _ => InTurn s a) (initial .empty)
      (tripActions driverToken startedTrip) := by
    refine Machine.along_inTurn (by rw [hacts]; decide) ?_
    rintro i th ⟨⟩
  have hstatus : (((machine fun _ _ => some 0).run (initial .empty) startedTripOps).bind fun s =>
      ((machine fun _ _ => some 0).next s (.run 4 {})).map fun t =>
        ((s.world.db.findRide "ride-1").map (·.status),
          (t.world.db.findRide "ride-1").map (·.status))) =
      some (some .driverArrived, some .inProgress) := by
    decide +kernel
  obtain ⟨s, hrun, hstatus⟩ := Option.bind_eq_some_iff.mp hstatus
  obtain ⟨t, hnext, hstatus⟩ := Option.map_eq_some_iff.mp hstatus
  obtain ⟨hs, ht⟩ := Prod.mk.inj hstatus
  obtain ⟨row, hrow, harrived⟩ := Option.map_eq_some_iff.mp hs
  refine ⟨s, (starts_by_driver_once hturn hacts hrun hnext
    ⟨Option.map_eq_some_iff.mp ht, ?_⟩).1⟩
  rintro ⟨row', hrow', hstarted⟩
  rw [hrow] at hrow'
  cases hrow'
  rw [harrived] at hstarted
  cases hstarted

end Runs

end ApiGateway

end RydTrip
