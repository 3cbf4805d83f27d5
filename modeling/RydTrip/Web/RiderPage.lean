import RydTrip.Process.Transition
import RydTrip.Web.RideStore

/-!
# The rider's page

The page hears about its ride in two ways.  It listens to the bus, with
listeners that have captured the active ride of some render, and it polls the
backend, with one poll effect for each ride and status.  A poll waits for up to
three responses, and between them anything can happen: the rider requests,
cancels or drops a ride, React renders and runs effects, other polls go on.

`Follows` says that a step which belongs to another ride is not seen.  The
listener of `driver.assigned` and the poll that waits for a driver's contact do
not check the ride, so this does not hold of all runs.  `follows_iff` says of
which it does.
-/

namespace RydTrip

namespace Web

open Process

def TERMINAL_STATUSES : List RideStatus := [.completed, .cancelled]

/-- What `getTrip` returns, with the fields that the poll reads. -/
structure BackendTrip where
  driverId : Option String
  status : RideStatus
  deriving DecidableEq, Repr

structure DriverContact where
  name : String
  phone : String
  deriving DecidableEq, Repr

/-! ## The page -/

/-- One run of the poll effect: the variables its closures share. -/
structure PollEffect where
  rideId : String
  stopped : Bool
  deriving DecidableEq, Repr

/-- What a call of `poll` waits for.  After the contact only the pickup of
`current` is still read. -/
inductive Stage where
  | gettingTrip
  | gettingContact (driverId : String) (status : RideStatus) (pickup : LocationPoint)
  | gettingOtp
  | done
  deriving DecidableEq, Repr

/-- A call of `poll`, by the number of the effect it was started in. -/
structure Poll where
  effect : Nat
  stage : Stage
  deriving DecidableEq, Repr

/-- The page and the store.  `rendered` is the active ride of the last render,
`none` while the page is not mounted, and `subscribed` the one that the
listeners have captured.  `deps` are the dependencies with which the poll effect
last ran, and `cleanup` is the effect that its cleanup stops. -/
structure RiderPage where
  store : RideStore
  rendered : Option (Option Ride)
  subscribed : Option (Option Ride)
  deps : Option (Option (String × RideStatus))
  cleanup : Option Nat
  effects : List PollEffect
  polls : List Poll
  deriving DecidableEq, Repr

namespace RiderPage

/-- A time `now` is the text of the clock when the step runs. -/
inductive Event where
  /-- `createRide` has returned. -/
  | requested (rideId : String) (pickup : LocationPoint) (now : String)
  /-- `cancelRide` has returned. -/
  | cancelled (now : String)
  /-- The rider starts over. -/
  | reset
  | render
  /-- React runs the effects of the last render. -/
  | effects
  | unmount
  | statusChanged (rideId : String) (status : RideStatus) (now : String)
  | driverAssigned (rideId : String) (driver : DriverInfo) (now : String)
  | locationUpdated (location : LocationPoint)
  /-- The interval of a poll effect fires. -/
  | tick (k : Nat)
  /-- `getTrip` of poll `j` returns, or it fails. -/
  | tripResponse (j : Nat) (trip : Option BackendTrip) (now : String)
  | contactResponse (j : Nat) (contact : Option DriverContact) (now : String)
  | otpResponse (j : Nat) (otp : Option String)
  deriving DecidableEq, Repr

def new : RiderPage where
  store := .new
  rendered := none
  subscribed := none
  deps := none
  cleanup := none
  effects := []
  polls := []

/-! ## Listeners -/

/-- The listener of `ride.status.changed`.  It compares with the ride it has
captured, and `updateRideStatus` works on the ride that is active now. -/
def onStatusChanged (page : RiderPage) (rideId : String) (status : RideStatus) (now : String) :
    RiderPage :=
  match page.subscribed with
  | some (some activeRide) =>
      if activeRide.id = rideId then { page with store := page.store.updateRideStatus status now }
      else page
  | _ => page

/-- The listener of `driver.assigned`. -/
def onDriverAssigned (page : RiderPage) (driver : DriverInfo) (now : String) : RiderPage :=
  match page.subscribed with
  | some _ => { page with store := page.store.assignDriver driver now }
  | none => page

/-- The listener of `driver.location.updated`. -/
def onLocationUpdated (page : RiderPage) (location : LocationPoint) : RiderPage :=
  match page.subscribed with
  | some _ => { page with store := page.store.updateDriverLocation location }
  | none => page

/-! ## Effects -/

/-- The cleanup of the poll effect, if its last run has left one. -/
def runCleanup (page : RiderPage) : RiderPage :=
  match page.cleanup with
  | some k =>
      { page with
        effects := page.effects.modify k fun effect => { effect with stopped := true }
        cleanup := none }
  | none => page

/-- A new run of the poll effect, with its first poll. -/
def startPolling (page : RiderPage) (rideId : String) : RiderPage :=
  { page with
    cleanup := some page.effects.length
    effects := page.effects ++ [{ rideId := rideId, stopped := false }]
    polls := page.polls ++ [{ effect := page.effects.length, stage := .gettingTrip }] }

/-- The effects of a render with the active ride `activeRide`.  The listeners
are renewed, and the poll effect runs again if the ride or its status is not
the one of its last run. -/
def runEffects (page : RiderPage) (activeRide : Option Ride) : RiderPage :=
  let page := { page with subscribed := some activeRide }
  let deps := activeRide.map fun ride => (ride.id, ride.status)
  if page.deps = some deps then page
  else
    let page := { page.runCleanup with deps := some deps }
    match activeRide with
    | some ride => if ride.status ∈ TERMINAL_STATUSES then page else page.startPolling ride.id
    | none => page

def unmount (page : RiderPage) : RiderPage :=
  { page.runCleanup with rendered := none, subscribed := none, deps := none }

/-! ## Polls -/

def setStage (page : RiderPage) (j : Nat) (stage : Stage) : RiderPage :=
  { page with polls := page.polls.modify j fun poll => { poll with stage := stage } }

/-- The effect that poll `j` was started in, and what the poll waits for. -/
def awaiting (page : RiderPage) (j : Nat) : Option (PollEffect × Stage) :=
  page.polls[j]?.bind fun poll => page.effects[poll.effect]?.map fun effect => (effect, poll.stage)

/-- The driver whose contact the poll asks for: the one of the trip, once it has
accepted and unless the ride has it already. -/
def driverToFetch (current : Ride) (trip : BackendTrip) : Option String :=
  match truthy trip.driverId with
  | some driverId =>
      if trip.status ≠ .matched ∧ current.driver.map DriverInfo.id ≠ some driverId then
        some driverId
      else none
  | none => none

/-- The driver that the poll assigns. -/
def contactDriver (driverId : String) (contact : Option DriverContact) (pickup : LocationPoint) :
    DriverInfo where
  id := driverId
  name := (contact.map DriverContact.name).getD "Driver"
  rating := none
  totalTrips := none
  vehicleModel := "Vehicle details not yet tracked"
  vehicleColor := none
  licensePlate := none
  phone := (contact.map DriverContact.phone).getD ""
  currentLocation := pickup

/-- The poll updates the status unless the active ride has it. -/
def showStatus (store : RideStore) (status : RideStatus) (now : String) : RideStore :=
  if store.activeRide.map Ride.status ≠ some status then store.updateRideStatus status now
  else store

/-- The part of `poll` after the driver: the status, and whether to ask for the
pickup code. -/
def pollStatus (page : RiderPage) (j : Nat) (status : RideStatus) (now : String) : RiderPage :=
  let store := showStatus page.store status now
  let page := { page with store := store }
  if (status = .driverArriving ∨ status = .driverArrived) ∧
      truthy (store.activeRide.bind Ride.otp) = none then
    page.setStage j .gettingOtp
  else page.setStage j .done

/-- `poll` from the response of `getTrip` on. -/
def pollTrip (page : RiderPage) (j : Nat) (effect : PollEffect) (trip : Option BackendTrip)
    (now : String) : RiderPage :=
  match trip, page.store.activeRide with
  | some trip, some current =>
      if effect.stopped = true ∨ current.id ≠ effect.rideId then page.setStage j .done
      else
        match driverToFetch current trip with
        | some driverId => page.setStage j (.gettingContact driverId trip.status current.pickup)
        | none => page.pollStatus j trip.status now
  | _, _ => page.setStage j .done

/-- `poll` from the response of `getDriverContact` on. -/
def pollContact (page : RiderPage) (j : Nat) (driver : DriverInfo) (status : RideStatus)
    (now : String) : RiderPage :=
  pollStatus { page with store := page.store.assignDriver driver now } j status now

/-- `poll` from the response of `getTripOtp` on. -/
def pollOtp (page : RiderPage) (j : Nat) (effect : PollEffect) (otp : Option String) : RiderPage :=
  match truthy otp with
  | some otp =>
      if page.store.activeRide.map Ride.id = some effect.rideId then
        { page with store := page.store.setOtp otp }.setStage j .done
      else page.setStage j .done
  | none => page.setStage j .done

/-! ## Steps -/

def next (page : RiderPage) : Event → Option RiderPage
  | .requested rideId pickup now =>
      some { page with store := page.store.setActiveRide (some (.create rideId pickup now)) }
  | .cancelled now => some { page with store := page.store.cancelActiveRide now }
  | .reset => some { page with store := page.store.resetRide }
  | .render => some { page with rendered := some page.store.activeRide }
  | .effects => page.rendered.map page.runEffects
  | .unmount => some page.unmount
  | .statusChanged rideId status now => some (page.onStatusChanged rideId status now)
  | .driverAssigned _ driver now => some (page.onDriverAssigned driver now)
  | .locationUpdated location => some (page.onLocationUpdated location)
  | .tick k =>
      match page.effects[k]? with
      | some effect =>
          if effect.stopped then none
          else some { page with polls := page.polls ++ [{ effect := k, stage := .gettingTrip }] }
      | none => none
  | .tripResponse j trip now =>
      match page.awaiting j with
      | some (effect, .gettingTrip) => some (page.pollTrip j effect trip now)
      | _ => none
  | .contactResponse j contact now =>
      match page.awaiting j with
      | some (_, .gettingContact driverId status pickup) =>
          some (page.pollContact j (contactDriver driverId contact pickup) status now)
      | _ => none
  | .otpResponse j otp =>
      match page.awaiting j with
      | some (effect, .gettingOtp) => some (page.pollOtp j effect otp)
      | _ => none

def system : Transition RiderPage Event where
  next := next

/-! ## Following one's own ride -/

/-- The ride that an event of the bus or a response of a poll belongs to. -/
def rideOf (page : RiderPage) : Event → Option String
  | .statusChanged rideId _ _ | .driverAssigned rideId _ _ => some rideId
  | .tripResponse j _ _ | .contactResponse j _ _ | .otpResponse j _ =>
      (page.awaiting j).map fun pending => pending.1.rideId
  | _ => none

/-- What the rider does, as opposed to what the page, the bus and the polls do. -/
def OfRider : Event → Prop
  | .requested _ _ _ | .cancelled _ | .reset => True
  | _ => False

/-- The step belongs to a ride other than the active one. -/
def Foreign (page : RiderPage) (e : Event) : Prop :=
  ∃ rideId, page.rideOf e = some rideId ∧ page.store.Foreign rideId

/-- The view does not change in a step that belongs to another ride. -/
def Follows (page : RiderPage) (e : Event) (page' : RiderPage) : Prop :=
  page.Foreign e → page'.store.view = page.store.view

/-- The active ride has this driver and this status already. -/
def Shows (page : RiderPage) (driver : DriverInfo) (status : RideStatus) : Prop :=
  ∀ ride, page.store.activeRide = some ride → ride.driver = some driver ∧ ride.status = status

/-- What keeps an event of another ride from being seen.  A status must not be
for the ride that the listeners have captured, a driver must not be assigned
while they listen, and a contact must not arrive, unless the active ride shows
the same already. -/
def Unseen (page : RiderPage) : Event → Prop
  | .statusChanged rideId status _ =>
      (∃ activeRide, page.subscribed = some (some activeRide) ∧ activeRide.id = rideId) →
        ∀ ride, page.store.activeRide = some ride → ride.status = status
  | .driverAssigned _ driver _ => page.subscribed ≠ none → page.Shows driver .matched
  | .contactResponse j contact _ =>
      ∀ effect driverId status pickup,
        page.awaiting j = some (effect, .gettingContact driverId status pickup) →
          page.Shows (contactDriver driverId contact pickup) status
  | _ => True

/-! ## One step -/

@[simp] theorem setStage_store (page : RiderPage) (j : Nat) (stage : Stage) :
    (page.setStage j stage).store = page.store := rfl

@[simp] theorem runCleanup_store (page : RiderPage) : page.runCleanup.store = page.store := by
  unfold runCleanup
  split
  · rfl
  · rfl

@[simp] theorem runEffects_store (page : RiderPage) (activeRide : Option Ride) :
    (page.runEffects activeRide).store = page.store := by
  unfold runEffects
  by_cases hdeps : page.deps = some (activeRide.map fun ride => (ride.id, ride.status))
  · rw [if_pos hdeps]
  · rw [if_neg hdeps]
    cases activeRide with
    | none => exact runCleanup_store _
    | some ride =>
        dsimp only
        split
        · exact runCleanup_store _
        · exact runCleanup_store _

theorem pollStatus_store (page : RiderPage) (j : Nat) (status : RideStatus) (now : String) :
    (page.pollStatus j status now).store = showStatus page.store status now := by
  unfold pollStatus
  dsimp only
  split
  · rfl
  · rfl

/-- After `showStatus` the rider sees the status. -/
theorem view_showStatus (store : RideStore) (status : RideStatus) (now : String) :
    (showStatus store status now).view =
      store.view.map fun view => { view with status := status } := by
  unfold showStatus
  split
  case isTrue => exact RideStore.view_updateRideStatus _ _ _
  case isFalse hsame =>
      rw [not_not] at hsame
      rw [← RideStore.view_updateRideStatus store status now, eq_comm,
        RideStore.view_updateRideStatus_eq_iff]
      intro ride hride
      rw [hride] at hsame
      exact Option.some.inj hsame

/-- A poll that has the contact shows the driver and the status of its own
ride, whatever ride is active. -/
theorem view_pollContact_eq_iff {page : RiderPage} {j : Nat} {driver : DriverInfo}
    {status : RideStatus} {now : String} :
    (page.pollContact j driver status now).store.view = page.store.view ↔
      page.Shows driver status := by
  rw [pollContact, pollStatus_store, view_showStatus, RideStore.view_assignDriver,
    Option.map_map, RideStore.view, Shows]
  cases page.store.activeRide with
  | none => simp
  | some current => simp [Ride.view, eq_comm, and_comm]

theorem pollTrip_of_foreign {page : RiderPage} {effect : PollEffect}
    (hforeign : page.store.Foreign effect.rideId) (j : Nat) (trip : Option BackendTrip)
    (now : String) : (page.pollTrip j effect trip now).store = page.store := by
  unfold pollTrip
  split
  case h_1 trip current hride =>
      have hother : current.id ≠ effect.rideId := by
        rw [RideStore.Foreign, hride, Option.map_some] at hforeign
        exact fun heq => hforeign (congrArg some heq)
      rw [if_pos (.inr hother), setStage_store]
  case h_2 => exact setStage_store _ _ _

theorem pollOtp_of_foreign {page : RiderPage} {effect : PollEffect}
    (hforeign : page.store.Foreign effect.rideId) (j : Nat) (otp : Option String) :
    (page.pollOtp j effect otp).store = page.store := by
  unfold pollOtp
  split
  · rw [if_neg hforeign, setStage_store]
  · rw [setStage_store]

/-- A status event is unseen exactly if it does not reach `updateRideStatus`,
or the ride has this status. -/
theorem view_onStatusChanged_eq_iff {page : RiderPage} {rideId : String} {status : RideStatus}
    {now : String} :
    (page.onStatusChanged rideId status now).store.view = page.store.view ↔
      page.Unseen (.statusChanged rideId status now) := by
  unfold onStatusChanged Unseen
  split
  case h_1 activeRide hcaptured =>
      split
      case isTrue hid =>
          rw [RideStore.view_updateRideStatus_eq_iff]
          exact ⟨fun h _ => h, fun h => h ⟨activeRide, hcaptured, hid⟩⟩
      case isFalse hid =>
          refine iff_of_true rfl ?_
          rintro ⟨captured, hc, hid'⟩
          rw [hcaptured] at hc
          cases hc
          exact absurd hid' hid
  case h_2 hnone =>
      refine iff_of_true rfl ?_
      rintro ⟨captured, hc, -⟩
      exact absurd hc (hnone captured)

theorem view_onDriverAssigned_eq_iff {page : RiderPage} {rideId : String} {driver : DriverInfo}
    {now : String} :
    (page.onDriverAssigned driver now).store.view = page.store.view ↔
      page.Unseen (.driverAssigned rideId driver now) := by
  unfold onDriverAssigned Unseen
  cases page.subscribed with
  | none => exact iff_of_true rfl fun h => absurd rfl h
  | some captured =>
      dsimp only
      rw [RideStore.view_assignDriver_eq_iff]
      exact ⟨fun h _ => h, fun h => h (Option.some_ne_none _)⟩

/-- A step of another ride is not seen exactly if its event is `Unseen`. -/
theorem follows_iff_unseen (page : RiderPage) (e : Event) (page' : RiderPage)
    (hnext : system.next page e = some page') :
    page.Follows e page' ↔ (page.Foreign e → page.Unseen e) := by
  refine imp_congr_right fun ⟨rideId, hof, hforeign⟩ => ?_
  cases e with
  | requested => cases hof
  | cancelled => cases hof
  | reset => cases hof
  | render => cases hof
  | effects => cases hof
  | unmount => cases hof
  | locationUpdated => cases hof
  | tick => cases hof
  | statusChanged =>
      cases hnext
      exact view_onStatusChanged_eq_iff
  | driverAssigned =>
      cases hnext
      exact view_onDriverAssigned_eq_iff
  | tripResponse j trip now =>
      refine iff_of_true ?_ trivial
      simp only [system, next] at hnext
      split at hnext
      case h_1 effect hawait =>
          cases hnext
          rw [rideOf, hawait] at hof
          cases hof
          rw [pollTrip_of_foreign hforeign]
      case h_2 => cases hnext
  | contactResponse j contact now =>
      simp only [system, next] at hnext
      split at hnext
      case h_1 effect driverId status pickup hawait =>
          cases hnext
          rw [view_pollContact_eq_iff, Unseen, hawait]
          constructor
          · rintro h _ _ _ _ ⟨⟩
            exact h
          · exact fun h => h effect driverId status pickup rfl
      case h_2 => cases hnext
  | otpResponse j otp =>
      refine iff_of_true ?_ trivial
      simp only [system, next] at hnext
      split at hnext
      case h_1 effect hawait =>
          cases hnext
          rw [rideOf, hawait] at hof
          cases hof
          rw [pollOtp_of_foreign hforeign]
      case h_2 => cases hnext

/-- A step of the page itself, which belongs to no ride, is not seen. -/
theorem view_of_idle {page : RiderPage} {e : Event} {page' : RiderPage}
    (hnext : system.next page e = some page') (hof : page.rideOf e = none)
    (hidle : ¬ OfRider e) : page'.store.view = page.store.view := by
  cases e with
  | requested => exact absurd trivial hidle
  | cancelled => exact absurd trivial hidle
  | reset => exact absurd trivial hidle
  | render =>
      cases hnext
      rfl
  | effects =>
      obtain ⟨activeRide, -, rfl⟩ := Option.map_eq_some_iff.mp hnext
      rw [runEffects_store]
  | unmount =>
      cases hnext
      exact congrArg RideStore.view page.runCleanup_store
  | statusChanged => cases hof
  | driverAssigned => cases hof
  | locationUpdated =>
      cases hnext
      unfold onLocationUpdated
      split
      · rfl
      · rfl
  | tick k =>
      simp only [system, next] at hnext
      split at hnext
      case h_1 effect heffect =>
          split at hnext
          · cases hnext
          · cases hnext
            rfl
      case h_2 => cases hnext
  | tripResponse j =>
      simp [system, next, Option.map_eq_none_iff.mp hof] at hnext
  | contactResponse j =>
      simp [system, next, Option.map_eq_none_iff.mp hof] at hnext
  | otpResponse j =>
      simp [system, next, Option.map_eq_none_iff.mp hof] at hnext

/-! ## Whole runs -/

/-- The view follows its own ride in every step of a run exactly if every step
that belongs to another ride is unseen: no status event comes for a ride that
the listeners have captured and that is not active any more, no driver is
assigned to another ride while they listen, and no contact arrives for a ride
that was active when the poll asked, unless it is what the rider sees anyway. -/
theorem follows_iff (events : List Event) :
    system.Along Follows new events ↔
      system.Along (fun page e _ => page.Foreign e → page.Unseen e) new events :=
  Transition.along_iff_of_invariant (I := fun _ => True)
    (fun page e page' _ hnext => follows_iff_unseen page e page' hnext)
    (fun _ _ _ _ _ _ => trivial) trivial

/-- The view stays in a run in which the rider does nothing, nothing belongs to
the active ride, and what belongs to other rides is unseen. -/
theorem view_of_run {page page' : RiderPage} {events : List Event}
    (along : system.Along (fun page e _ => ¬ OfRider e ∧
      ∀ rideId, page.rideOf e = some rideId → page.store.Foreign rideId ∧ page.Unseen e)
      page events)
    (hrun : system.run page events = some page') : page'.store.view = page.store.view := by
  refine Transition.run_invariant (I := fun p => p.store.view = page.store.view) ?_ rfl along hrun
  intro p e p' hview hnext ⟨hidle, hother⟩
  rw [← hview]
  cases hof : p.rideOf e with
  | none => exact view_of_idle hnext hof hidle
  | some rideId =>
      obtain ⟨hforeign, hunseen⟩ := hother rideId hof
      exact (follows_iff_unseen p e p' hnext).mpr (fun _ => hunseen) ⟨rideId, hof, hforeign⟩

/-- The rider requests a ride, the page shows it, and a driver is assigned to
another one. -/
def requestRide : List Event :=
  [.requested "ride-1" ⟨12, 77, "MG Road", none⟩ "2024-01-01T00:00:00.000Z", .render, .effects]

def otherDriver : DriverInfo where
  id := "driver-2"
  name := "Asha"
  rating := none
  totalTrips := none
  vehicleModel := "Vehicle details not yet tracked"
  vehicleColor := none
  licensePlate := none
  phone := "555-0102"
  currentLocation := ⟨13, 78, "Airport", none⟩

/-- The rider sees the driver of the other ride. -/
theorem otherDriver_not_follows : ¬ ∀ events, system.Along Follows new events := by
  intro hall
  have hrun : ∃ page, system.run new requestRide = some page ∧
      page.store.Foreign "ride-2" ∧
      (page.onDriverAssigned otherDriver "2024-01-01T00:00:05.000Z").store.view ≠
        page.store.view := by
    refine ⟨_, rfl, by decide, by decide⟩
  obtain ⟨page, hpage, hforeign, hseen⟩ := hrun
  refine Transition.not_along_of_run hpage ?_
    (hall (requestRide ++ [.driverAssigned "ride-2" otherDriver "2024-01-01T00:00:05.000Z"]))
  intro along
  exact hseen ((along _ rfl).1 ⟨"ride-2", rfl, hforeign⟩)

end RiderPage

end Web

end RydTrip
