import RydTrip.Backend.Threads
import RydTrip.TripService.Rows

/-!
# Steps of the backend

What one step leaves alone, where new events come from, and the facts about
threads and events that hold in every run.
-/

namespace RydTrip

namespace Backend

open Process TripService

/-! ## Where a thread is -/

/-- How far the operation of trip-service has come that has this log. -/
abbrev progressOf (log : BackendLog) : Progress := (track Track.next .start log).trip

/-- What the dispatch owes that has this log. -/
abbrev pendingOf (log : BackendLog) : Dispatch.Pending := (track Track.next .start log).pending

/-- The event has been published. -/
def Published (w : World) (envelope : EventEnvelope) : Prop :=
  w.events[envelope.eventId]? = some envelope

/-- The event an outcome of a dispatch is for trip-service. -/
def outcomeEvent : Dispatch.Outcome → RideEvent
  | .reserved rideId driverId => .reserved rideId driverId
  | .rejected rideId _ => .rejected rideId

theorem ofEnvelope_outcome (outcome : Dispatch.Outcome) (eventId : Nat) (correlationId : String) :
    RideEvent.ofEnvelope ⟨eventId, outcome.topic, correlationId, some outcome.payload⟩ =
      some (outcomeEvent outcome) := by
  cases outcome <;> rfl

/-- A new obligation is a reservation that was just won. -/
theorem pendingOf_cons {c : Cmd} {r : Reply c} {log : BackendLog} {rideId driverId : String}
    (h : pendingOf (⟨c, r⟩ :: log) = some (rideId, driverId)) :
    pendingOf log = some (rideId, driverId) ∨ ∃ ttlSeconds,
      (⟨c, r⟩ : Σ c : Cmd, Reply c) =
        ⟨.dispatch (.tryReserve driverId rideId ttlSeconds), .ok true⟩ := by
  cases c with
  | db c => exact .inl h
  | tripPark fields => exact .inl h
  | drivers c =>
      left
      cases c with
      | findUnique driverId' => exact h
      | update driverId' status => exact h
  | dispatch c =>
      change Dispatch.Pending.next c r (pendingOf log) = _ at h
      unfold Dispatch.Pending.next at h
      split at h
      · cases h
        exact .inr ⟨_, rfl⟩
      · cases h
      · exact .inl h

/-- An operation that is done stays done. -/
theorem done_cons {c : Cmd} {r : Reply c} {log : BackendLog}
    (h : (progressOf (⟨c, r⟩ :: log)).done = false) : (progressOf log).done = false := by
  cases c with
  | dispatch c => exact h
  | tripPark fields => cases h
  | drivers c =>
      cases c with
      | findUnique driverId => exact h
      | update driverId status => exact h
  | db c =>
      cases r with
      | error err => exact (Bool.or_eq_false_iff.mp h).1
      | ok v =>
          change ((progressOf log).afterValue c v).done = false at h
          unfold Progress.afterValue at h
          split at h <;> first | exact h | cases h

/-- What an operation has seen it has just read, or had seen before. -/
theorem seen_cons {c : Cmd} {r : Reply c} {log : BackendLog} {id : String} {row : RideRow}
    (h : (progressOf (⟨c, r⟩ :: log)).seen = some (id, row)) :
    (progressOf log).seen = some (id, row) ∨
      (⟨c, r⟩ : Σ c : Cmd, Reply c) = ⟨.db (.findRide id), .ok (some row)⟩ := by
  cases c with
  | dispatch c => exact .inl h
  | tripPark fields => exact .inl h
  | drivers c =>
      left
      cases c with
      | findUnique driverId => exact h
      | update driverId status => exact h
  | db c =>
      cases r with
      | error err => exact .inl h
      | ok v =>
          change ((progressOf log).afterValue c v).seen = some (id, row) at h
          unfold Progress.afterValue at h
          split at h
          · cases h
            exact .inr rfl
          all_goals exact .inl h

/-! ## What a command leaves alone -/

section Frame

variable {w w' : World} {found : List NearbyDriver} {c : Cmd} {r : Reply c}

theorem afterDispatch_frame (w : World) (c : Dispatch.Cmd) (r : Dispatch.Reply c) :
    (w.afterDispatch c r).trip = w.trip ∧ (w.afterDispatch c r).drivers = w.drivers ∧
      (w.afterDispatch c r).dispatch = w.dispatch ∧ (w.afterDispatch c r).located = w.located ∧
      (w.afterDispatch c r).tripDelivered = w.tripDelivered ∧
      (w.afterDispatch c r).tripParked = w.tripParked := by
  unfold World.afterDispatch
  split <;> exact ⟨rfl, rfl, rfl, rfl, rfl, rfl⟩

theorem updateDriver_frame (w : World) (driverId : String) (status : DriverStatus) :
    ∃ drivers, (w.updateDriver driverId status).2 = { w with drivers := drivers } := by
  unfold World.updateDriver
  split
  · exact ⟨_, rfl⟩
  · exact ⟨w.drivers, rfl⟩

/-- Only database calls touch the trip database. -/
theorem exec_trip (h : w.exec found c = (r, w')) (hc : ∀ c', c ≠ .db c') : w'.trip = w.trip := by
  cases c with
  | db c => exact absurd rfl (hc c)
  | tripPark fields =>
      cases h
      rfl
  | dispatch c =>
      cases h
      exact (afterDispatch_frame ..).1
  | drivers c =>
      cases c with
      | findUnique driverId =>
          cases h
          rfl
      | update driverId status =>
          obtain ⟨drivers, hw⟩ := updateDriver_frame w driverId status
          rw [← show (w.updateDriver driverId status).2 = w' from congrArg Prod.snd h, hw]

/-- Only an update of driver-service touches the driver statuses. -/
theorem exec_drivers (h : w.exec found c = (r, w'))
    (hc : ∀ driverId status, c ≠ .drivers (.update driverId status)) : w'.drivers = w.drivers := by
  cases c with
  | db c =>
      cases h
      rfl
  | tripPark fields =>
      cases h
      rfl
  | dispatch c =>
      cases h
      exact (afterDispatch_frame ..).2.1
  | drivers c =>
      cases c with
      | findUnique driverId =>
          cases h
          rfl
      | update driverId status => exact absurd rfl (hc driverId status)

/-- Commands deliver nothing, and locate nobody. -/
theorem exec_delivered (h : w.exec found c = (r, w')) :
    w'.tripDelivered = w.tripDelivered ∧ w'.located = w.located := by
  cases c with
  | db c =>
      cases h
      exact ⟨rfl, rfl⟩
  | tripPark fields =>
      cases h
      exact ⟨rfl, rfl⟩
  | dispatch c =>
      cases h
      obtain ⟨-, -, -, hlocated, hdelivered, -⟩ := afterDispatch_frame
        { w with dispatch := (w.dispatch.exec { candidates := w.nearby found c } c).2 } c
        (w.dispatch.exec { candidates := w.nearby found c } c).1
      exact ⟨hdelivered, hlocated⟩
  | drivers c =>
      cases c with
      | findUnique driverId =>
          cases h
          exact ⟨rfl, rfl⟩
      | update driverId status =>
          obtain ⟨drivers, hw⟩ := updateDriver_frame w driverId status
          rw [← show (w.updateDriver driverId status).2 = w' from congrArg Prod.snd h, hw]
          exact ⟨rfl, rfl⟩

/-- Only an outcome is published by a command. -/
theorem exec_events (h : w.exec found c = (r, w')) :
    w'.events = w.events ∨ ∃ outcome correlationId key,
      c = .dispatch (.publish outcome correlationId key) ∧ w'.events = w.events ++
        [⟨w.events.length, outcome.topic, correlationId, some outcome.payload⟩] := by
  cases c with
  | db c =>
      cases h
      exact .inl rfl
  | tripPark fields =>
      cases h
      exact .inl rfl
  | dispatch c =>
      cases h
      cases c with
      | publish outcome correlationId key => exact .inr ⟨outcome, correlationId, key, rfl, rfl⟩
      | _ =>
          left
          unfold World.afterDispatch
          split <;> first | rfl | contradiction
  | drivers c =>
      cases c with
      | findUnique driverId =>
          cases h
          exact .inl rfl
      | update driverId status =>
          obtain ⟨drivers, hw⟩ := updateDriver_frame w driverId status
          rw [← show (w.updateDriver driverId status).2 = w' from congrArg Prod.snd h, hw]
          exact .inl rfl

/-- Replies are as the typestates expect them. -/
theorem exec_answered (hw : w.located "" = false) (h : w.exec found c = (r, w')) :
    Answered c r := by
  cases c with
  | tripPark fields =>
      cases h
      rfl
  | drivers c => trivial
  | db c =>
      have hr : r = (TripService.settle .none w.trip (w.trip.exec c)).1 :=
        (congrArg Prod.fst h).symm
      cases c with
      | findRide id => exact ⟨_, hr⟩
      | exec tx e =>
          cases e with
          | transition id tgt options => trivial
          | create input =>
              have hknown : ReplyKnown (.db (.exec tx (.create input))) r := by
                rw [hr]
                exact replyKnown_of_exec (o := {}) (w := ⟨w.trip, [], []⟩) rfl
              cases r with
              | error err => trivial
              | ok row => exact hknown
      | _ => trivial
  | dispatch c =>
      cases h
      cases c with
      | findNearby pickup radiusKm limit =>
          intro candidate hmem hid
          have hlocated := (List.mem_filter.mp (List.mem_of_mem_take hmem)).2
          rw [hid, hw] at hlocated
          cases hlocated
      | publish outcome correlationId key => rfl
      | _ => trivial

end Frame

/-! ## Rows -/

/-- A database call is refused and leaves no trace, or the database answers. -/
theorem exec_db {w w' : World} {found : List NearbyDriver} {c : DbCmd} {r : Reply (.db c)}
    (h : w.exec found (.db c) = (r, w')) :
    (∃ err, w.trip.exec c = .error err ∧ r = .error err ∧ w' = w) ∨
      ∃ v db, w.trip.exec c = .ok (v, db) ∧ r = .ok v ∧ w' = { w with trip := db } := by
  change ((TripService.settle .none w.trip (w.trip.exec c)).1,
    { w with trip := (TripService.settle .none w.trip (w.trip.exec c)).2 }) = (r, w') at h
  cases hx : w.trip.exec c with
  | error err =>
      rw [hx] at h
      cases h
      exact .inl ⟨err, rfl, rfl, rfl⟩
  | ok p =>
      rw [hx] at h
      cases h
      exact .inr ⟨p.1, p.2, rfl, rfl, rfl⟩

/-- A read returns the row that is there. -/
theorem exec_read {w w' : World} {found : List NearbyDriver} {id : String} {row : Option RideRow}
    (h : w.exec found (.db (.findRide id)) = (.ok row, w')) : w.trip.findRide id = row := by
  cases h
  rfl

/-- What a database call of a thread leaves of a row. -/
theorem exec_findRide {w w' : World} {found : List NearbyDriver} {c : Cmd} {r : Reply c}
    {call : Call} {log : BackendLog} (h : w.exec found c = (r, w'))
    (hpre : call.Allows c (track Track.next .start log)) (id : String) :
    w'.trip.findRide id = w.trip.findRide id ∨
      (progressOf log).done = false ∧ (progressOf (⟨c, r⟩ :: log)).done = true ∧
        ∃ op row', call.op = some op ∧
          w'.trip.findRide id = some row' ∧
          RowWritten op (progressOf log) (progressOf (⟨c, r⟩ :: log)) w.trip id row' := by
  cases c with
  | db c =>
      obtain ⟨op, hop, hpre⟩ := hpre
      rcases exec_db h with ⟨err, hx, rfl, rfl⟩ | ⟨v, db, hx, rfl, rfl⟩
      · exact .inl rfl
      · rcases findRide_exec hpre hx id with hsame | ⟨hopen, hdone, row', hrow', hw⟩
        · exact .inl hsame
        · exact .inr ⟨hopen, hdone, op, row', hop, hrow', hw⟩
  | tripPark fields => exact .inl (by rw [exec_trip h fun _ => nofun])
  | dispatch c => exact .inl (by rw [exec_trip h fun _ => nofun])
  | drivers c => exact .inl (by rw [exec_trip h fun _ => nofun])

/-! ## Facts that hold in every run -/

structure Sound (s : BackendPool) : Prop where
  /-- Threads do what their calls may do. -/
  meets : ∀ i th, s.threads i = some th →
    th.Meets Call.Allows Answered Track.next .start Call.Finished
  /-- Only drivers with an id are found, won and announced. -/
  located : s.world.located "" = false
  pending : ∀ i th rideId driverId, s.threads i = some th →
    pendingOf th.log = some (rideId, driverId) → driverId ≠ ""
  reserved : ∀ envelope rideId driverId, Published s.world envelope →
    RideEvent.ofEnvelope envelope = some (.reserved rideId driverId) → driverId ≠ ""
  /-- Only published events are delivered. -/
  delivered : ∀ n, s.world.tripDelivered n = true → n < s.world.events.length
  handled : ∀ i th envelope, s.threads i = some th → th.call = .tripEvent envelope →
    Published s.world envelope ∧ s.world.tripDelivered envelope.eventId = true
  /-- Requests come in through the controller. -/
  routes : ∀ i th op, s.threads i = some th → th.call = .http op → IsRoute op = true

theorem initial_sound (drivers : String → Option DriverStatus) : Sound (initial drivers) :=
  ⟨fun _ _ => nofun, rfl, fun _ _ _ _ => nofun, fun _ _ _ => nofun, fun _ => nofun,
    fun _ _ _ => nofun, fun _ _ _ => nofun⟩

section Steps

variable {cfg : Dispatch.Config} {haversineKm : GeoPoint → GeoPoint → Option Rat}
  {s t : BackendPool} {a : BackendAction} {envelope : EventEnvelope}

theorem getElem?_append_singleton {α : Type} {l : List α} {x y : α} {n : Nat}
    (h : (l ++ [x])[n]? = some y) : l[n]? = some y ∨ (n = l.length ∧ y = x) := by
  rcases Nat.lt_trichotomy n l.length with hn | hn | hn
  · rw [List.getElem?_append_left hn] at h
    exact .inl h
  · subst hn
    rw [List.getElem?_concat_length] at h
    exact .inr ⟨rfl, (Option.some.inj h).symm⟩
  · rw [List.getElem?_eq_none (by simp; omega)] at h
    cases h

theorem event_of_isRoute {op : Op} (h : IsRoute op = true) : op.event = none := by
  cases op <;> first | rfl | cases h

/-- An operation that handles an event was started by its delivery. -/
theorem Sound.event (hs : Sound s) {i : Nat} {th : BackendThread} {op : Op} {event : RideEvent}
    {eventId : Nat} (hi : s.threads i = some th) (hop : th.call.op = some op)
    (hev : op.event = some (event, eventId)) :
    ∃ envelope, th.call = .tripEvent envelope ∧ RideEvent.ofEnvelope envelope = some event ∧
      envelope.eventId = eventId := by
  cases hcall : th.call with
  | http op' =>
      rw [hcall] at hop
      cases hop
      rw [event_of_isRoute (hs.routes i th _ hi hcall)] at hev
      cases hev
  | tripEvent envelope =>
      rw [hcall] at hop
      cases hop
      obtain ⟨event', hof, heq⟩ := Option.map_eq_some_iff.mp hev
      cases heq
      exact ⟨envelope, rfl, hof, rfl⟩
  | dispatchEvent envelope =>
      rw [hcall] at hop
      cases hop
  | updateStatus driverId status =>
      rw [hcall] at hop
      cases hop

/-- The driver of a match has an id, so `transition` stores him. -/
theorem Sound.stores (hs : Sound s) {i : Nat} {th : BackendThread} {op : Op}
    {rideId driverId : String} {eventId : Nat} (hi : s.threads i = some th)
    (hop : th.call.op = some op)
    (hev : op.event = some (.reserved rideId driverId, eventId)) :
    truthy (some driverId) = some driverId ∧ ∃ envelope, th.call = .tripEvent envelope ∧
      RideEvent.ofEnvelope envelope = some (.reserved rideId driverId) := by
  obtain ⟨envelope, hcall, hof, -⟩ := hs.event hi hop hev
  have hne := hs.reserved envelope _ _ (hs.handled i th envelope hi hcall).1 hof
  exact ⟨truthy_eq_some.mpr ⟨rfl, hne⟩, envelope, hcall, hof⟩

/-- The start of a call delivers at most its own event. -/
theorem start_frame {w w' : World} {call : Call} (h : w.start call = some w') :
    w'.events = w.events ∧ w'.trip = w.trip ∧ w'.drivers = w.drivers ∧
      w'.dispatch = w.dispatch ∧ w'.located = w.located ∧ w'.tripParked = w.tripParked ∧
      ∀ n, w'.tripDelivered n = true → w.tripDelivered n = true ∨ ∃ envelope,
        call = .tripEvent envelope ∧ envelope.eventId = n ∧ Published w envelope := by
  unfold World.start at h
  split at h
  · split at h
    · cases h
      exact ⟨rfl, rfl, rfl, rfl, rfl, rfl, fun n hn => .inl hn⟩
    · cases h
  next envelope =>
    split at h
    next hpub =>
      cases h
      refine ⟨rfl, rfl, rfl, rfl, rfl, rfl, fun n hn => ?_⟩
      by_cases hid : n = envelope.eventId
      · exact .inr ⟨envelope, rfl, hid.symm, hpub.1⟩
      · exact .inl ((Function.update_of_ne hid _ _).symm.trans hn)
    next => cases h
  · split at h
    · cases h
      exact ⟨rfl, rfl, rfl, rfl, rfl, rfl, fun n hn => .inl hn⟩
    · cases h
  · cases h
    exact ⟨rfl, rfl, rfl, rfl, rfl, rfl, fun n hn => .inl hn⟩

/-- By itself the world delivers nothing, and it only stamps the database. -/
theorem env_frame {w w' : World} {e : Env} (h : w.env e = some w') :
    w'.tripDelivered = w.tripDelivered ∧ w'.drivers = w.drivers ∧ w'.tripParked = w.tripParked ∧
      (∃ now, w'.trip = { w.trip with now := now }) ∧
      ((∀ ms, e ≠ .elapse ms) → w'.dispatch = w.dispatch) := by
  cases e with
  | requestRide input correlationId =>
      cases h
      exact ⟨rfl, rfl, rfl, ⟨_, rfl⟩, fun _ => rfl⟩
  | cancelRide rideId reason correlationId =>
      cases h
      exact ⟨rfl, rfl, rfl, ⟨_, rfl⟩, fun _ => rfl⟩
  | updateLocation driverId =>
      change (if driverId = "" then none else some _) = some w' at h
      split at h
      · cases h
      · cases h
        exact ⟨rfl, rfl, rfl, ⟨_, rfl⟩, fun _ => rfl⟩
  | elapse ms =>
      cases h
      exact ⟨rfl, rfl, rfl, ⟨_, rfl⟩, fun hne => absurd rfl (hne ms)⟩

/-- What it takes to start a call. -/
theorem start_of_some {w w' : World} {call : Call} (h : w.start call = some w') :
    (∀ op, call = .http op → IsRoute op = true) ∧
      (∀ envelope, call = .tripEvent envelope → Published w envelope ∧
        w.tripDelivered envelope.eventId = false ∧ w'.tripDelivered envelope.eventId = true) ∧
      ∀ n, w.tripDelivered n = true → w'.tripDelivered n = true := by
  unfold World.start at h
  split at h
  · split at h
    next hroute =>
      cases h
      exact ⟨fun op hop => by cases hop; exact hroute, fun _ => nofun, fun _ hn => hn⟩
    next => cases h
  next envelope =>
    split at h
    next hpub =>
      cases h
      refine ⟨fun _ => nofun, fun e he => ?_, fun n hn => ?_⟩
      · cases he
        exact ⟨hpub.1, hpub.2, Function.update_self ..⟩
      · change Function.update w.tripDelivered envelope.eventId true n = true
        rw [Function.update_apply]
        split
        · rfl
        · exact hn
    next => cases h
  · split at h
    · cases h
      exact ⟨fun _ => nofun, fun _ => nofun, fun _ hn => hn⟩
    · cases h
  · cases h
    exact ⟨fun _ => nofun, fun _ => nofun, fun _ hn => hn⟩

/-- A step publishes at most one event: a message of a rider, or the outcome of
a dispatch. -/
theorem step_events (h : (machine cfg haversineKm).Step s a t) :
    t.world.events = s.world.events ∨
      (∃ envelope, t.world.events = s.world.events ++ [envelope] ∧
        ∀ rideId driverId, RideEvent.ofEnvelope envelope ≠ some (.reserved rideId driverId)) ∨
      ∃ i found call outcome correlationId key k log, a = .run i found ∧
        s.threads i = some ⟨call, .call (.dispatch (.publish outcome correlationId key)) k, log⟩ ∧
        t.world.events = s.world.events ++
          [⟨s.world.events.length, outcome.topic, correlationId, some outcome.payload⟩] := by
  cases h with
  | spawn hi hp =>
      obtain ⟨w, hw, heq⟩ := Option.map_eq_some_iff.mp hp
      cases heq
      exact .inl (start_frame hw).1
  | run hi hr =>
      rcases exec_events (Option.some.inj hr) with hsame | ⟨outcome, correlationId, key, rfl, hnew⟩
      · exact .inl hsame
      · exact .inr (.inr ⟨_, _, _, outcome, correlationId, key, _, _, rfl, hi, hnew⟩)
  | @env e w hw =>
      cases e with
      | requestRide input correlationId =>
          cases hw
          exact .inr (.inl ⟨_, rfl, fun _ _ => nofun⟩)
      | cancelRide rideId reason correlationId =>
          cases hw
          exact .inr (.inl ⟨_, rfl, fun _ _ => nofun⟩)
      | updateLocation driverId =>
          change (if driverId = "" then none else some _) = some w at hw
          split at hw
          · cases hw
          · cases hw
            exact .inl rfl
      | elapse ms =>
          cases hw
          exact .inl rfl

theorem Published.step (hp : Published s.world envelope)
    (h : (machine cfg haversineKm).Step s a t) :
    Published t.world envelope := by
  obtain ⟨hlt, -⟩ := List.getElem?_eq_some_iff.mp hp
  rcases step_events h with hsame | ⟨e, hnew, -⟩ | ⟨_, _, _, _, _, _, _, _, -, -, hnew⟩
  · unfold Published
    rw [hsame]
    exact hp
  · unfold Published
    rw [hnew, List.getElem?_append_left hlt]
    exact hp
  · unfold Published
    rw [hnew, List.getElem?_append_left hlt]
    exact hp

/-- A `driver.reserved` event is published by the dispatch that says so. -/
theorem published_reserved (h : (machine cfg haversineKm).Step s a t) {rideId driverId : String}
    (hp : Published t.world envelope)
    (hev : RideEvent.ofEnvelope envelope = some (.reserved rideId driverId)) :
    Published s.world envelope ∨ ∃ i found call correlationId key k log, a = .run i found ∧
      s.threads i = some ⟨call,
        .call (.dispatch (.publish (.reserved rideId driverId) correlationId key)) k, log⟩ := by
  unfold Published at hp
  rcases step_events h with hsame | ⟨e, hnew, he⟩ |
    ⟨i, found, call, outcome, correlationId, key, k, log, ha, hi, hnew⟩
  · rw [hsame] at hp
    exact .inl hp
  · rw [hnew] at hp
    rcases getElem?_append_singleton hp with hp | ⟨-, rfl⟩
    · exact .inl hp
    · exact absurd hev (he _ _)
  · rw [hnew] at hp
    rcases getElem?_append_singleton hp with hp | ⟨-, heq⟩
    · exact .inl hp
    · rw [heq, ofEnvelope_outcome] at hev
      cases outcome with
      | reserved rideId' driverId' =>
          cases hev
          exact .inr ⟨i, found, call, correlationId, key, k, log, ha, hi⟩
      | rejected rideId' reason => cases hev

/-- The dispatch that announces a reservation owes the event. -/
theorem Sound.announces (hs : Sound s) {i : Nat} {call : Call} {rideId driverId : String}
    {correlationId key : String} {k : Except String Unit → Prog Cmd Reply Empty Unit}
    {log : BackendLog} (hi : s.threads i = some ⟨call,
      .call (.dispatch (.publish (.reserved rideId driverId) correlationId key)) k, log⟩) :
    pendingOf log = some (rideId, driverId) :=
  (hs.meets i _ hi).allows.2

/-- What has been delivered is not taken back. -/
theorem delivered_step (h : (machine cfg haversineKm).Step s a t) {n : Nat}
    (hn : s.world.tripDelivered n = true) : t.world.tripDelivered n = true := by
  cases h with
  | spawn hi hp =>
      obtain ⟨w, hw, heq⟩ := Option.map_eq_some_iff.mp hp
      cases heq
      exact (start_of_some hw).2.2 n hn
  | run hi hr =>
      rw [(exec_delivered (Option.some.inj hr)).1]
      exact hn
  | env hw =>
      rw [(env_frame hw).1]
      exact hn

/-- No driver without an id reports where it is. -/
theorem Sound.located_step (hs : Sound s) (h : (machine cfg haversineKm).Step s a t) :
    t.world.located "" = false := by
  cases h with
  | spawn hi hp =>
      obtain ⟨w, hw, heq⟩ := Option.map_eq_some_iff.mp hp
      cases heq
      obtain ⟨-, -, -, -, hlocated, -⟩ := start_frame hw
      rw [hlocated]
      exact hs.located
  | run hi hr =>
      rw [(exec_delivered (Option.some.inj hr)).2]
      exact hs.located
  | @env e w hw =>
      cases e with
      | requestRide input correlationId =>
          cases hw
          exact hs.located
      | cancelRide rideId reason correlationId =>
          cases hw
          exact hs.located
      | updateLocation driverId =>
          change (if driverId = "" then none else some _) = some w at hw
          split at hw
          · cases hw
          next hne =>
            cases hw
            exact (Function.update_of_ne (Ne.symm hne) _ _).trans hs.located
      | elapse ms =>
          cases hw
          exact hs.located

/-- Events are only added. -/
theorem events_length_step (h : (machine cfg haversineKm).Step s a t) :
    s.world.events.length ≤ t.world.events.length := by
  rcases step_events h with hsame | ⟨e, hnew, -⟩ | ⟨_, _, _, _, _, _, _, _, -, -, hnew⟩
  · rw [hsame]
  · rw [hnew, List.length_append]
    exact Nat.le_add_right _ _
  · rw [hnew, List.length_append]
    exact Nat.le_add_right _ _

/-- What has been delivered has been published. -/
theorem Sound.delivered_lt (hs : Sound s) (h : (machine cfg haversineKm).Step s a t) {n : Nat}
    (hn : t.world.tripDelivered n = true) : n < t.world.events.length := by
  refine Nat.lt_of_lt_of_le ?_ (events_length_step h)
  cases h with
  | spawn hi hp =>
      obtain ⟨w, hw, heq⟩ := Option.map_eq_some_iff.mp hp
      cases heq
      obtain ⟨-, -, -, -, -, -, hdelivered⟩ := start_frame hw
      rcases hdelivered n hn with hn | ⟨e, -, rfl, hpub⟩
      · exact hs.delivered n hn
      · exact (List.getElem?_eq_some_iff.mp hpub).1
  | run hi hr =>
      rw [(exec_delivered (Option.some.inj hr)).1] at hn
      exact hs.delivered n hn
  | @env e w hw =>
      rw [(env_frame hw).1] at hn
      exact hs.delivered n hn

theorem Sound.step (hs : Sound s) (h : (machine cfg haversineKm).Step s a t) : Sound t where
  meets := by
    refine Machine.typestate_step (m := machine cfg haversineKm) ?_ ?_ hs.meets h
    · intro i call w p w' _ hp
      obtain ⟨w'', -, heq⟩ := Option.map_eq_some_iff.mp hp
      cases heq
      exact prog_wp cfg haversineKm call
    · intro i found c r w' _ hr
      exact exec_answered hs.located (Option.some.inj hr)
  located := hs.located_step h
  pending := by
    intro j th rideId driverId hj
    refine Machine.threads_step (P := fun _ th => pendingOf th.log = some (rideId, driverId) → _)
      ?_ ?_ (fun i th hi => hs.pending i th rideId driverId hi) h j th hj
    · intro i call p _ _ hpending
      cases hpending
    · intro i found call c k log r _ hi _ hpending
      rcases pendingOf_cons hpending with hp | ⟨ttlSeconds, heq⟩
      · exact hs.pending i _ _ _ hi hp
      · cases heq
        exact (hs.meets i _ hi).allows.2.2
  reserved := by
    intro envelope rideId driverId hp hev
    rcases published_reserved h hp hev with hp | ⟨i, found, call, correlationId, key, k, log, -, hi⟩
    · exact hs.reserved _ _ _ hp hev
    · exact hs.pending _ _ _ _ hi (hs.announces hi)
  delivered _ hn := hs.delivered_lt h hn
  handled := by
    intro j th envelope hj
    have hold (i : Nat) (th : BackendThread) (hi : s.threads i = some th)
        (hcall : th.call = .tripEvent envelope) : Published t.world envelope ∧
        t.world.tripDelivered envelope.eventId = true := by
      obtain ⟨hpub, hdel⟩ := hs.handled i th envelope hi hcall
      exact ⟨hpub.step h, delivered_step h hdel⟩
    refine Machine.threads_step (P := fun _ th => th.call = .tripEvent envelope → _)
      ?_ ?_ hold h j th hj
    · intro i call p _ hp hcall
      obtain ⟨w, hw, heq⟩ := Option.map_eq_some_iff.mp hp
      cases heq
      obtain ⟨hpub, -, hdel⟩ := (start_of_some hw).2.1 envelope hcall
      exact ⟨hpub.step h, hdel⟩
    · intro i found call c k log r _ hi _ hcall
      exact hold i _ hi hcall
  routes := by
    intro j th op hj
    refine Machine.threads_step (P := fun _ th => th.call = .http op → IsRoute op = true)
      ?_ ?_ (fun i th hi => hs.routes i th op hi) h j th hj
    · intro i call p _ hp hcall
      obtain ⟨w, hw, -⟩ := Option.map_eq_some_iff.mp hp
      exact (start_of_some hw).1 op hcall
    · intro i found call c k log r _ hi _ hcall
      exact hs.routes i _ op hi hcall

end Steps

end Backend

end RydTrip
