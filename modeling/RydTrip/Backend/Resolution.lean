import RydTrip.Backend.Answers
import RydTrip.TripService.Redelivery

/-!
# No ride is left waiting

A ride is inserted and taken to MATCHING in one transaction, and nothing takes
it back there, however operations overtake each other.  So an event that has
been handled has left its mark on the ride for good, or else it is parked.  With
`outcomes_match_requests` this gives what becomes of a request in the end: its
ride is past matching, or the outcome of its dispatch is a dead letter.
-/

namespace RydTrip

namespace Backend

open Process TripService

/-! ## The mark of an event -/

/-- The event has been applied, or there was no need. -/
def Marked (db : TripDb) : RideEvent → Prop
  | .requested input => (db.findRide input.id).isSome
  | .cancelled rideId _ => PastMatching db rideId
  | .reserved rideId _ => PastMatching db rideId
  | .rejected rideId => PastMatching db rideId

def IsParked (w : World) (envelope : EventEnvelope) : Prop :=
  ∃ fields ∈ w.tripParked, fields.envelope = some envelope

theorem past_of_transition {src tgt : RideStatus} (hsrc : src ≠ .requested)
    (h : canTransitionRideStatus src tgt = true) : tgt ≠ .requested ∧ tgt ≠ .matching := by
  revert hsrc h
  cases src <;> cases tgt <;> decide

/-- An insert is refused only for a ride that exists. -/
theorem create_duplicate {db : TripDb} {input : CreateRideInput}
    (h : (Exec.create input).apply db = .error .uniqueConstraint) :
    (db.findRide input.id).isSome := by
  rcases bind_eq_error.mp h with h | ⟨p, -, h⟩
  · unfold TripDb.createRide at h
    split at h
    next hsome => exact hsome
    next => cases h
  · cases h

/-- A request is refused as a duplicate when its key is taken or its ride
exists. -/
theorem applyAll_duplicate {db : TripDb} {input : CreateRideInput}
    (h : applyAll (RideEvent.requested input).writes db = .error .uniqueConstraint) :
    (db.findRide input.id).isSome := by
  rcases bind_eq_error.mp h with h | ⟨p, -, h⟩
  · exact create_duplicate h
  · rcases bind_eq_error.mp h with h | ⟨p, -, h⟩
    · exact absurd h Exec.transition_error
    · cases h

/-- The statements of a request are the insert and the transition. -/
theorem staged_of_requested {staged : List Exec} {e : Exec} {input : CreateRideInput}
    (h : staged ++ [e] <+: (RideEvent.requested input).writes) :
    (staged = [] ∧ e = .create input) ∨
      (staged = [.create input] ∧ e = .transition input.id .matching {}) := by
  cases staged with
  | nil =>
      obtain ⟨rest, h⟩ := h
      exact .inl ⟨rfl, (List.cons.inj h).1⟩
  | cons e₁ staged =>
      obtain ⟨rest, h⟩ := h
      obtain ⟨hhead, htail⟩ := List.cons.inj h
      rw [hhead]
      cases staged with
      | nil => exact .inr ⟨rfl, (List.cons.inj htail).1⟩
      | cons e₂ staged =>
          have hlen := congrArg List.length (List.cons.inj htail).2
          simp at hlen

theorem requested_duplicate {op : Op} {g : Progress} {c : DbCmd} {db : TripDb}
    {input : CreateRideInput} {eventId : Nat} (hpre : op.Allows (.db c) g)
    (hx : db.exec c = .error .uniqueConstraint)
    (hop : op.event = some (.requested input, eventId)) :
    db.processed ⟨eventId, consumerName⟩ = true ∨ (db.findRide input.id).isSome := by
  cases c with
  | begin key =>
      obtain ⟨-, event', eventId', hop', rfl⟩ := hpre
      cases hop.symm.trans hop'
      have h := map_eq_error.mp hx
      unfold TripDb.beginProcessed at h
      split at h
      next hkey => exact .inl hkey
      next => cases h
  | exec tx e =>
      obtain ⟨-, -, -, event', eventId', hop', -, hbegin, -⟩ := hpre
      cases hop.symm.trans hop'
      have h := map_eq_error.mp hx
      unfold Tx.exec at h
      right
      rcases staged_of_requested hbegin with ⟨hstaged, rfl⟩ | ⟨hstaged, rfl⟩
      · rw [hstaged] at h
        rcases bind_eq_error.mp h with h | ⟨db₁, hdb₁, h⟩
        · cases h
        · cases hdb₁
          rcases bind_eq_error.mp h with h | ⟨p, -, h⟩
          · exact create_duplicate h
          · cases h
      · rw [hstaged] at h
        rcases bind_eq_error.mp h with h | ⟨db₁, -, h⟩
        · rcases bind_eq_error.mp h with h | ⟨p, -, h⟩
          · exact create_duplicate h
          · cases h
        · rcases bind_eq_error.mp h with h | ⟨p, -, h⟩
          · exact absurd h Exec.transition_error
          · cases h
  | commit tx =>
      obtain ⟨-, -, -, event', eventId', hop', hkey, hstaged, -⟩ := hpre
      cases hop.symm.trans hop'
      rcases bind_eq_error.mp (map_eq_error.mp hx) with h | ⟨db₁, hdb₁, h⟩
      · unfold TripDb.createProcessedEvent at h
        split at h
        next hk => exact .inl (by rwa [hkey] at hk)
        next => cases h
      · right
        rw [hstaged] at h
        rw [← TripDb.findRide_createProcessedEvent hdb₁]
        exact applyAll_duplicate h
  | transact e =>
      obtain ⟨-, -, -, -, -, hnone, -⟩ := Op.Transacts.transition hpre.2.1
      cases hop.symm.trans hnone
  | findRide id => cases hx
  | getOtp id => cases hx
  | findActive driverId => cases hx
  | findByRider riderId limit => cases hx
  | findByDriver driverId limit => cases hx

/-- The writes of an event leave its mark. -/
theorem marked_of_applyAll {event : RideEvent} {db db' : TripDb}
    (h : applyAll event.writes db = .ok db') : Marked db' event := by
  have hpast {id : String} {tgt : RideStatus} {options : TransitionOptions}
      (hwrites : event.writes = [.transition id tgt options]) (hreq : tgt ≠ .requested)
      (hmat : tgt ≠ .matching) : PastMatching db' id := by
    rw [hwrites] at h
    obtain ⟨row, row', -, hst, -, hfind⟩ := apply_transition h
    exact ⟨row', by rw [hfind, if_pos rfl], by rwa [hst], by rwa [hst]⟩
  cases event with
  | cancelled rideId reason => exact hpast rfl nofun nofun
  | reserved rideId driverId => exact hpast rfl nofun nofun
  | rejected rideId => exact hpast rfl nofun nofun
  | requested input =>
      obtain ⟨row₁, db₁, -, h⟩ := applyAll_cons.mp h
      obtain ⟨row, row', -, -, -, hfind⟩ := apply_transition h
      change (db'.findRide input.id).isSome = true
      rw [hfind, if_pos rfl]
      rfl

/-! ## The invariant -/

structure Resolving (s : BackendPool) : Prop where
  /-- Nobody sees a ride before MATCHING. -/
  rows : ∀ rideId row, s.world.trip.findRide rideId = some row → row.status ≠ .requested
  seen : ∀ i th rideId row, s.threads i = some th →
    (progressOf th.log).seen = some (rideId, row) → row.status ≠ .requested
  /-- An outcome is for trip-service what dispatch has made of it. -/
  announced : ∀ envelope, Published s.world envelope → IsOutcome envelope = true →
    ∃ outcome, RideEvent.ofEnvelope envelope = some (outcomeEvent outcome) ∧
      subject envelope = (some outcome.rideId, envelope.correlationId)
  started : ∀ n, s.world.tripDelivered n = true → ∃ i th envelope, s.threads i = some th ∧
    th.call = .tripEvent envelope ∧ envelope.eventId = n
  /-- An event that is done with has left its mark, or is parked. -/
  handled : ∀ i th envelope event, s.threads i = some th → th.call = .tripEvent envelope →
    RideEvent.ofEnvelope envelope = some event → (progressOf th.log).done = true →
    Marked s.world.trip event ∨ IsParked s.world envelope

section Steps

variable {cfg : Dispatch.Config} {haversineKm : GeoPoint → GeoPoint → Option Rat}
  {s t : BackendPool} {a : BackendAction}

/-- What a step does to a row: it never takes a ride back. -/
theorem Resolving.row_step (hres : Resolving s) (hs : Sound s)
    (h : (machine cfg haversineKm).Step s a t) (rideId : String) :
    t.world.trip.findRide rideId = s.world.trip.findRide rideId ∨
      ∃ row, t.world.trip.findRide rideId = some row ∧ row.status ≠ .requested ∧
        ((s.world.trip.findRide rideId).isSome → row.status ≠ .matching) := by
  cases h with
  | spawn hi hp =>
      obtain ⟨w, hw, heq⟩ := Option.map_eq_some_iff.mp hp
      cases heq
      exact .inl (congrArg (·.findRide rideId) (start_frame hw).2.1)
  | env hw =>
      obtain ⟨-, -, -, ⟨now, htrip⟩, -⟩ := env_frame hw
      exact .inl (congrArg (·.findRide rideId) htrip)
  | run hi hr =>
      rcases exec_findRide (Option.some.inj hr) (hs.meets _ _ hi).allows rideId with
        hsame | ⟨-, -, op, row, -, hrow, hw⟩
      · exact .inl hsame
      · right
        refine ⟨row, hrow, ?_⟩
        cases hw with
        | inserted hnone hdr hst =>
            rw [hst, hnone]
            exact ⟨nofun, nofun⟩
        | matched hev hrow₀ hseen hmatching hdr hst =>
            rw [hst]
            exact ⟨nofun, nofun⟩
        | moved hride hrow₀ hseen hcan hdr hne hdue =>
            -- the row that was read may be stale, but it was not REQUESTED
            obtain ⟨hreq, hmat⟩ := past_of_transition (hres.seen _ _ _ _ hi hseen) hcan
            exact ⟨hreq, fun _ => hmat⟩

theorem Resolving.past_step (hres : Resolving s) (hs : Sound s)
    (h : (machine cfg haversineKm).Step s a t) {rideId : String}
    (hpast : PastMatching s.world.trip rideId) : PastMatching t.world.trip rideId := by
  obtain ⟨row, hrow, hreq, hmat⟩ := hpast
  rcases hres.row_step hs h rideId with hsame | ⟨row', hrow', hreq', hmat'⟩
  · exact ⟨row, hsame.trans hrow, hreq, hmat⟩
  · exact ⟨row', hrow', hreq', hmat' (by rw [hrow]; rfl)⟩

/-- The mark of an event stays. -/
theorem Resolving.marked_step (hres : Resolving s) (hs : Sound s)
    (h : (machine cfg haversineKm).Step s a t) {event : RideEvent}
    (hmark : Marked s.world.trip event) : Marked t.world.trip event := by
  cases event with
  | requested input =>
      change (t.world.trip.findRide input.id).isSome = true
      rcases hres.row_step hs h input.id with hsame | ⟨row, hrow, -⟩
      · rw [hsame]
        exact hmark
      · rw [hrow]
        rfl
  | cancelled rideId reason => exact hres.past_step hs h hmark
  | reserved rideId driverId => exact hres.past_step hs h hmark
  | rejected rideId => exact hres.past_step hs h hmark

/-- A command parks at most one event more. -/
theorem exec_parked {w w' : World} {found : List NearbyDriver} {c : Cmd} {r : Reply c}
    (h : w.exec found c = (r, w')) : w.tripParked <:+ w'.tripParked := by
  cases c with
  | db c =>
      cases h
      exact List.suffix_refl _
  | tripPark fields =>
      cases h
      exact List.suffix_cons ..
  | dispatch c =>
      cases h
      obtain ⟨-, -, -, -, -, hsame⟩ := afterDispatch_frame
        { w with dispatch := (w.dispatch.exec { candidates := w.nearby found c } c).2 } c
        (w.dispatch.exec { candidates := w.nearby found c } c).1
      exact ⟨[], hsame.symm⟩
  | drivers c =>
      cases c with
      | findUnique driverId =>
          cases h
          exact List.suffix_refl _
      | update driverId status =>
          obtain ⟨drivers, hw⟩ := updateDriver_frame w driverId status
          have hw' : w' = { w with drivers } := (congrArg Prod.snd h).symm.trans hw
          exact ⟨[], (congrArg World.tripParked hw').symm⟩

/-- What is parked stays parked. -/
theorem IsParked.step {envelope : EventEnvelope} (hp : IsParked s.world envelope)
    (h : (machine cfg haversineKm).Step s a t) : IsParked t.world envelope := by
  obtain ⟨fields, hmem, henvelope⟩ := hp
  refine ⟨fields, ?_, henvelope⟩
  cases h with
  | spawn hi hp =>
      obtain ⟨w, hw, heq⟩ := Option.map_eq_some_iff.mp hp
      cases heq
      obtain ⟨-, -, -, -, -, hsame, -⟩ := start_frame hw
      exact hsame ▸ hmem
  | env hw =>
      obtain ⟨-, -, hsame, -⟩ := env_frame hw
      exact hsame ▸ hmem
  | run hi hr => exact (exec_parked (Option.some.inj hr)).subset hmem

/-- An event that is done with in this step has left its mark, or is parked. -/
theorem Sound.resolves (hs : Sound s) (ho : Once s) {i : Nat} {found : List NearbyDriver}
    {envelope : EventEnvelope} {event : RideEvent} {c : Cmd}
    {k : Reply c → Prog Cmd Reply Empty Unit} {log : BackendLog} {r : Reply c} {w : World}
    (hi : s.threads i = some ⟨.tripEvent envelope, .call c k, log⟩)
    (hx : s.world.exec found c = (r, w)) (hof : RideEvent.ofEnvelope envelope = some event)
    (hopen : (progressOf log).done = false) (hdone : (progressOf (⟨c, r⟩ :: log)).done = true) :
    Marked w.trip event ∨ IsParked w envelope := by
  have hpre := (hs.meets _ _ hi).allows
  have hevent : (consume envelope).event = some (event, envelope.eventId) := by
    rw [consume, Op.event, hof]
    rfl
  cases c with
  | dispatch c => cases hopen.symm.trans hdone
  | drivers c =>
      cases c with
      | findUnique driverId' => cases hopen.symm.trans hdone
      | update driverId' status => cases hopen.symm.trans hdone
  | tripPark fields =>
      obtain ⟨op, hop, -, n, envelope', heq, hfields⟩ := hpre
      cases hop
      cases heq
      cases hx
      exact .inr ⟨fields, .head _, hfields⟩
  | db c =>
      obtain ⟨op, hop, hpre⟩ := hpre
      cases hop
      rcases exec_db hx with ⟨err, hdb, rfl, rfl⟩ | ⟨v, db, hdb, rfl, rfl⟩
      · -- only P2002 settles the event, and its key is free
        have hunique : err = .uniqueConstraint := by
          rcases Bool.or_eq_true_iff.mp hdone with hdone | herr
          · cases hopen.symm.trans hdone
          · exact of_decide_eq_true herr
        subst hunique
        have hfree := ho.free hi rfl hopen
        have hlone {id : String} {tgt : RideStatus} {options : TransitionOptions}
            (hwrites : event.writes = [.transition id tgt options]) : False := by
          cases hfree.symm.trans (processed_of_duplicate hpre hdb hevent hwrites)
        cases event with
        | cancelled rideId reason => exact (hlone rfl).elim
        | reserved rideId driverId => exact (hlone rfl).elim
        | rejected rideId => exact (hlone rfl).elim
        | requested input =>
            rcases requested_duplicate hpre hdb hevent with hkey | hsome
            · cases hfree.symm.trans hkey
            · exact .inl hsome
      · cases c with
        | commit tx =>
            obtain ⟨-, -, -, event', eventId, hev, -, hwrites, -⟩ := hpre
            cases hevent.symm.trans hev
            obtain ⟨db₂, hcommit, heq⟩ := map_eq_ok.mp hdb
            cases heq
            obtain ⟨db₁, -, happ⟩ := Tx.commit_ok.mp hcommit
            rw [hwrites] at happ
            exact .inl (marked_of_applyAll happ)
        | transact e => exact hpre.2.1.elim
        | findRide id => cases v <;> cases hopen.symm.trans hdone
        | _ => cases hopen.symm.trans hdone

/-- An outcome is published by the dispatch that gives it. -/
theorem published_outcome {envelope : EventEnvelope} (h : (machine cfg haversineKm).Step s a t)
    (hpub : Published t.world envelope) (hout : IsOutcome envelope = true) :
    Published s.world envelope ∨ ∃ (outcome : Dispatch.Outcome) (correlationId : String),
      envelope = ⟨envelope.eventId, outcome.topic, correlationId, some outcome.payload⟩ := by
  have hadded {e : EventEnvelope} (hnew : t.world.events = s.world.events ++ [e]) :
      Published s.world envelope ∨ (envelope.eventId = s.world.events.length ∧ envelope = e) := by
    unfold Published at hpub
    rw [hnew] at hpub
    exact getElem?_append_singleton hpub
  cases h with
  | spawn hi hp =>
      obtain ⟨w, hw, heq⟩ := Option.map_eq_some_iff.mp hp
      cases heq
      left
      rw [Published, ← (start_frame hw).1]
      exact hpub
  | run hi hr =>
      rcases exec_events (Option.some.inj hr) with hsame | ⟨outcome, correlationId, key, -, hnew⟩
      · left
        rw [Published, ← hsame]
        exact hpub
      · rcases hadded hnew with hold | ⟨hid, heq⟩
        · exact .inl hold
        · right
          refine ⟨outcome, correlationId, ?_⟩
          rw [hid]
          exact heq
  | env hw =>
      obtain ⟨-, -, -, hsame | ⟨e, hnew, -, hnot, -⟩⟩ := env_dispatch hw
      · left
        rw [Published, ← hsame]
        exact hpub
      · rcases hadded hnew with hold | ⟨-, rfl⟩
        · exact .inl hold
        · cases hnot.symm.trans hout

theorem Resolving.step (hres : Resolving s) (hs : Sound s) (ho : Once s)
    (h : (machine cfg haversineKm).Step s a t) : Resolving t where
  rows rideId row hrow := by
    rcases hres.row_step hs h rideId with hsame | ⟨row', hrow', hreq, -⟩
    · exact hres.rows rideId row (hsame.symm.trans hrow)
    · cases hrow'.symm.trans hrow
      exact hreq
  seen j th rideId row hj := by
    refine Machine.threads_step
      (P := fun _ th => (progressOf th.log).seen = some (rideId, row) → row.status ≠ .requested)
      ?_ ?_ (fun i th hi => hres.seen i th rideId row hi) h j th hj
    · intro i call p _ _ hseen
      cases hseen
    · intro i found call c k log r _ hi hr hseen
      rcases seen_cons hseen with hold | heq
      · exact hres.seen i _ rideId row hi hold
      · cases heq
        exact hres.rows rideId row (exec_read (Option.some.inj hr))
  announced envelope hpub hout := by
    rcases published_outcome h hpub hout with hold | ⟨outcome, correlationId, heq⟩
    · exact hres.announced envelope hold hout
    · refine ⟨outcome, ?_, ?_⟩
      · rw [heq]
        exact ofEnvelope_outcome outcome _ correlationId
      · rw [heq]
        cases outcome <;> rfl
  started n hn := by
    have hold (hn : s.world.tripDelivered n = true) : ∃ i th envelope, t.threads i = some th ∧
        th.call = .tripEvent envelope ∧ envelope.eventId = n := by
      obtain ⟨j, th, envelope, hj, hcall, hid⟩ := hres.started n hn
      cases h with
      | spawn hi hp =>
          refine ⟨j, th, envelope, (Function.update_of_ne ?_ _ _).trans hj, hcall, hid⟩
          rintro rfl
          rw [hi] at hj
          cases hj
      | @run i found call c k log r w hi hr =>
          by_cases hji : j = i
          · subst hji
            cases hi.symm.trans hj
            exact ⟨j, _, envelope, Function.update_self .., hcall, hid⟩
          · exact ⟨j, th, envelope, (Function.update_of_ne hji _ _).trans hj, hcall, hid⟩
      | env hw => exact ⟨j, th, envelope, hj, hcall, hid⟩
    cases h with
    | @spawn i call p w hi hp =>
        obtain ⟨w, hw, heq⟩ := Option.map_eq_some_iff.mp hp
        cases heq
        rcases (start_frame hw).2.2.2.2.2.2 n hn with hn | ⟨envelope, rfl, hid, -⟩
        · exact hold hn
        · exact ⟨i, _, envelope, Function.update_self .., rfl, hid⟩
    | run hi hr => exact hold ((exec_delivered (Option.some.inj hr)).1 ▸ hn)
    | env hw => exact hold ((env_frame hw).1 ▸ hn)
  handled j th envelope event hj := by
    have hold (i : Nat) (th : BackendThread) (hi : s.threads i = some th)
        (hcall : th.call = .tripEvent envelope) (hof : RideEvent.ofEnvelope envelope = some event)
        (hdone : (progressOf th.log).done = true) :
        Marked t.world.trip event ∨ IsParked t.world envelope :=
      (hres.handled i th envelope event hi hcall hof hdone).imp (hres.marked_step hs h)
        fun hp => hp.step h
    refine Machine.threads_step (P := fun _ th => th.call = .tripEvent envelope →
      RideEvent.ofEnvelope envelope = some event → (progressOf th.log).done = true → _)
      ?_ ?_ hold h j th hj
    · intro i call p _ _ _ _ hdone
      cases hdone
    · intro i found call c k log r _ hi hr hcall hof hdone
      cases hopen : (progressOf log).done with
      | true => exact hold i _ hi hcall hof hopen
      | false =>
          cases hcall
          exact hs.resolves ho hi (Option.some.inj hr) hof hopen hdone

end Steps

end Backend

end RydTrip
