import RydTrip.TripService.Steps

/-!
# Redelivery of a processed event

Three of the four handlers do all their work behind the `processed_events`
insert, so a second delivery stops there.  `handleDriverReserved` reads and
guards the ride first, and a ride that has been matched is never MATCHING again,
so its second delivery always throws.
-/

namespace RydTrip

namespace TripService

open Process

/-! ## What processing leaves behind -/

/-- The ride exists and is past matching. -/
def PastMatching (db : TripDb) (id : String) : Prop :=
  ∃ row, db.findRide id = some row ∧ row.status ≠ .requested ∧ row.status ≠ .matching

/-- The event has been processed, and a match is on record. -/
structure Recorded (db : TripDb) (event : RideEvent) (eventId : Nat) : Prop where
  processed : ⟨eventId, consumerName⟩ ∈ db.processedEvents
  matched : ∀ rideId driverId, event = .reserved rideId driverId → PastMatching db rideId

/-- A thread that handles the event has seen its transaction commit. -/
def Processed (s : TripPool) (event : RideEvent) (eventId : Nat) : Prop :=
  ∃ i th tx, s.threads i = some th ∧ th.call.event = some (event, eventId) ∧
    ⟨.db (.commit tx), .ok ()⟩ ∈ th.log

theorem Exec.apply_processedEvents {e : Exec} {db db' : TripDb} {row : RideRow}
    (h : e.apply db = .ok (row, db')) : db'.processedEvents = db.processedEvents := by
  cases e with
  | create input =>
      obtain ⟨-, -, -, -, -, -, hpe, -⟩ := Exec.create_ok h
      exact hpe
  | transition id tgt options =>
      obtain ⟨-, -, -, -, -, -, -, hpe, -⟩ := Exec.transition_ok h
      exact hpe

theorem applyAll_processedEvents {es : List Exec} {db db' : TripDb}
    (h : applyAll es db = .ok db') : db'.processedEvents = db.processedEvents := by
  induction es generalizing db with
  | nil =>
      cases h
      rfl
  | cons e es ih =>
      obtain ⟨row, db₁, he, h⟩ := applyAll_cons.mp h
      rw [ih h, Exec.apply_processedEvents he]

/-- A commit adds its key, if it has one, and no other. -/
theorem applyCommit_processedEvents {key : Option ProcessedEventRow} {es : List Exec}
    {db db' : TripDb} (h : applyCommit key es db = .ok db') :
    db'.processedEvents = db.processedEvents ++ key.toList := by
  cases key with
  | none =>
      rw [applyAll_processedEvents h]
      exact (List.append_nil _).symm
  | some key =>
      obtain ⟨db₁, hpe, happ⟩ := Tx.commit_ok.mp h
      rw [applyAll_processedEvents happ]
      unfold TripDb.createProcessedEvent at hpe
      split at hpe
      · cases hpe
      · cases hpe
        rfl

/-! ## Along a run -/

section Steps

variable {haversineKm : GeoPoint → GeoPoint → Option Rat} {s t : TripPool} {a : TripAction}

/-- No write takes a ride back to MATCHING. -/
theorem PastMatching.step {id : String} (hs : ThreadsCommit s)
    (hstep : (machine haversineKm).Step s a t) (h : PastMatching s.world.db id) :
    PastMatching t.world.db id := by
  obtain ⟨row, hrow, hreq, hmat⟩ := h
  by_cases hcom : ∃ op log key es, CommitsAt s a op log key es
  · obtain ⟨op, log, key, es, hc⟩ := hcom
    obtain ⟨db₁, hdb₁, happ⟩ := applyCommit_rows (hc.applied hstep)
    rcases (hs.writes hc).1.cases with ⟨id', tgt, options, rfl, htr, htm⟩ | ⟨input, eventId, -, rfl⟩
    · obtain ⟨cur, row', reason, -, hrow', hfind⟩ := applyAll_transition happ
      have hst : row'.status = tgt := by
        rw [hrow']
        rfl
      by_cases hid : id = id'
      · exact ⟨row', by rw [hfind, if_pos hid], hst ▸ htr, hst ▸ htm⟩
      · exact ⟨row, by rw [hfind, if_neg hid, hdb₁, hrow], hreq, hmat⟩
    · obtain ⟨hnone, -, hfind⟩ := applyAll_create happ
      have hid : id ≠ input.id := by
        rintro rfl
        rw [hdb₁, hrow] at hnone
        cases hnone
      exact ⟨row, by rw [hfind id hid, hdb₁, hrow], hreq, hmat⟩
  · push Not at hcom
    exact ⟨row, by rw [(sameTables_of_not_commits hstep hcom).findRide, hrow], hreq, hmat⟩

theorem processedEvents_step (hstep : (machine haversineKm).Step s a t) {key : ProcessedEventRow}
    (h : key ∈ s.world.db.processedEvents) : key ∈ t.world.db.processedEvents := by
  by_cases hcom : ∃ op log key es, CommitsAt s a op log key es
  · obtain ⟨op, log, key', es, hc⟩ := hcom
    rw [applyCommit_processedEvents (hc.applied hstep)]
    exact List.mem_append_left _ h
  · push Not at hcom
    rw [(sameTables_of_not_commits hstep hcom).processedEvents]
    exact h

theorem Recorded.step {event : RideEvent} {eventId : Nat} (hs : ThreadsCommit s)
    (hstep : (machine haversineKm).Step s a t) (h : Recorded s.world.db event eventId) :
    Recorded t.world.db event eventId where
  processed := processedEvents_step hstep h.processed
  matched rideId driverId he := (h.matched rideId driverId he).step hs hstep

/-- The commit of an event's transaction records the event. -/
theorem CommitsAt.recorded {op : Op} {log : TripLog} {key : ProcessedEventRow} {es : List Exec}
    {event : RideEvent} {eventId : Nat} (hs : ThreadsCommit s)
    (hc : CommitsAt s a op log (some key) es) (hstep : (machine haversineKm).Step s a t)
    (hev : op.event = some (event, eventId)) : Recorded t.world.db event eventId := by
  obtain ⟨⟨event', eventId', hev', rfl, rfl⟩, -⟩ := hs.writes hc
  rw [hev] at hev'
  cases hev'
  have happ := hc.applied hstep
  constructor
  · rw [applyCommit_processedEvents happ]
    exact List.mem_append_right _ (List.mem_singleton.mpr rfl)
  · rintro rideId driverId rfl
    obtain ⟨db₁, -, happ⟩ := applyCommit_rows happ
    obtain ⟨row, row', reason, -, hrow', hfind⟩ := applyAll_transition happ
    have hst : row'.status = .matched := by
      rw [hrow']
      rfl
    exact ⟨row', by rw [hfind, if_pos rfl], by simp [hst], by simp [hst]⟩

/-- Whatever a thread has seen committed is on record. -/
def ProcessedRecorded (s : TripPool) : Prop :=
  ∀ event eventId, Processed s event eventId → Recorded s.world.db event eventId

theorem ProcessedRecorded.step (hs : ThreadsCommit s) (hp : ProcessedRecorded s)
    (hstep : (machine haversineKm).Step s a t) : ProcessedRecorded t := by
  rintro event eventId ⟨i, th, tx, hi, hev, hmem⟩
  have hold (h : Processed s event eventId) : Recorded t.world.db event eventId :=
    (hp event eventId h).step hs hstep
  have hstep' := hstep
  cases hstep with
  | env hw => exact hold ⟨i, th, tx, hi, hev, hmem⟩
  | spawn hj hq =>
      rcases update_eq_some hi with ⟨-, rfl⟩ | ⟨-, hi⟩
      · cases hmem
      · exact hold ⟨i, th, tx, hi, hev, hmem⟩
  | @run j o op c k log r w hj hr =>
      rcases update_eq_some hi with ⟨-, rfl⟩ | ⟨-, hi⟩
      · rcases List.mem_cons.mp hmem with hhead | hmem
        · cases hhead
          obtain ⟨hf, db', hx⟩ := settle_ok (congrArg Prod.fst (Option.some.inj hr))
          have hc : CommitsAt s (.run j o) op log (some tx.key) tx.staged :=
            ⟨j, o, .commit tx, k, (), db', rfl, hj, by simp [hf], hx, rfl⟩
          exact hc.recorded hs hstep' hev
        · exact hold ⟨j, _, tx, hj, hev, hmem⟩
      · exact hold ⟨i, th, tx, hi, hev, hmem⟩

end Steps

theorem recorded_of_processed {haversineKm : GeoPoint → GeoPoint → Option Rat} {db : TripDb}
    {acts : List TripAction} {s : TripPool} {event : RideEvent} {eventId : Nat}
    (hrun : (machine haversineKm).run (initial db) acts = some s)
    (hp : Processed s event eventId) : Recorded s.world.db event eventId := by
  have hinit : ThreadsCommit (initial db) ∧ ProcessedRecorded (initial db) := by
    refine ⟨initial_threadsCommit db, ?_⟩
    rintro event eventId ⟨i, th, tx, ⟨⟩, -, -⟩
  have hs := Machine.run_invariant' (I := fun s => ThreadsCommit s ∧ ProcessedRecorded s) hinit
    (fun _ _ _ h hstep => ⟨h.1.step hstep, h.2.step h.1 hstep⟩) hrun
  exact hs.2 event eventId hp

/-! ## The second delivery -/

/-- A run of the handler alone, with every command answered. -/
def RideEvent.deliver (event : RideEvent) (eventId : Nat) (w : TripHost) :
    Except TripError Unit × TripHost :=
  (event.handle eventId).eval (fun c w => w.exec {} c) w

/-- The delivery resolves and leaves all tables unchanged. -/
structure CleanNoOp (event : RideEvent) (eventId : Nat) (w : TripHost) : Prop where
  resolves : (event.deliver eventId w).1 = .ok ()
  tables : SameTables w.db (event.deliver eventId w).2.db

/-- A transaction whose key is taken stops at its first statement. -/
theorem eval_runIdempotent {α : Type} {eventId : Nat} {name : String} {w : TripHost}
    {work : Option Tx → Trip (α × Option Tx)} (h : ⟨eventId, name⟩ ∈ w.db.processedEvents) :
    (TripsRepository.runIdempotent eventId name work).eval (fun c w => w.exec {} c) w =
      (.ok .duplicate, w) := by
  have hbegin : w.exec {} (.db (.begin ⟨eventId, name⟩)) = (.error .uniqueConstraint, w) := by
    simp [TripHost.exec, TripDb.exec, TripDb.beginProcessed, TripDb.processed, h, Except.map,
      settle]
  simp only [TripsRepository.runIdempotent, query, Prog.tryCatchThe_eq, Prog.call_bind,
    Prog.call_tryCatch, Prog.eval_call, hbegin]
  rfl

theorem deliver_of_processed {event : RideEvent} {eventId : Nat} {w : TripHost}
    (h : ⟨eventId, consumerName⟩ ∈ w.db.processedEvents)
    (hne : ∀ rideId driverId, event ≠ .reserved rideId driverId) :
    event.deliver eventId w = (.ok (), w) := by
  cases event with
  | reserved rideId driverId => exact absurd rfl (hne rideId driverId)
  | requested input =>
      simp [RideEvent.deliver, RideEvent.handle, TripsService.handleRideRequested, Prog.eval_bind,
        eval_runIdempotent h]
  | cancelled rideId reason =>
      simp [RideEvent.deliver, RideEvent.handle, TripsService.handleRideCancelled, Prog.eval_bind,
        eval_runIdempotent h]
  | rejected rideId =>
      simp [RideEvent.deliver, RideEvent.handle, TripsService.handleDriverRejected, Prog.eval_bind,
        eval_runIdempotent h]

/-- A match of a ride past matching is refused by the guard. -/
theorem deliver_reserved_of_pastMatching {rideId driverId : String} {eventId : Nat} {w : TripHost}
    (h : PastMatching w.db rideId) :
    ∃ message, (RideEvent.deliver (.reserved rideId driverId) eventId w).1 =
      .error (.conflict message) := by
  obtain ⟨row, hrow, hreq, hmat⟩ := h
  have hcan : canTransitionRideStatus row.status .matched = false := by
    cases hst : row.status <;> simp_all [canTransitionRideStatus, RideStatus.allowedTransitions]
  refine ⟨invalidRideTransitionMessage row.status .matched, ?_⟩
  have hfind : w.exec {} (.db (.findRide rideId)) = (.ok (some row), w) := by
    simp [TripHost.exec, TripDb.exec, hrow, settle]
  simp [RideEvent.deliver, RideEvent.handle, TripsService.handleDriverReserved,
    TripsService.findById, TripsRepository.findById, TripsService.guardTransition, query, hfind,
    toDomain, hcan]

/-- Once an event has been processed, and whatever has happened since, another
delivery is a clean no-op exactly if the event is not `driver.reserved`. -/
theorem redelivery_clean_iff {haversineKm : GeoPoint → GeoPoint → Option Rat} {db : TripDb}
    {acts : List TripAction} {s : TripPool} {event : RideEvent} {eventId : Nat}
    (hrun : (machine haversineKm).run (initial db) acts = some s)
    (hp : Processed s event eventId) :
    CleanNoOp event eventId s.world ↔ ∀ rideId driverId, event ≠ .reserved rideId driverId := by
  have hrec := recorded_of_processed hrun hp
  constructor
  · rintro hclean rideId driverId rfl
    obtain ⟨message, herr⟩ := deliver_reserved_of_pastMatching (hrec.matched rideId driverId rfl)
    have hok := hclean.resolves
    rw [herr] at hok
    cases hok
  · intro hne
    have h := deliver_of_processed hrec.processed hne
    exact ⟨by rw [h], by rw [h]; exact .refl _⟩

/-- A ride is requested and matched. -/
def matchedRun : List TripAction :=
  [.spawn 0 (.handleRideRequested ⟨"r", "u", ⟨0, 0⟩, ⟨1, 1⟩⟩ 0), .run 0 {}, .run 0 {}, .run 0 {},
    .run 0 {}, .spawn 1 (.handleDriverReserved "r" "d" 1), .run 1 {}, .run 1 {}, .run 1 {},
    .run 1 {}]

def matchedPool : TripPool :=
  ((machine fun _ _ => some 0).run (initial .empty) matchedRun).getD (initial .empty)

theorem matchedPool_run :
    (machine fun _ _ => some 0).run (initial .empty) matchedRun = some matchedPool :=
  rfl

theorem redelivery_of_matched :
    CleanNoOp (.requested ⟨"r", "u", ⟨0, 0⟩, ⟨1, 1⟩⟩) 0 matchedPool.world ∧
      ¬ CleanNoOp (.reserved "r" "d") 1 matchedPool.world := by
  have hrequested : Processed matchedPool (.requested ⟨"r", "u", ⟨0, 0⟩, ⟨1, 1⟩⟩) 0 :=
    ⟨0, _, _, rfl, rfl, .head _⟩
  have hreserved : Processed matchedPool (.reserved "r" "d") 1 := ⟨1, _, _, rfl, rfl, .head _⟩
  refine ⟨(redelivery_clean_iff matchedPool_run hrequested).mpr fun _ _ => by simp, fun h => ?_⟩
  exact (redelivery_clean_iff matchedPool_run hreserved).mp h "r" "d" rfl

/-- The match of the ride, delivered twice. -/
theorem not_clean_driverReserved :
    ¬ ∀ event eventId, Processed matchedPool event eventId →
      CleanNoOp event eventId matchedPool.world := by
  intro h
  have hclean := h (.reserved "r" "d") 1 ⟨1, _, _, rfl, rfl, .head _⟩
  have herr : (RideEvent.deliver (.reserved "r" "d") 1 matchedPool.world).1 =
      .error (.conflict "Invalid ride status transition: MATCHED -> MATCHED") := rfl
  rw [hclean.resolves] at herr
  cases herr

end TripService

end RydTrip
