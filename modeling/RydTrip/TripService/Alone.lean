import RydTrip.TripService.Redelivery
import RydTrip.TripService.Routes
import RydTrip.TripService.TrailPaths

/-!
# An operation by itself

What an operation does to a database when nothing else runs, and when a thread
that has been interleaved with others goes on as if nothing else had run.
-/

namespace RydTrip

namespace TripService

open Process

/-- Every command is answered. -/
def answered (c : Cmd) (w : TripHost) : Reply c × TripHost := w.exec {} c

def TripHost.start (db : TripDb) : TripHost := ⟨db, [], []⟩

/-- The outcome of the operation by itself, and the database it leaves. -/
def Op.alone (haversineKm : GeoPoint → GeoPoint → Option Rat) (op : Op) (db : TripDb) :
    Except TripError Response × TripDb :=
  let (outcome, w) := (TripsService.program haversineKm op).eval answered (.start db)
  (outcome, w.db)

/-! ## One specification for each function -/

/-- The program, by itself, ends in `Q` or `E`. -/
abbrev AloneSpec {α : Type} (Q : α → TripHost → Prop) (E : TripError → TripHost → Prop)
    (p : Trip α) (w : TripHost) : Prop :=
  p.wp (Prog.answering answered) Q E w

section Specs

variable {α : Type} {w : TripHost} {E : TripError → TripHost → Prop}

theorem answered_ok {c : DbCmd} {v : DbValue c} {db : TripDb} (h : w.db.exec c = .ok (v, db)) :
    answered (.db c) w = (.ok v, { w with db := db }) := by
  simp only [answered, TripHost.exec, h, settle]

theorem alone_query {c : DbCmd} {v : DbValue c} {db : TripDb} {Q : DbValue c → TripHost → Prop}
    (h : w.db.exec c = .ok (v, db)) (hQ : Q v { w with db := db }) :
    AloneSpec Q E (query c) w := by
  unfold AloneSpec query
  rw [Prog.wp_call, Prog.answering, answered_ok h]
  exact hQ

theorem alone_query_error {c : DbCmd} {err : PrismaError} {Q : DbValue c → TripHost → Prop}
    (h : w.db.exec c = .error err) (hE : E (.prisma err) w) : AloneSpec Q E (query c) w := by
  have hanswer : answered (.db c) w = (.error err, w) := by
    simp only [answered, TripHost.exec, h, settle]
  unfold AloneSpec query
  rw [Prog.wp_call, Prog.answering, hanswer]
  exact hE

theorem alone_findById {id : String} {row : RideRow} {Q : Ride → TripHost → Prop}
    (hrow : w.db.findRide id = some row) (hQ : Q (toDomain row) w) :
    AloneSpec Q E (TripsService.findById id) w := by
  have hexec : w.db.exec (.findRide id) = .ok (some row, w.db) := by
    rw [TripDb.exec, hrow]
  exact Prog.wp_seq (Prog.wp_seq (alone_query hexec hQ))

/-- The read and the guard together. -/
theorem alone_guarded {id : String} {tgt : RideStatus} {f : Ride → Trip α} {row : RideRow}
    {Q : α → TripHost → Prop} (hrow : w.db.findRide id = some row)
    (hcan : canTransitionRideStatus row.status tgt = true)
    (hQ : AloneSpec Q E (f (toDomain row)) w) :
    AloneSpec Q E (do
      let ride ← TripsService.findById id
      TripsService.guardTransition ride.status tgt
      f ride) w := by
  refine Prog.wp_seq (alone_findById hrow (Prog.wp_seq ?_))
  unfold TripsService.guardTransition
  split
  next => exact hQ
  next hnot => exact absurd hcan hnot

theorem alone_refused {id : String} {tgt : RideStatus} {f : Ride → Trip α} {row : RideRow}
    {Q : α → TripHost → Prop} (hrow : w.db.findRide id = some row)
    (hcan : canTransitionRideStatus row.status tgt = false) (hE : ∀ err, E err w) :
    AloneSpec Q E (do
      let ride ← TripsService.findById id
      TripsService.guardTransition ride.status tgt
      f ride) w := by
  refine Prog.wp_seq (alone_findById hrow (Prog.wp_seq ?_))
  unfold TripsService.guardTransition
  split
  next hyes => exact absurd (hcan.symm.trans hyes) Bool.false_ne_true
  next => exact hE _

theorem alone_syncRideDriver {ride : Ride} {status : DriverStatus} {Q : Unit → TripHost → Prop}
    (hQ : ∀ w', w'.db = w.db → Q () w') :
    AloneSpec Q E (TripsService.syncRideDriver ride status) w := by
  unfold TripsService.syncRideDriver
  split
  · rw [TripsService.syncDriverStatusBestEffort_eq]
    exact hQ _ rfl
  · exact hQ w rfl

end Specs

/-! ## Events -/

/-- A transaction that commits has had no trouble on the way. -/
theorem Exec.apply_withProcessed (e : Exec) (db : TripDb) (pe : List ProcessedEventRow) :
    e.apply { db with processedEvents := pe } =
      (e.apply db).map fun p => (p.1, { p.2 with processedEvents := pe }) := by
  cases e with
  | create input =>
      unfold Exec.apply TripDb.createRide TripDb.findRide
      dsimp only
      split <;> rfl
  | transition id tgt options =>
      unfold Exec.apply TripDb.updateRide TripDb.findRide
      dsimp only
      cases storedReason options.cancellationReason with
      | error err => rfl
      | ok reason =>
          dsimp only [Except.bind, bind]
          cases db.rides.find? fun row => row.id = id with
          | none => rfl
          | some row => rfl

theorem applyAll_withProcessed (es : List Exec) (db : TripDb) (pe : List ProcessedEventRow) :
    applyAll es { db with processedEvents := pe } =
      (applyAll es db).map fun db => { db with processedEvents := pe } := by
  induction es generalizing db with
  | nil => rfl
  | cons e es ih =>
      rw [applyAll, applyAll, Exec.apply_withProcessed]
      cases e.apply db with
      | error err => rfl
      | ok p => exact ih p.2

theorem applyAll_append {es es' : List Exec} {db db' : TripDb} :
    applyAll (es ++ es') db = .ok db' ↔
      ∃ db₁, applyAll es db = .ok db₁ ∧ applyAll es' db₁ = .ok db' := by
  induction es generalizing db with
  | nil => exact ⟨fun h => ⟨db, rfl, h⟩, fun ⟨_, rfl, h⟩ => h⟩
  | cons e es ih =>
      rw [List.cons_append, applyAll_cons]
      constructor
      · rintro ⟨row, db₁, he, h⟩
        obtain ⟨db₂, hes, h⟩ := ih.mp h
        exact ⟨db₂, applyAll_cons.mpr ⟨row, db₁, he, hes⟩, h⟩
      · rintro ⟨db₂, hes, h⟩
        obtain ⟨row, db₁, he, hes⟩ := applyAll_cons.mp hes
        exact ⟨row, db₁, he, ih.mpr ⟨db₂, hes, h⟩⟩

/-- Each statement of a transaction that can commit is accepted. -/
theorem stage_of_commit {key : ProcessedEventRow} {es staged rest : List Exec} {e : Exec}
    {db db' : TripDb} (h : (Tx.mk key es).commit db = .ok db') (hes : es = staged ++ e :: rest) :
    ∃ row, db.exec (.exec ⟨key, staged⟩ e) = .ok (row, db) ∧
      ∃ db₁ db₂, e.apply db₁ = .ok (row, db₂) := by
  obtain ⟨db₁, hpe, happ⟩ := Tx.commit_ok.mp h
  unfold TripDb.createProcessedEvent at hpe
  split at hpe
  · cases hpe
  · cases hpe
    rw [applyAll_withProcessed] at happ
    obtain ⟨db₁, happ, -⟩ := map_eq_ok.mp happ
    rw [hes] at happ
    obtain ⟨db₂, hstaged, happ⟩ := applyAll_append.mp happ
    obtain ⟨row, db₃, he, -⟩ := applyAll_cons.mp happ
    refine ⟨row, ?_, db₂, db₃, he⟩
    exact map_eq_ok.mpr ⟨row, Tx.exec_ok.mpr ⟨db₂, db₃, hstaged, he⟩, rfl⟩

section Events

variable {α : Type} {w : TripHost} {db' : TripDb}

/-- A statement of a transaction that can commit. -/
theorem alone_stage {key : ProcessedEventRow} {es staged rest : List Exec} {e : Exec}
    {Q : Ride × Option Tx → TripHost → Prop} {E : TripError → TripHost → Prop}
    (h : (Tx.mk key es).commit w.db = .ok db') (hes : es = staged ++ e :: rest)
    (hQ : ∀ row db₁ db₂, e.apply db₁ = .ok (row, db₂) →
      Q (toDomain row, some ⟨key, staged ++ [e]⟩) w) :
    AloneSpec Q E (TripsRepository.runExec e (some ⟨key, staged⟩)) w := by
  obtain ⟨row, hexec, db₁, db₂, he⟩ := stage_of_commit h hes
  exact Prog.wp_seq (alone_query hexec (hQ row db₁ db₂ he))

/-- The transaction of an event whose work stages what can be committed. -/
theorem alone_runIdempotent {eventId : Nat} {es : List Exec}
    {work : Option Tx → Trip (α × Option Tx)}
    (h : (Tx.mk ⟨eventId, consumerName⟩ es).commit w.db = .ok db')
    (hwork : AloneSpec (fun r w' => r.2 = some ⟨⟨eventId, consumerName⟩, es⟩ ∧ w'.db = w.db)
      (fun _ _ => False) (work (some ⟨⟨eventId, consumerName⟩, []⟩)) w) :
    AloneSpec (fun _ w' => w'.db = db') (fun _ _ => False)
      (TripsRepository.runIdempotent eventId consumerName work) w := by
  have hbegin : w.db.exec (.begin ⟨eventId, consumerName⟩) = .ok ((), w.db) := by
    obtain ⟨db₁, hpe, -⟩ := Tx.commit_ok.mp h
    unfold TripDb.createProcessedEvent at hpe
    split at hpe
    · cases hpe
    next hkey =>
      rw [TripDb.exec, TripDb.beginProcessed, if_neg hkey]
      rfl
  refine Prog.wp_try (Prog.wp_mono Prog.answering_mono (fun _ _ h => h) (fun _ _ h => h.elim)
    (E := fun _ _ => False) ?_)
  refine Prog.wp_seq (alone_query hbegin (Prog.wp_seq ?_))
  refine Prog.wp_mono Prog.answering_mono ?_ (fun _ _ h => h) hwork
  rintro ⟨result, tx⟩ w' ⟨rfl, hdb⟩
  have hcommit : w'.db.exec (.commit ⟨⟨eventId, consumerName⟩, es⟩) = .ok ((), db') := by
    rw [hdb, TripDb.exec, h]
    rfl
  exact Prog.wp_seq (alone_query hcommit rfl)

/-- A lone transition is allowed by the status of its ride. -/
def TripDb.Permits (db : TripDb) (es : List Exec) : Prop :=
  ∀ id tgt options row, .transition id tgt options ∈ es → db.findRide id = some row →
    canTransitionRideStatus row.status tgt = true

/-- The ride of a transition that goes well. -/
theorem findRide_of_commit {key : ProcessedEventRow} {id : String} {tgt : RideStatus}
    {options : TransitionOptions} {db : TripDb}
    (h : (Tx.mk key [.transition id tgt options]).commit db = .ok db') :
    ∃ row, db.findRide id = some row := by
  obtain ⟨db₁, hpe, happ⟩ := Tx.commit_ok.mp h
  obtain ⟨row, row', reason, hrow, -⟩ := applyAll_transition happ
  exact ⟨row, (TripDb.findRide_createProcessedEvent hpe id).symm.trans hrow⟩

/-- `cancel` in the transaction of an event. -/
theorem alone_cancel_staged {key : ProcessedEventRow} {es : List Exec} {id : String}
    {reason : JsText} (h : (Tx.mk key es).commit w.db = .ok db') (hpermits : w.db.Permits es)
    (hes : es = [cancelExec id reason]) :
    AloneSpec (fun r w' => r.2 = some ⟨key, es⟩ ∧ w'.db = w.db) (fun _ _ => False)
      (TripsService.cancel id reason (some ⟨key, []⟩)) w := by
  subst hes
  obtain ⟨row, hrow⟩ := findRide_of_commit h
  refine alone_guarded hrow (hpermits id .cancelled _ row (.head _) hrow) ?_
  refine Prog.wp_seq (alone_stage h rfl fun row' _ _ _ => ?_)
  exact Prog.wp_seq (alone_syncRideDriver fun w' hdb => ⟨rfl, hdb⟩)

/-- The handler of an event commits what it may. -/
theorem alone_handle {event : RideEvent} {eventId : Nat}
    (h : (Tx.mk ⟨eventId, consumerName⟩ event.writes).commit w.db = .ok db')
    (hpermits : w.db.Permits event.writes) :
    AloneSpec (fun _ w' => w'.db = db') (fun _ _ => False) (event.handle eventId) w := by
  cases event with
  | requested input =>
      refine Prog.wp_seq (alone_runIdempotent h ?_)
      refine Prog.wp_seq (alone_stage h rfl fun row db₁ db₂ he => ?_)
      obtain ⟨-, hid, -⟩ := Exec.create_ok he
      change AloneSpec _ _ (TripsRepository.runExec (.transition row.id .matching {}) _) _
      rw [hid]
      exact alone_stage h rfl fun _ _ _ _ => ⟨rfl, rfl⟩
  | cancelled rideId reason =>
      exact Prog.wp_seq (alone_runIdempotent h (alone_cancel_staged h hpermits rfl))
  | rejected rideId =>
      exact Prog.wp_seq (alone_runIdempotent h (alone_cancel_staged h hpermits rfl))
  | reserved rideId driverId =>
      obtain ⟨row, hrow⟩ := findRide_of_commit h
      refine alone_guarded hrow (hpermits rideId .matched _ row (.head _) hrow) ?_
      refine Prog.wp_seq (alone_runIdempotent h ?_)
      exact alone_stage h rfl fun _ _ _ _ => ⟨rfl, rfl⟩

/-- A delivery that is attempted at all commits what its event may. -/
theorem alone_consume {event : RideEvent} {envelope : EventEnvelope} {left : Nat}
    (hevent : RideEvent.ofEnvelope envelope = some event)
    (h : (Tx.mk ⟨envelope.eventId, consumerName⟩ event.writes).commit w.db = .ok db')
    (hpermits : w.db.Permits event.writes) :
    AloneSpec (fun _ w' => w'.db = db') (fun _ _ => False)
      (RideEventsConsumer.consume (left + 1) envelope) w := by
  refine Prog.wp_try (Prog.wp_mono Prog.answering_mono (fun _ _ h => h) (fun _ _ h => h.elim)
    (E := fun _ _ => False) ?_)
  rw [RideEvent.handler_of_ofEnvelope hevent]
  exact alone_handle h hpermits

/-- The transaction of an event whose work throws leaves the database as it is. -/
theorem alone_runIdempotent_refused {eventId : Nat} {work : Option Tx → Trip (α × Option Tx)}
    (hwork : AloneSpec (fun _ _ => False) (fun _ w' => w' = w)
      (work (some ⟨⟨eventId, consumerName⟩, []⟩)) w) :
    AloneSpec (fun _ w' => w' = w) (fun _ w' => w' = w)
      (TripsRepository.runIdempotent eventId consumerName work) w := by
  refine Prog.wp_try (Prog.wp_mono Prog.answering_mono (fun _ _ h => h) (fun err w' h => ?_)
    (E := fun _ w' => w' = w) ?_)
  · split
    · exact h
    · exact h
  · cases hbegin : w.db.exec (.begin ⟨eventId, consumerName⟩) with
    | error err => exact Prog.wp_seq (alone_query_error hbegin rfl)
    | ok p =>
        obtain ⟨u, db⟩ := p
        cases TripDb.exec_of_not_commits rfl hbegin
        refine Prog.wp_seq (alone_query hbegin (Prog.wp_seq ?_))
        exact Prog.wp_mono Prog.answering_mono (fun _ _ h => False.elim h) (fun _ _ h => h) hwork

/-- The handler of an event whose transition is not allowed leaves the database
as it is. -/
theorem alone_handle_refused {event : RideEvent} {eventId : Nat} {id : String} {tgt : RideStatus}
    {options : TransitionOptions} {row : RideRow}
    (hwrites : event.writes = [.transition id tgt options]) (hrow : w.db.findRide id = some row)
    (hcan : canTransitionRideStatus row.status tgt = false) :
    AloneSpec (fun _ w' => w' = w) (fun _ w' => w' = w) (event.handle eventId) w := by
  cases event with
  | requested input => cases hwrites
  | cancelled rideId reason =>
      cases hwrites
      exact Prog.wp_seq (alone_runIdempotent_refused (alone_refused hrow hcan fun _ => rfl))
  | rejected rideId =>
      cases hwrites
      exact Prog.wp_seq (alone_runIdempotent_refused (alone_refused hrow hcan fun _ => rfl))
  | reserved rideId driverId =>
      cases hwrites
      exact alone_refused hrow hcan fun _ => rfl

theorem alone_consume_refused {event : RideEvent} {envelope : EventEnvelope} {maxAttempts : Nat}
    {id : String} {tgt : RideStatus} {options : TransitionOptions} {row : RideRow}
    (hevent : RideEvent.ofEnvelope envelope = some event)
    (hwrites : event.writes = [.transition id tgt options]) (hrow : w.db.findRide id = some row)
    (hcan : canTransitionRideStatus row.status tgt = false) :
    AloneSpec (fun _ w' => w'.db = w.db) (fun _ w' => w'.db = w.db)
      (RideEventsConsumer.consume maxAttempts envelope) w := by
  cases maxAttempts with
  | zero => rfl
  | succ left =>
      refine EventConsumer.deliver_wp (I := fun w' => w' = w) Prog.answering_mono ?_ ?_ rfl left
      · rintro w' rfl
        rw [RideEvent.handler_of_ofEnvelope hevent]
        exact Prog.wp_mono Prog.answering_mono (fun _ _ h => by rw [h]) (fun _ _ h => h)
          (alone_handle_refused hwrites hrow hcan)
      · rintro fields w' - rfl
        rfl

end Events

/-! ## Operations -/

section Operations

variable {haversineKm : GeoPoint → GeoPoint → Option Rat} {op : Op} {db db' : TripDb}

/-- An event operation is the handler of its event, or delivers it. -/
theorem program_of_event (haversineKm : GeoPoint → GeoPoint → Option Rat) {event : RideEvent}
    {eventId : Nat} (hop : op.event = some (event, eventId)) :
    ∃ p, TripsService.program haversineKm op = p >>= (fun _ => .ret .done) ∧
      (p = event.handle eventId ∨ ∃ maxAttempts envelope, op = .consume maxAttempts envelope ∧
        RideEvent.ofEnvelope envelope = some event ∧ envelope.eventId = eventId ∧
          p = RideEventsConsumer.consume maxAttempts envelope) := by
  cases op with
  | handleRideRequested input eventId =>
      cases hop
      exact ⟨_, rfl, .inl rfl⟩
  | handleRideCancelled rideId reason eventId =>
      cases hop
      exact ⟨_, rfl, .inl rfl⟩
  | handleDriverReserved rideId driverId eventId =>
      cases hop
      exact ⟨_, rfl, .inl rfl⟩
  | handleDriverRejected rideId eventId =>
      cases hop
      exact ⟨_, rfl, .inl rfl⟩
  | consume maxAttempts envelope =>
      obtain ⟨event', hevent, heq⟩ := Option.map_eq_some_iff.mp hop
      cases heq
      exact ⟨_, rfl, .inr ⟨_, _, rfl, hevent, rfl, rfl⟩⟩
  | _ => cases hop

/-- What the handler or the delivery of an event leaves, the operation leaves. -/
theorem alone_of_program {p : Trip Unit}
    (hprogram : TripsService.program haversineKm op = p >>= fun _ => .ret .done)
    (hp : AloneSpec (fun _ w => w.db = db') (fun _ w => w.db = db') p (.start db)) :
    (op.alone haversineKm db).2 = db' := by
  unfold Op.alone
  rw [hprogram]
  exact Prog.eval_of_wp (P := fun w : TripHost => w.db = db') (Prog.wp_seq hp)

/-- By itself, an event operation commits what it may. -/
theorem alone_of_event {event : RideEvent} {eventId : Nat}
    (hop : op.event = some (event, eventId)) (hattempt : ∀ envelope, op ≠ .consume 0 envelope)
    (h : (Tx.mk ⟨eventId, consumerName⟩ event.writes).commit db = .ok db')
    (hpermits : db.Permits event.writes) : (op.alone haversineKm db).2 = db' := by
  obtain ⟨p, hprogram, rfl | ⟨maxAttempts, envelope, rfl, hevent, rfl, rfl⟩⟩ :=
    program_of_event haversineKm hop
  · exact alone_of_program hprogram (Prog.wp_mono Prog.answering_mono (fun _ _ h => h)
      (fun _ _ h => False.elim h) (alone_handle h hpermits))
  · cases maxAttempts with
    | zero => exact absurd rfl (hattempt envelope)
    | succ left =>
        exact alone_of_program hprogram (Prog.wp_mono Prog.answering_mono (fun _ _ h => h)
          (fun _ _ h => False.elim h) (alone_consume hevent h hpermits))

/-- By itself, an event operation whose transition is not allowed leaves the
database as it is. -/
theorem alone_of_event_refused {event : RideEvent} {eventId : Nat} {id : String} {tgt : RideStatus}
    {options : TransitionOptions} {row : RideRow} (hop : op.event = some (event, eventId))
    (hwrites : event.writes = [.transition id tgt options]) (hrow : db.findRide id = some row)
    (hcan : canTransitionRideStatus row.status tgt = false) :
    (op.alone haversineKm db).2 = db := by
  have hrow : (TripHost.start db).db.findRide id = some row := hrow
  obtain ⟨p, hprogram, rfl | ⟨maxAttempts, envelope, rfl, hevent, rfl, rfl⟩⟩ :=
    program_of_event haversineKm hop
  · exact alone_of_program hprogram (Prog.wp_mono Prog.answering_mono (fun _ _ h => by rw [h]; rfl)
      (fun _ _ h => by rw [h]; rfl) (alone_handle_refused hwrites hrow hcan))
  · exact alone_of_program hprogram (alone_consume_refused hevent hwrites hrow hcan)

/-- By itself, a route whose transition is not allowed is refused. -/
theorem alone_of_refused {id : String} {tgt : RideStatus} {row : RideRow}
    (hop : op.target = some (id, tgt)) (hrow : db.findRide id = some row)
    (hcan : canTransitionRideStatus row.status tgt = false) :
    ∃ err, op.alone haversineKm db = (.error err, db) := by
  have hspec : AloneSpec (fun _ _ => False) (fun _ w => w = .start db)
      (TripsService.program haversineKm op) (.start db) := by
    cases op with
    | accept id draw =>
        cases hop
        exact Prog.wp_seq (alone_refused hrow hcan fun _ => rfl)
    | decline id =>
        cases hop
        exact Prog.wp_seq (Prog.wp_seq (alone_refused hrow hcan fun _ => rfl))
    | driverArrived id =>
        cases hop
        exact Prog.wp_seq (alone_refused hrow hcan fun _ => rfl)
    | start id otp caller =>
        cases hop
        exact Prog.wp_seq (alone_refused hrow hcan fun _ => rfl)
    | complete id =>
        cases hop
        exact Prog.wp_seq (alone_refused hrow hcan fun _ => rfl)
    | cancel id reason =>
        cases hop
        exact Prog.wp_seq (alone_refused hrow hcan fun _ => rfl)
    | _ => cases hop
  have hends := (Prog.ends_eval_iff _ _).mpr hspec
  unfold Op.alone
  revert hends
  obtain ⟨outcome, w⟩ := (TripsService.program haversineKm op).eval answered (.start db)
  cases outcome with
  | ok r => exact False.elim
  | error err =>
      rintro rfl
      exact ⟨err, rfl⟩

/-- The program reads the ride, and all rows that meet `P` lead to the same
place. -/
def Forgets {α : Type} (id : String) (P : RideRow → Prop) (p : Trip α) : Prop :=
  ∃ k, p = .call (.db (.findRide id)) k ∧
    ∀ row row', P row → P row' → k (.ok (some row)) = k (.ok (some row'))

theorem Forgets.bind {α β : Type} {id : String} {P : RideRow → Prop} {p : Trip α}
    {f : α → Trip β} (h : Forgets id P p) : Forgets id P (p >>= f) := by
  obtain ⟨k, rfl, hk⟩ := h
  exact ⟨fun r => k r >>= f, rfl, fun row row' hrow hrow' =>
    congrArg (· >>= f) (hk row row' hrow hrow')⟩

theorem cancel_forgets (id : String) (reason : JsText) :
    Forgets id (fun row => canTransitionRideStatus row.status .cancelled = true)
      (TripsService.cancel id reason none) := by
  refine ⟨_, rfl, fun row row' hcan hcan' => ?_⟩
  have hguard {row : RideRow} (hcan : canTransitionRideStatus row.status .cancelled = true) :
      TripsService.guardTransition (toDomain row).status .cancelled = .ret () :=
    if_pos hcan
  exact congrArg (fun p : Trip Unit => p >>= _) ((hguard hcan).trans (hguard hcan').symm)

theorem getOtpForRider_forgets (id riderId : String) (caller : Option String) :
    Forgets id (fun row => row.riderId = riderId) (TripsService.getOtpForRider id caller) := by
  refine ⟨_, rfl, fun row row' hrow hrow' => ?_⟩
  have hsame : (toDomain row).riderId = (toDomain row').riderId := hrow.trans hrow'.symm
  cases htruthy : truthy caller with
  | none => rfl
  | some caller =>
      exact congrArg (fun riderId =>
        if riderId ≠ caller then
          (throw (.forbidden "Cannot view another rider's OTP") : Trip (Option String))
        else TripsRepository.getOtp id) hsame

end Operations

end TripService

end RydTrip
