import RydTrip.TripService.Machine

/-!
# What operations commit

Every operation reads the ride, checks the transition on that copy, and later
writes by id.  `Op.Writes` lists the statements that an operation may make
permanent.  `program_commits` is the one induction over the code: an operation
commits nothing else, and a transition of an existing ride only while the newest
read of that ride in the log of the thread allows it.  There is one
specification for each function, over any condition `W` on commits.
-/

namespace RydTrip

namespace TripService

open Process

/-! ## Reads of a thread -/

abbrev TripLog : Type := Log Cmd Reply

/-- The status that the newest read of the ride returned. -/
def lastRead (id : String) : TripLog → Option RideStatus
  | [] => none
  | ⟨.db (.findRide id'), .ok (some row)⟩ :: log =>
      if id' = id then some row.status else lastRead id log
  | _ :: log => lastRead id log

/-- The newest read of the ride allows the transition. -/
def ReadAllows (log : TripLog) (id : String) (tgt : RideStatus) : Prop :=
  ∃ seen, lastRead id log = some seen ∧ canTransitionRideStatus seen tgt = true

/-- The reads of the thread are the same. -/
def SameReads (log log' : TripLog) : Prop := ∀ id, lastRead id log' = lastRead id log

theorem SameReads.allows {log log' : TripLog} (h : SameReads log log') {id : String}
    {tgt : RideStatus} (hr : ReadAllows log id tgt) : ReadAllows log' id tgt := by
  obtain ⟨seen, hseen, hcan⟩ := hr
  exact ⟨seen, (h id).trans hseen, hcan⟩

theorem SameReads.trans {log log' log'' : TripLog} (h : SameReads log log')
    (h' : SameReads log' log'') : SameReads log log'' :=
  fun id => (h' id).trans (h id)

def Cmd.isCommit : Cmd → Bool
  | .db (.commit _) => true
  | .db (.transact _) => true
  | _ => false

/-- What the thread has been told since it last tried to commit. -/
def sinceCommit : TripLog → TripLog
  | [] => []
  | ⟨c, r⟩ :: log => if c.isCommit then [] else ⟨c, r⟩ :: sinceCommit log

theorem sinceCommit_prefix (log : TripLog) : sinceCommit log <+: log := by
  induction log with
  | nil => exact List.prefix_rfl
  | cons e log ih =>
      rw [sinceCommit]
      split
      · exact List.nil_prefix
      · exact (List.prefix_cons_inj e).mpr ih

theorem lastRead_append {id : String} {log log' : TripLog} {seen : RideStatus}
    (h : lastRead id log = some seen) : lastRead id (log ++ log') = some seen := by
  induction log with
  | nil => cases h
  | cons e log ih =>
      rw [List.cons_append]
      unfold lastRead at h ⊢
      split at h
      · cases h
      next heq =>
        cases heq
        split at h
        next hid => exact (if_pos hid).trans h
        next hid => exact (if_neg hid).trans (ih h)
      next hne heq =>
        cases heq
        split
        next h' => cases h'
        next id' row log'' h' =>
          cases h'
          exact (hne id' row rfl).elim
        next h' =>
          cases h'
          exact ih h

theorem ReadAllows.of_sinceCommit {log : TripLog} {id : String} {tgt : RideStatus}
    (h : ReadAllows (sinceCommit log) id tgt) : ReadAllows log id tgt := by
  obtain ⟨seen, hseen, hcan⟩ := h
  obtain ⟨older, holder⟩ := sinceCommit_prefix log
  refine ⟨seen, ?_, hcan⟩
  rw [← holder]
  exact lastRead_append hseen

/-! ## Writes of an operation -/

/-- The statements in the transaction of an event. -/
def RideEvent.writes : RideEvent → List Exec
  | .requested input => [.create input, .transition input.id .matching {}]
  | .cancelled rideId reason =>
      [.transition rideId .cancelled { cancellationReason := TripsService.cancelReason reason }]
  | .reserved rideId driverId =>
      [.transition rideId .matched { driverId := some driverId }]
  | .rejected rideId =>
      [.transition rideId .cancelled
        { cancellationReason := .text CancellationReason.noDriversAvailable.text }]

/-- The event that an operation handles. -/
def Op.event : Op → Option (RideEvent × Nat)
  | .handleRideRequested input eventId => some (.requested input, eventId)
  | .handleRideCancelled rideId reason eventId => some (.cancelled rideId reason, eventId)
  | .handleDriverReserved rideId driverId eventId => some (.reserved rideId driverId, eventId)
  | .handleDriverRejected rideId eventId => some (.rejected rideId, eventId)
  | .consume _ envelope => (RideEvent.ofEnvelope envelope).map (·, envelope.eventId)
  | _ => none

/-- The statement an HTTP operation runs in a transaction of its own. -/
def Op.Transacts : Op → Exec → Prop
  | .accept id draw, e => e = .transition id .driverArriving { otp := some (padOtp draw) }
  | .decline id, e =>
      e = .transition id .cancelled
        { cancellationReason := .text CancellationReason.driverCancelled.text }
  | .driverArrived id, e => e = .transition id .driverArrived {}
  | .start id _ _, e => e = .transition id .inProgress { clearOtp := true }
  | .complete id, e =>
      ∃ fare distanceKm, e = .transition id .completed
        { fare := some fare, distanceKm := some distanceKm }
  | .cancel id reason, e =>
      e = .transition id .cancelled { cancellationReason := TripsService.cancelReason reason }
  | _, _ => False

/-- The statements an operation may commit, with the `processed_events` key of
the transaction, if it has one. -/
def Op.Writes (op : Op) : Option ProcessedEventRow → List Exec → Prop
  | none, es => ∃ e, op.Transacts e ∧ es = [e]
  | some key, es =>
      ∃ event eventId, op.event = some (event, eventId) ∧ key = ⟨eventId, consumerName⟩ ∧
        es = event.writes

/-- A lone transition is allowed by the newest read of its ride. -/
def Guarded (log : TripLog) (es : List Exec) : Prop :=
  ∀ id tgt options, es = [.transition id tgt options] → ReadAllows log id tgt

theorem Guarded.of_sinceCommit {log : TripLog} {es : List Exec} (h : Guarded (sinceCommit log) es) :
    Guarded log es :=
  fun id tgt options hes => (h id tgt options hes).of_sinceCommit

theorem guarded_transition {log : TripLog} {id : String} {tgt : RideStatus}
    {options : TransitionOptions} (h : ReadAllows log id tgt) :
    Guarded log [.transition id tgt options] := by
  rintro id' tgt' options' ⟨⟩
  exact h

/-! ## One specification for each function -/

/-- A condition on what is committed, as a condition on commands. -/
def CommitsWithin (W : Option ProcessedEventRow → List Exec → TripLog → Prop) (c : Cmd)
    (log : TripLog) : Prop :=
  match c with
  | .db (.commit tx) => W (some tx.key) tx.staged log
  | .db (.transact e) => W none [e] log
  | _ => True

theorem CommitsWithin.mono {W W' : Option ProcessedEventRow → List Exec → TripLog → Prop}
    (hW : ∀ key es log, W key es log → W' key es log) {c : Cmd} {log : TripLog}
    (h : CommitsWithin W c log) : CommitsWithin W' c log := by
  cases c with
  | db c =>
      cases c with
      | commit tx => exact hW _ _ _ h
      | transact e => exact hW _ _ _ h
      | _ => trivial
  | patch driverId status => trivial
  | park fields => trivial

/-- What replies are known to satisfy: an insert returns the row it inserted. -/
def ReplyKnown : (c : Cmd) → Reply c → Prop
  | .db (.exec _ (.create input)), .ok row => row.id = input.id
  | _, _ => True

/-- Whatever the program commits is within `W`, and it ends in `Q` or `E`. -/
abbrev Spec {α : Type} (W : Option ProcessedEventRow → List Exec → TripLog → Prop)
    (Q : α → TripLog → Prop) (E : TripError → TripLog → Prop) (p : Trip α) (log : TripLog) : Prop :=
  p.wp (logSpec (CommitsWithin W) ReplyKnown) Q E log

/-- Whatever the program commits is within `W`. -/
abbrev Commits {α : Type} (W : Option ProcessedEventRow → List Exec → TripLog → Prop) (p : Trip α)
    (log : TripLog) : Prop :=
  p.Obeys (CommitsWithin W) ReplyKnown log

section Specs

variable {α : Type} {W : Option ProcessedEventRow → List Exec → TripLog → Prop} {log : TripLog}
  {E : TripError → TripLog → Prop}

theorem spec_query {c : DbCmd} {Q : DbValue c → TripLog → Prop}
    (hc : CommitsWithin W (.db c) log)
    (hQ : ∀ v, ReplyKnown (.db c) (.ok v) → Q v (⟨.db c, .ok v⟩ :: log)) (hE : ∀ e log, E e log) :
    Spec W Q E (query c) log := by
  refine ⟨hc, fun r hr => ?_⟩
  cases r with
  | ok v => exact hQ v hr
  | error err => exact hE _ _

/-- A read that succeeds is the newest one. -/
theorem spec_findById {id : String} {Q : Ride → TripLog → Prop}
    (hQ : ∀ row log, lastRead id (sinceCommit log) = some row.status → Q (toDomain row) log)
    (hE : ∀ e log, E e log) : Spec W Q E (TripsService.findById id) log := by
  refine Prog.wp_seq (Prog.wp_seq (spec_query trivial (fun row _ => ?_) hE))
  cases row with
  | none => exact hE _ _
  | some row => exact hQ row _ (by simp [sinceCommit, Cmd.isCommit, lastRead])

theorem spec_guardTransition {src tgt : RideStatus} {Q : Unit → TripLog → Prop}
    (hQ : canTransitionRideStatus src tgt = true → Q () log) (hE : ∀ e log, E e log) :
    Spec W Q E (TripsService.guardTransition src tgt) log := by
  unfold TripsService.guardTransition
  split
  next h => exact hQ h
  next => exact hE _ _

/-- The read and the guard together. -/
theorem spec_guarded {id : String} {tgt : RideStatus} {f : Ride → Trip α}
    {Q : α → TripLog → Prop}
    (hQ : ∀ row log, ReadAllows (sinceCommit log) id tgt → Spec W Q E (f (toDomain row)) log)
    (hE : ∀ e log, E e log) :
    Spec W Q E (do
      let ride ← TripsService.findById id
      TripsService.guardTransition ride.status tgt
      f ride) log := by
  refine Prog.wp_seq (spec_findById (fun row log hread => ?_) hE)
  exact Prog.wp_seq (spec_guardTransition (fun hcan => hQ row log ⟨_, hread, hcan⟩) hE)

theorem spec_sync {driverId : String} {status : DriverStatus} {Q : Unit → TripLog → Prop}
    (hQ : ∀ log', SameReads (sinceCommit log) (sinceCommit log') → Q () log') :
    Spec W Q E (TripsService.syncDriverStatusBestEffort driverId status) log := by
  rw [TripsService.syncDriverStatusBestEffort_eq]
  exact ⟨trivial, fun r _ => hQ _ fun _ => rfl⟩

theorem spec_syncRideDriver {ride : Ride} {status : DriverStatus} {Q : Unit → TripLog → Prop}
    (hQ : ∀ log', SameReads (sinceCommit log) (sinceCommit log') → Q () log') :
    Spec W Q E (TripsService.syncRideDriver ride status) log := by
  unfold TripsService.syncRideDriver
  split
  · exact spec_sync hQ
  · exact hQ log fun _ => rfl

/-- A statement in a transaction of its own is committed at once. -/
theorem spec_transact {e : Exec} {Q : Ride × Option Tx → TripLog → Prop} (hW : W none [e] log)
    (hQ : ∀ row log', Q (toDomain row, none) log') (hE : ∀ e log, E e log) :
    Spec W Q E (TripsRepository.runExec e none) log :=
  Prog.wp_seq (spec_query hW (fun _ _ => hQ _ _) hE)

/-- A statement of an open transaction is staged. -/
theorem spec_stage {tx : Tx} {e : Exec} {Q : Ride × Option Tx → TripLog → Prop}
    (hQ : ∀ row log', ReplyKnown (.db (.exec tx e)) (.ok row) →
      SameReads (sinceCommit log) (sinceCommit log') →
      Q (toDomain row, some { tx with staged := tx.staged ++ [e] }) log')
    (hE : ∀ e log, E e log) : Spec W Q E (TripsRepository.runExec e (some tx)) log :=
  Prog.wp_seq (spec_query trivial (fun row hrow => hQ row _ hrow fun _ => rfl) hE)

/-- The statement of `cancel`. -/
def cancelExec (id : String) (reason : JsText) : Exec :=
  .transition id .cancelled { cancellationReason := TripsService.cancelReason reason }

/-- `cancel` in a transaction of its own. -/
theorem spec_cancel {id : String} {reason : JsText} {Q : Ride × Option Tx → TripLog → Prop}
    (hW : ∀ log', ReadAllows (sinceCommit log') id .cancelled → W none [cancelExec id reason] log')
    (hQ : ∀ ride log', Q (ride, none) log') (hE : ∀ e log, E e log) :
    Spec W Q E (TripsService.cancel id reason none) log := by
  refine spec_guarded (fun row log hr => ?_) hE
  refine Prog.wp_seq (spec_transact (hW log hr) (fun row' log' => ?_) hE)
  exact Prog.wp_seq (spec_syncRideDriver fun log' _ => hQ _ _)

/-- `cancel` in an open transaction. -/
theorem spec_cancel_staged {id : String} {reason : JsText} {tx : Tx}
    {Q : Ride × Option Tx → TripLog → Prop}
    (hQ : ∀ ride log', ReadAllows (sinceCommit log') id .cancelled →
      Q (ride, some { tx with staged := tx.staged ++ [cancelExec id reason] }) log')
    (hE : ∀ e log, E e log) : Spec W Q E (TripsService.cancel id reason (some tx)) log := by
  refine spec_guarded (fun row log hr => ?_) hE
  refine Prog.wp_seq (spec_stage (fun row' log' _ hsame => ?_) hE)
  exact Prog.wp_seq (spec_syncRideDriver fun log'' hsame' =>
    hQ _ _ (hsame'.allows (hsame.allows hr)))

/-- `runIdempotent` commits what its work has staged. -/
theorem spec_runIdempotent {eventId : Nat} {name : String}
    {work : Option Tx → Trip (α × Option Tx)} {Q : IdempotentOutcome α → TripLog → Prop}
    (hwork : ∀ log', SameReads (sinceCommit log) (sinceCommit log') →
      Spec W (fun r log => ∀ tx, r.2 = some tx → W (some tx.key) tx.staged log)
        (fun _ _ => True) (work (some ⟨⟨eventId, name⟩, []⟩)) log')
    (hQ : ∀ r log, Q r log) (hE : ∀ e log, E e log) :
    Spec W Q E (TripsRepository.runIdempotent eventId name work) log := by
  refine Prog.wp_try (Prog.wp_mono logSpec_mono (fun _ _ h => h) (fun err log _ => ?_)
    (E := fun _ _ => True) ?_)
  · split
    · exact hQ _ _
    · exact hE _ _
  · refine Prog.wp_seq (spec_query trivial (fun _ _ => ?_) fun _ _ => trivial)
    refine Prog.wp_seq (Prog.wp_mono logSpec_mono ?_ (fun _ _ _ => trivial) (hwork _ fun _ => rfl))
    intro r log hr
    obtain ⟨result, tx⟩ := r
    cases tx with
    | none => exact hQ _ _
    | some tx =>
        exact Prog.wp_seq (spec_query (hr tx rfl) (fun _ _ => hQ _ _) fun _ _ => trivial)

theorem spec_guardCaller {ride : Ride} {callerDriverId : Option String}
    {Q : Unit → TripLog → Prop}
    (hQ : (∀ driverId, truthy callerDriverId = some driverId → ride.driverId = some driverId) →
      Q () log)
    (hE : ∀ e log, E e log) :
    Spec W Q E (TripsService.guardCaller ride callerDriverId) log := by
  unfold TripsService.guardCaller
  split
  next caller hcaller =>
    split
    · exact hE _ _
    next heq =>
      refine hQ fun driverId hdriver => ?_
      rw [hcaller] at hdriver
      cases hdriver
      exact not_not.mp heq
  next hcaller =>
    refine hQ fun driverId hdriver => ?_
    rw [hcaller] at hdriver
    cases hdriver

theorem spec_guardOtp {storedOtp : Option String} {otp : String} {Q : Unit → TripLog → Prop}
    (hQ : storedOtp = some otp → Q () log) (hE : ∀ e log, E e log) :
    Spec W Q E (TripsService.guardOtp storedOtp otp) log := by
  unfold TripsService.guardOtp
  split
  next stored hstored =>
    split
    · exact hE _ _
    next heq =>
      refine hQ ?_
      rw [(truthy_eq_some.mp hstored).1, not_not.mp heq]
  · exact hE _ _

/-! ## The operations -/

theorem commits_cancel {id : String} {reason : JsText}
    (hW : ∀ log',
      ReadAllows (sinceCommit log') id .cancelled → W none [cancelExec id reason] log') :
    Commits W (TripsService.cancel id reason none) log :=
  spec_cancel hW (fun _ _ => trivial) fun _ _ => trivial

theorem commits_accept {id : String} {draw : Fin 10000}
    (hW : ∀ log', ReadAllows (sinceCommit log') id .driverArriving →
      W none [.transition id .driverArriving { otp := some (padOtp draw) }] log') :
    Commits W (TripsService.accept id draw) log := by
  refine spec_guarded (fun row log hr => ?_) fun _ _ => trivial
  exact Prog.wp_seq (spec_transact (hW log hr) (fun _ _ => trivial) fun _ _ => trivial)

theorem commits_transitionTo {id : String} {tgt : RideStatus}
    (hW : ∀ log', ReadAllows (sinceCommit log') id tgt → W none [.transition id tgt {}] log') :
    Commits W (TripsService.transitionTo id tgt) log := by
  refine spec_guarded (fun row log hr => ?_) fun _ _ => trivial
  exact Prog.wp_seq (spec_transact (hW log hr) (fun _ _ => trivial) fun _ _ => trivial)

theorem commits_start {id otp : String} {callerDriverId : Option String}
    (hW : ∀ log', ReadAllows (sinceCommit log') id .inProgress →
      W none [.transition id .inProgress { clearOtp := true }] log') :
    Commits W (TripsService.start id otp callerDriverId) log := by
  have hE : ∀ (e : TripError) (log : TripLog), True := fun _ _ => trivial
  refine spec_guarded (fun row log hr => ?_) hE
  refine Prog.wp_seq (spec_guardCaller (fun _ => ?_) hE)
  refine Prog.wp_seq (spec_query trivial (fun storedOtp _ => ?_) hE)
  refine Prog.wp_seq (spec_guardOtp (fun _ => ?_) hE)
  have hr' : ReadAllows (sinceCommit (⟨.db (.getOtp id), .ok storedOtp⟩ :: log)) id .inProgress :=
    SameReads.allows (fun _ => rfl) hr
  refine Prog.wp_seq (spec_transact (hW _ hr') (fun row log => ?_) hE)
  exact Prog.wp_seq (spec_syncRideDriver fun _ _ => trivial)

theorem commits_complete {haversineKm : GeoPoint → GeoPoint → Option Rat} {id : String}
    (hW : ∀ fare distanceKm log', ReadAllows (sinceCommit log') id .completed →
      W none [.transition id .completed { fare := some fare, distanceKm := some distanceKm }]
        log') :
    Commits W (TripsService.complete haversineKm id) log := by
  refine spec_guarded (fun row log hr => ?_) fun _ _ => trivial
  refine Prog.wp_seq (spec_transact (hW _ _ log hr) (fun row log => ?_) fun _ _ => trivial)
  exact Prog.wp_seq (spec_syncRideDriver fun _ _ => trivial)

theorem commits_getOtpForRider {id : String} {callerRiderId : Option String} :
    Commits W (TripsService.getOtpForRider id callerRiderId) log := by
  have hget (log : TripLog) : Commits W (TripsRepository.getOtp id) log :=
    spec_query trivial (fun _ _ => trivial) fun _ _ => trivial
  refine Prog.wp_seq (spec_findById (fun row log _ => ?_) fun _ _ => trivial)
  split
  · split
    · trivial
    · exact hget log
  · exact hget log

/-! ## The event handlers -/

/-- What the transaction of an event commits. -/
def EventWithin (W : Option ProcessedEventRow → List Exec → TripLog → Prop) (event : RideEvent)
    (eventId : Nat) : Prop :=
  ∀ log, Guarded (sinceCommit log) event.writes → W (some ⟨eventId, consumerName⟩) event.writes log

theorem commits_handleRideRequested {input : CreateRideInput} {eventId : Nat}
    (hW : EventWithin W (.requested input) eventId) :
    Commits W (TripsService.handleRideRequested input eventId) log := by
  refine Prog.wp_seq (spec_runIdempotent (fun log _ => ?_) (fun _ _ => trivial) fun _ _ => trivial)
  refine Prog.wp_seq (spec_stage (fun row log' hrow _ => ?_) fun _ _ => trivial)
  refine spec_stage (fun _ log'' _ _ => ?_) fun _ _ => trivial
  rintro tx ⟨⟩
  have hid : (toDomain row).id = input.id := hrow
  rw [hid]
  exact hW log'' fun id tgt options h => by cases h

theorem commits_cancelIdempotent {rideId : String} {reason : JsText} {eventId : Nat}
    (hW : ∀ log', ReadAllows (sinceCommit log') rideId .cancelled →
      W (some ⟨eventId, consumerName⟩) [cancelExec rideId reason] log') :
    Commits W (TripsRepository.runIdempotent eventId consumerName fun tx =>
      TripsService.cancel rideId reason tx) log := by
  refine spec_runIdempotent (fun log _ => ?_) (fun _ _ => trivial) fun _ _ => trivial
  refine spec_cancel_staged ?_ fun _ _ => trivial
  rintro ride log' hr tx ⟨⟩
  exact hW log' hr

theorem commits_handleRideCancelled {rideId : String} {reason : JsText} {eventId : Nat}
    (hW : EventWithin W (.cancelled rideId reason) eventId) :
    Commits W (TripsService.handleRideCancelled rideId reason eventId) log :=
  Prog.Obeys.bind (commits_cancelIdempotent fun log' hr => hW log' (guarded_transition hr))
    fun _ _ => trivial

theorem commits_handleDriverRejected {rideId : String} {eventId : Nat}
    (hW : EventWithin W (.rejected rideId) eventId) :
    Commits W (TripsService.handleDriverRejected rideId eventId) log :=
  Prog.Obeys.bind (commits_cancelIdempotent fun log' hr => hW log' (guarded_transition hr))
    fun _ _ => trivial

theorem commits_handleDriverReserved {rideId driverId : String} {eventId : Nat}
    (hW : EventWithin W (.reserved rideId driverId) eventId) :
    Commits W (TripsService.handleDriverReserved rideId driverId eventId) log := by
  refine spec_guarded (fun row log hr => ?_) fun _ _ => trivial
  refine Prog.wp_seq (spec_runIdempotent (fun log' hsame => ?_) (fun _ _ => trivial)
    fun _ _ => trivial)
  refine spec_stage (fun _ log'' _ hsame' => ?_) fun _ _ => trivial
  rintro tx ⟨⟩
  exact hW log'' (guarded_transition (hsame'.allows (hsame.allows hr)))

theorem commits_handle {event : RideEvent} {eventId : Nat} (hW : EventWithin W event eventId) :
    Commits W (event.handle eventId) log := by
  cases event with
  | requested input => exact commits_handleRideRequested hW
  | cancelled rideId reason => exact commits_handleRideCancelled hW
  | reserved rideId driverId => exact commits_handleDriverReserved hW
  | rejected rideId => exact commits_handleDriverRejected hW

theorem commits_handler {envelope : EventEnvelope}
    (hW : ∀ event, RideEvent.ofEnvelope envelope = some event →
      EventWithin W event envelope.eventId) :
    Commits W (RideEventsConsumer.handler envelope) log := by
  cases h : RideEvent.ofEnvelope envelope with
  | some event =>
      rw [RideEvent.handler_of_ofEnvelope h]
      exact commits_handle (hW event h)
  | none =>
      rcases RideEvent.handler_of_ofEnvelope_none h with h | h
      · rw [h]
        trivial
      · rw [h]
        trivial

theorem commits_consume {maxAttempts : Nat} {envelope : EventEnvelope}
    (hW : ∀ event, RideEvent.ofEnvelope envelope = some event →
      EventWithin W event envelope.eventId) :
    Commits W (RideEventsConsumer.consume maxAttempts envelope) log := by
  have hpark (fields : DlqFields) (log : TripLog) :
      Commits W (RideEventsConsumer.park fields) log := by
    refine ⟨trivial, fun r _ => ?_⟩
    cases r <;> trivial
  exact EventConsumer.deliver_obeys (fun _ => commits_handler hW) hpark log

/-- An operation commits its own writes only, and transitions of existing rides
only on a read that allows them and that is newer than what it has tried to
commit before. -/
theorem program_commits (haversineKm : GeoPoint → GeoPoint → Option Rat) (op : Op) :
    Commits (fun key es log => op.Writes key es ∧ Guarded (sinceCommit log) es)
      (TripsService.program haversineKm op) log := by
  have hend {β : Type} {W : Option ProcessedEventRow → List Exec → TripLog → Prop} {p : Trip β}
      {f : β → Response} (hp : Commits W p log) :
      Commits W (p >>= fun b => .ret (f b)) log := hp.bind fun _ _ => trivial
  have hread {c : DbCmd} {W : Option ProcessedEventRow → List Exec → TripLog → Prop}
      (hc : CommitsWithin W (.db c) log) : Commits W (query c) log :=
    spec_query hc (fun _ _ => trivial) fun _ _ => trivial
  have hown {op : Op} {id : String} {tgt : RideStatus} {options : TransitionOptions}
      (hop : op.Transacts (.transition id tgt options)) (log' : TripLog)
      (hr : ReadAllows (sinceCommit log') id tgt) :
      op.Writes none [.transition id tgt options] ∧
        Guarded (sinceCommit log') [.transition id tgt options] :=
    ⟨⟨_, hop, rfl⟩, guarded_transition hr⟩
  have hevent {op : Op} {event : RideEvent} {eventId : Nat} (h : op.event = some (event, eventId)) :
      EventWithin (fun key es log => op.Writes key es ∧ Guarded (sinceCommit log) es) event
        eventId :=
    fun log hg => ⟨⟨event, eventId, h, rfl, rfl⟩, hg⟩
  cases op with
  | findActiveForDriver driverId => exact hend (Prog.Obeys.bind (hread trivial) fun _ _ => trivial)
  | findHistoryForRider riderId limit =>
      exact hend (Prog.Obeys.bind (hread trivial) fun _ _ => trivial)
  | findHistoryForDriver driverId limit =>
      exact hend (Prog.Obeys.bind (hread trivial) fun _ _ => trivial)
  | findOne id => exact hend (spec_findById (fun _ _ _ => trivial) fun _ _ => trivial)
  | accept id draw => exact hend (commits_accept (hown rfl))
  | decline id => exact hend (Prog.Obeys.bind (commits_cancel (hown rfl)) fun _ _ => trivial)
  | driverArrived id => exact hend (commits_transitionTo (hown rfl))
  | start id otp callerDriverId => exact hend (commits_start (hown rfl))
  | getOtp id callerRiderId => exact hend commits_getOtpForRider
  | complete id => exact hend (commits_complete fun fare distanceKm => hown ⟨fare, distanceKm, rfl⟩)
  | cancel id reason => exact hend (commits_cancel (hown rfl))
  | handleRideRequested input eventId => exact hend (commits_handleRideRequested (hevent rfl))
  | handleRideCancelled rideId reason eventId =>
      exact hend (commits_handleRideCancelled (hevent rfl))
  | handleDriverReserved rideId driverId eventId =>
      exact hend (commits_handleDriverReserved (hevent rfl))
  | handleDriverRejected rideId eventId => exact hend (commits_handleDriverRejected (hevent rfl))
  | consume maxAttempts envelope =>
      refine hend (commits_consume fun event h => hevent ?_)
      simp [Op.event, h]

end Specs

end TripService

end RydTrip
