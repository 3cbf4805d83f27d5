import RydTrip.TripService.Machine

/-!
# What is reported as a duplicate

One call of `runIdempotent` alone, over any database and with the work of any
handler.  Its catch clause takes every unique-constraint error of the
transaction for the one of the first insert.  Of all the statements of all the
handlers one other can raise it, the insert of a ride whose id is taken.

The oracles are used up one a call, so every call may be refused or lose its
reply.
-/

namespace RydTrip

namespace TripService

open Process Process.Prog

/-! ## The work of the handlers -/

/-- What the handler of the event does inside its transaction. -/
def RideEvent.work : RideEvent → Option Tx → Trip (Ride × Option Tx)
  | .requested input, tx => do
      let (ride, tx) ← TripsRepository.create input tx
      TripsRepository.transition ride.id .matching {} tx
  | .cancelled rideId reason, tx => TripsService.cancel rideId reason tx
  | .reserved rideId driverId, tx =>
      TripsRepository.transition rideId .matched { driverId := some driverId } tx
  | .rejected rideId, tx =>
      TripsService.cancel rideId (.text CancellationReason.noDriversAvailable.text) tx

/-- What it does before that. -/
def RideEvent.check : RideEvent → Trip Unit
  | .reserved rideId _ => do
      let ride ← TripsService.findById rideId
      TripsService.guardTransition ride.status .matched
  | _ => pure ()

/-- Every handler is its check and a call of `runIdempotent` with its work. -/
theorem RideEvent.handle_eq (event : RideEvent) (eventId : Nat) :
    event.handle eventId = (do
      event.check
      let _ ← TripsRepository.runIdempotent eventId consumerName event.work
      return ()) := by
  cases event with
  | requested input => rfl
  | cancelled rideId reason => rfl
  | reserved rideId driverId =>
      rw [RideEvent.check, bind_assoc]
      rfl
  | rejected rideId => rfl

/-- The event asks for a ride that is there already. -/
def RideEvent.Repeats (db : TripDb) : RideEvent → Prop
  | .requested input => (db.findRide input.id).isSome
  | _ => False

/-! ## Calls alone -/

/-- A call is answered under the next oracle. -/
def feed (c : Cmd) : TripHost × List Oracle → Reply c × (TripHost × List Oracle)
  | (w, oracles) =>
      let (r, w') := w.exec (oracles.headD {}) c
      (r, w', oracles.tail)

/-- The database answers the next call. -/
def AnswersNext (oracles : List Oracle) : Prop := (oracles.headD {}).fault = .none

instance : DecidablePred AnswersNext := fun _ => by unfold AnswersNext; infer_instance

section Alone

variable {st : TripHost × List Oracle} {db : TripDb}

theorem not_answersNext_of_eq {oracles : List Oracle} {fault : Fault}
    (h : (oracles.headD {}).fault = fault) (hfault : fault ≠ .none) : ¬ AnswersNext oracles :=
  fun hanswered => hfault (h.symm.trans hanswered)

/-- A statement that changes nothing yet.  It ends with the answer of the
database, or with an error of the connection. -/
theorem wp_query {c : DbCmd} {Q : DbValue c → TripHost × List Oracle → Prop}
    {E : TripError → TripHost × List Oracle → Prop} (hst : st.1.db = db)
    (hread : ∀ v db', db.exec c = .ok (v, db') → db' = db)
    (hok : ∀ v st', st'.1.db = db → AnswersNext st.2 → db.exec c = .ok (v, db) → Q v st')
    (herror : ∀ err st', st'.1.db = db → AnswersNext st.2 → db.exec c = .error err →
      E (.prisma err) st')
    (hlost : ∀ message st', st'.1.db = db → ¬ AnswersNext st.2 →
      E (.prisma (.other message)) st') :
    (query c).wp (answering feed) Q E st := by
  obtain ⟨w, oracles⟩ := st
  cases hst
  show ((match (settle (oracles.headD {}).fault w.db (w.db.exec c)).1 with
    | .ok a => pure a
    | .error err => .throw (TripError.prisma err)) : Trip (DbValue c)).wp (answering feed) Q E
      ({ w with db := (settle (oracles.headD {}).fault w.db (w.db.exec c)).2 }, oracles.tail)
  cases hx : w.db.exec c with
  | error err =>
      cases hf : (oracles.headD {}).fault with
      | none => exact herror err _ rfl hf hx
      | refused message => exact hlost message _ rfl (not_answersNext_of_eq hf nofun)
      | lost message => exact hlost message _ rfl (not_answersNext_of_eq hf nofun)
  | ok p =>
      obtain ⟨v, db'⟩ := p
      cases hread v db' hx
      cases hf : (oracles.headD {}).fault with
      | none => exact hok v _ rfl hf hx
      | refused message => exact hlost message _ rfl (not_answersNext_of_eq hf nofun)
      | lost message => exact hlost message _ rfl (not_answersNext_of_eq hf nofun)

/-- A statement that is staged. -/
theorem wp_runExec {tx : Tx} {e : Exec}
    {Q : Ride × Option Tx → TripHost × List Oracle → Prop}
    {E : TripError → TripHost × List Oracle → Prop} (hst : st.1.db = db)
    (hok : ∀ row st', st'.1.db = db → AnswersNext st.2 → tx.exec e db = .ok row →
      Q (toDomain row, some { tx with staged := tx.staged ++ [e] }) st')
    (herror : ∀ err st', st'.1.db = db → AnswersNext st.2 → tx.exec e db = .error err →
      E (.prisma err) st')
    (hlost : ∀ message st', st'.1.db = db → ¬ AnswersNext st.2 →
      E (.prisma (.other message)) st') :
    (TripsRepository.runExec e (some tx)).wp (answering feed) Q E st := by
  refine wp_seq (wp_query hst ?_ ?_ ?_ hlost)
  · intro v db' h
    obtain ⟨row, -, heq⟩ := map_eq_ok.mp h
    exact (Prod.mk.inj heq).2.symm
  · intro v st' hst' hanswered h
    obtain ⟨row, hrow, heq⟩ := map_eq_ok.mp h
    cases heq
    exact hok _ _ hst' hanswered hrow
  · intro err st' hst' hanswered h
    exact herror err st' hst' hanswered (map_eq_error.mp h)

end Alone

/-! ## Unique-constraint errors -/

theorem createRide_eq_error {db : TripDb} {input : CreateRideInput} {err : PrismaError}
    (h : (Exec.create input).apply db = .error err) :
    err = .uniqueConstraint ∧ (db.findRide input.id).isSome := by
  rcases bind_eq_error.mp h with h | ⟨p, -, h⟩
  · unfold TripDb.createRide at h
    split at h
    next hsome =>
      cases h
      exact ⟨rfl, hsome⟩
    next => cases h
  · cases h

theorem other_ne_unique (message : String) :
    TripError.prisma (.other message) ≠ .prisma .uniqueConstraint := by
  intro h
  cases h

/-- A transition never violates a unique constraint. -/
theorem transition_ne_unique {db : TripDb} {id : String} {tgt : RideStatus}
    {options : TransitionOptions} {err : PrismaError}
    (h : (Exec.transition id tgt options).apply db = .error err) : err ≠ .uniqueConstraint := by
  rcases bind_eq_error.mp h with h | ⟨reason, -, h⟩
  · cases hreason : options.cancellationReason with
    | other =>
        rw [hreason] at h
        cases h
        exact fun heq => by cases heq
    | _ =>
        rw [hreason] at h
        cases h
  · rcases bind_eq_error.mp h with h | ⟨p, -, h⟩
    · unfold TripDb.updateRide at h
      split at h
      · cases h
        exact fun heq => by cases heq
      · cases h
    · cases h

/-! ## The work alone -/

/-- The transaction is still open under its key, and its statements have all
succeeded. -/
def Staged (key : ProcessedEventRow) (db : TripDb) (tx : Option Tx) : Prop :=
  ∃ tx', tx = some tx' ∧ tx'.key = key ∧ ∃ db', applyAll tx'.staged db = .ok db'

theorem applyAll_concat {es : List Exec} {e : Exec} {row : RideRow} {db db₁ db₂ : TripDb}
    (hes : applyAll es db = .ok db₁) (he : e.apply db₁ = .ok (row, db₂)) :
    applyAll (es ++ [e]) db = .ok db₂ := by
  induction es generalizing db with
  | nil =>
      cases hes
      exact applyAll_cons.mpr ⟨row, db₂, he, rfl⟩
  | cons e' es ih =>
      obtain ⟨row', db', he', hes⟩ := applyAll_cons.mp hes
      exact applyAll_cons.mpr ⟨row', db', he', ih hes⟩

theorem Tx.staged_of_exec {tx : Tx} {e : Exec} {row : RideRow} {db : TripDb}
    (h : tx.exec e db = .ok row) :
    Staged tx.key db (some { tx with staged := tx.staged ++ [e] }) := by
  obtain ⟨db₁, db₂, hes, he⟩ := Tx.exec_ok.mp h
  exact ⟨_, rfl, rfl, db₂, applyAll_concat hes he⟩

theorem Tx.exec_error {tx : Tx} {e : Exec} {err : PrismaError} {db db₁ : TripDb}
    (hstaged : applyAll tx.staged db = .ok db₁) (h : tx.exec e db = .error err) :
    e.apply db₁ = .error err := by
  rcases bind_eq_error.mp h with h | ⟨db', hdb', h⟩
  · rw [hstaged] at h
    cases h
  · rw [hstaged] at hdb'
    cases hdb'
    rcases bind_eq_error.mp h with h | ⟨p, -, h⟩
    · exact h
    · cases h

section Work

variable {st : TripHost × List Oracle} {db : TripDb} {key : ProcessedEventRow}

theorem wp_syncRideDriver {ride : Ride} {status : DriverStatus}
    {Q : Unit → TripHost × List Oracle → Prop} {E : TripError → TripHost × List Oracle → Prop}
    (hst : st.1.db = db) (hQ : ∀ st', st'.1.db = db → Q () st') :
    (TripsService.syncRideDriver ride status).wp (answering feed) Q E st := by
  unfold TripsService.syncRideDriver
  split
  next driverId =>
    rw [TripsService.syncDriverStatusBestEffort_eq]
    exact hQ _ hst
  next => exact hQ _ hst

/-- A cancellation inside a transaction. -/
theorem wp_cancel {id : String} {reason : JsText} (hst : st.1.db = db) :
    (TripsService.cancel id reason (some ⟨key, []⟩)).wp (answering feed)
      (fun p st => st.1.db = db ∧ Staged key db p.2)
      (fun err st => st.1.db = db ∧ err ≠ .prisma .uniqueConstraint) st := by
  refine wp_seq (wp_seq (wp_seq (wp_query hst ?_ ?_ ?_ ?_)))
  · rintro v db' ⟨⟩
    rfl
  · intro found st₁ hst₁ _ hfound
    cases found with
    | none => exact ⟨hst₁, fun h => by cases h⟩
    | some row =>
        refine wp_seq ?_
        unfold TripsService.guardTransition
        split
        next =>
          refine wp_seq (wp_runExec hst₁ ?_ ?_ ?_)
          · intro row' st₂ hst₂ _ hexec
            exact wp_seq (wp_syncRideDriver hst₂ fun st₃ hst₃ => ⟨hst₃, Tx.staged_of_exec hexec⟩)
          · intro err st₂ hst₂ _ h
            refine ⟨hst₂, fun heq => transition_ne_unique (Tx.exec_error rfl h) ?_⟩
            exact TripError.prisma.inj heq
          · intro message st₂ hst₂ _
            exact ⟨hst₂, other_ne_unique message⟩
        next => exact ⟨hst₁, fun h => by cases h⟩
  · rintro err st₁ hst₁ _ ⟨⟩
  · intro message st₁ hst₁ _
    exact ⟨hst₁, other_ne_unique message⟩

/-- The work of a handler changes nothing yet.  It ends with a unique-constraint
error exactly if it asks for a ride that is there already, and is told so. -/
theorem wp_work (event : RideEvent) (hst : st.1.db = db) :
    (event.work (some ⟨key, []⟩)).wp (answering feed)
      (fun p st' => st'.1.db = db ∧ Staged key db p.2 ∧ ¬ (event.Repeats db ∧ AnswersNext st.2))
      (fun err st' => st'.1.db = db ∧
        (err = .prisma .uniqueConstraint ↔ event.Repeats db ∧ AnswersNext st.2)) st := by
  have hcancel {id : String} {reason : JsText} :
      (TripsService.cancel id reason (some ⟨key, []⟩)).wp (answering feed)
        (fun p st' => st'.1.db = db ∧ Staged key db p.2 ∧ ¬ (False ∧ AnswersNext st.2))
        (fun err st' => st'.1.db = db ∧
          (err = .prisma .uniqueConstraint ↔ False ∧ AnswersNext st.2)) st :=
    wp_mono answering_mono (fun p st' h => ⟨h.1, h.2, fun h => h.1⟩)
      (fun err st' h => ⟨h.1, fun heq => absurd heq h.2, fun h => h.1.elim⟩)
      (wp_cancel hst)
  cases event with
  | requested input =>
      refine wp_seq (wp_runExec hst ?_ ?_ ?_)
      · intro row st₁ hst₁ _ hcreate
        obtain ⟨db₁, db₂, hdb₁, hcreate⟩ := Tx.exec_ok.mp hcreate
        cases hdb₁
        obtain ⟨hnone, -⟩ := Exec.create_ok hcreate
        have hnew : ¬ ((RideEvent.requested input).Repeats db ∧ AnswersNext st.2) := by
          rintro ⟨hrepeats, -⟩
          have hsome : (db.findRide input.id).isSome := hrepeats
          rw [hnone] at hsome
          cases hsome
        refine wp_runExec hst₁ ?_ ?_ ?_
        · intro row' st₂ hst₂ _ hexec
          exact ⟨hst₂, Tx.staged_of_exec hexec, hnew⟩
        · intro err st₂ hst₂ _ h
          have hne := transition_ne_unique
            (Tx.exec_error (applyAll_cons.mpr ⟨_, _, hcreate, rfl⟩) h)
          exact ⟨hst₂, fun heq => absurd (TripError.prisma.inj heq) hne, fun h => absurd h hnew⟩
        · intro message st₂ hst₂ _
          exact ⟨hst₂, fun h => absurd h (other_ne_unique message), fun h => absurd h hnew⟩
      · intro err st₁ hst₁ hanswered h
        obtain ⟨rfl, hsome⟩ := createRide_eq_error (Tx.exec_error rfl h)
        exact ⟨hst₁, fun _ => ⟨hsome, hanswered⟩, fun _ => rfl⟩
      · intro message st₁ hst₁ hlost
        exact ⟨hst₁, fun h => absurd h (other_ne_unique message), fun h => absurd h.2 hlost⟩
  | cancelled rideId reason => exact hcancel
  | reserved rideId driverId =>
      refine wp_runExec hst ?_ ?_ ?_
      · intro row st₁ hst₁ _ hexec
        exact ⟨hst₁, Tx.staged_of_exec hexec, fun h => h.1⟩
      · intro err st₁ hst₁ _ h
        have hne := transition_ne_unique (Tx.exec_error rfl h)
        exact ⟨hst₁, fun heq => absurd (TripError.prisma.inj heq) hne, fun h => h.1.elim⟩
      · intro message st₁ hst₁ _
        exact ⟨hst₁, fun h => absurd h (other_ne_unique message), fun h => h.1.elim⟩
  | rejected rideId => exact hcancel

end Work

/-! ## The transaction alone -/

/-- No statement of a transaction looks at `processed_events`. -/
theorem Exec.apply_record (e : Exec) (db : TripDb) (keys : List ProcessedEventRow) :
    e.apply { db with processedEvents := keys } =
      (e.apply db).map fun p => (p.1, { p.2 with processedEvents := keys }) := by
  have hfind (id : String) :
      TripDb.findRide { db with processedEvents := keys } id = db.findRide id := rfl
  cases e with
  | create input =>
      simp only [Exec.apply, TripDb.createRide, hfind]
      cases (db.findRide input.id).isSome <;> rfl
  | transition id tgt options =>
      simp only [Exec.apply, TripDb.updateRide, hfind]
      cases storedReason options.cancellationReason with
      | error err => rfl
      | ok reason => cases db.findRide id <;> rfl

theorem applyAll_record {es : List Exec} {db db' : TripDb} (keys : List ProcessedEventRow)
    (h : applyAll es db = .ok db') :
    applyAll es { db with processedEvents := keys } = .ok { db' with processedEvents := keys } := by
  induction es generalizing db with
  | nil =>
      cases h
      rfl
  | cons e es ih =>
      obtain ⟨row, db₁, he, hes⟩ := applyAll_cons.mp h
      refine applyAll_cons.mpr ⟨row, { db₁ with processedEvents := keys }, ?_, ih hes⟩
      rw [Exec.apply_record, he]
      rfl

/-- What was staged without an error commits, if the event is not on record. -/
theorem Staged.commit {key : ProcessedEventRow} {db : TripDb} {tx : Tx}
    (h : Staged key db (some tx)) (hnew : db.processed key = false) :
    ∃ db', tx.commit db = .ok db' := by
  obtain ⟨tx', ⟨⟩, rfl, db', hstaged⟩ := h
  have hrecord : db.createProcessedEvent tx.key =
      .ok { db with processedEvents := db.processedEvents ++ [tx.key] } := by
    rw [TripDb.createProcessedEvent, hnew]
    rfl
  exact ⟨_, Tx.commit_ok.mpr ⟨_, hrecord, applyAll_record _ hstaged⟩⟩

section RunIdempotent

variable {w : TripHost} {oracles : List Oracle} {eventId : Nat} {name : String} {α : Type}
  {work : Option Tx → Trip (α × Option Tx)}

theorem eval_begin_answered (w : TripHost) {oracles : List Oracle} (key : ProcessedEventRow)
    (hanswered : AnswersNext oracles) :
    (query (.begin key)).eval feed (w, oracles) =
      (if w.db.processed key then .error (.prisma .uniqueConstraint) else .ok (),
        w, oracles.tail) := by
  have hexec : w.db.exec (.begin key) =
      (if w.db.processed key then Except.error .uniqueConstraint else Except.ok ()).map (·, w.db) :=
    rfl
  have hfault : (oracles.headD {}).fault = .none := hanswered
  simp only [query, eval_call, feed, TripHost.exec, hexec, hfault]
  cases w.db.processed key <;> rfl

theorem eval_begin_unanswered (w : TripHost) {oracles : List Oracle} (key : ProcessedEventRow)
    (hlost : ¬ AnswersNext oracles) :
    ∃ message, (query (.begin key)).eval feed (w, oracles) =
      (.error (.prisma (.other message)), w, oracles.tail) := by
  have hexec : w.db.exec (.begin key) =
      (if w.db.processed key then Except.error .uniqueConstraint else Except.ok ()).map (·, w.db) :=
    rfl
  simp only [query, eval_call, feed, TripHost.exec, hexec]
  cases hf : (oracles.headD {}).fault with
  | none => exact absurd hf hlost
  | refused message =>
      refine ⟨message, ?_⟩
      cases w.db.processed key <;> rfl
  | lost message =>
      refine ⟨message, ?_⟩
      cases w.db.processed key <;> rfl

/-- A call that the database can answer ends with its answer or a lost one. -/
theorem eval_query_answered {c : DbCmd} {v : DbValue c} {db' : TripDb} (oracles : List Oracle)
    (h : w.db.exec c = .ok (v, db')) :
    ∃ st, (query c).eval feed (w, oracles) = (.ok v, st) ∨
      ∃ message, (query c).eval feed (w, oracles) = (.error (.prisma (.other message)), st) := by
  simp only [query, eval_call, feed, TripHost.exec, h]
  cases (oracles.headD {}).fault with
  | none => exact ⟨_, .inl rfl⟩
  | refused message => exact ⟨_, .inr ⟨message, rfl⟩⟩
  | lost message => exact ⟨_, .inr ⟨message, rfl⟩⟩

/-- An event on record is a duplicate. -/
theorem eval_runIdempotent_processed (hkey : w.db.processed ⟨eventId, name⟩ = true)
    (hanswered : AnswersNext oracles) :
    (TripsRepository.runIdempotent eventId name work).eval feed (w, oracles) =
      (.ok .duplicate, w, oracles.tail) := by
  have hbegin := eval_begin_answered w ⟨eventId, name⟩ hanswered
  rw [if_pos hkey] at hbegin
  simp only [TripsRepository.runIdempotent, tryCatchThe_eq, eval_tryCatch, eval_bind, hbegin]
  rfl

/-- An insert that the database does not answer makes the call throw. -/
theorem eval_runIdempotent_unanswered (hlost : ¬ AnswersNext oracles) :
    ∃ message, (TripsRepository.runIdempotent eventId name work).eval feed (w, oracles) =
      (.error (.prisma (.other message)), w, oracles.tail) := by
  obtain ⟨message, hbegin⟩ := eval_begin_unanswered w ⟨eventId, name⟩ hlost
  refine ⟨message, ?_⟩
  simp only [TripsRepository.runIdempotent, tryCatchThe_eq, eval_tryCatch, eval_bind, hbegin]
  rfl

/-- An error of the work is the error of the call, unless it is P2002. -/
theorem eval_runIdempotent_failed {err : TripError} {st : TripHost × List Oracle}
    (hkey : w.db.processed ⟨eventId, name⟩ = false) (hanswered : AnswersNext oracles)
    (hwork : (work (some ⟨⟨eventId, name⟩, []⟩)).eval feed (w, oracles.tail) = (.error err, st)) :
    (TripsRepository.runIdempotent eventId name work).eval feed (w, oracles) =
      if err = .prisma .uniqueConstraint then (.ok .duplicate, st) else (.error err, st) := by
  have hbegin := eval_begin_answered w ⟨eventId, name⟩ hanswered
  rw [hkey] at hbegin
  simp only [TripsRepository.runIdempotent, tryCatchThe_eq, eval_tryCatch, eval_bind, hbegin,
    Bool.false_eq_true, if_false, hwork]
  split
  · rfl
  next hne =>
    rw [if_neg fun heq => hne heq]
    rfl

/-- Work that succeeds is never taken for a duplicate. -/
theorem eval_runIdempotent_done {result : α} {tx : Option Tx} {st : TripHost × List Oracle}
    (hkey : w.db.processed ⟨eventId, name⟩ = false) (hanswered : AnswersNext oracles)
    (hwork : (work (some ⟨⟨eventId, name⟩, []⟩)).eval feed (w, oracles.tail) =
      (.ok (result, tx), st))
    (hdb : st.1.db = w.db) (htx : Staged ⟨eventId, name⟩ w.db tx) :
    ((TripsRepository.runIdempotent eventId name work).eval feed (w, oracles)).1 ≠
      .ok .duplicate := by
  obtain ⟨tx', rfl, -⟩ := id htx
  obtain ⟨db', hcommit⟩ := htx.commit hkey
  have hbegin := eval_begin_answered w ⟨eventId, name⟩ hanswered
  rw [hkey] at hbegin
  obtain ⟨w₁, oracles₁⟩ := st
  have hexec : w₁.db.exec (.commit tx') = .ok ((), db') := by
    show (tx'.commit w₁.db).map ((), ·) = _
    rw [show w₁.db = w.db from hdb, hcommit]
    rfl
  obtain ⟨st, hend | ⟨message, hend⟩⟩ := eval_query_answered oracles₁ hexec
  · simp only [TripsRepository.runIdempotent, tryCatchThe_eq, eval_tryCatch, eval_bind, hbegin,
      Bool.false_eq_true, if_false, hwork, hend]
    exact fun h => by cases h
  · simp only [TripsRepository.runIdempotent, tryCatchThe_eq, eval_tryCatch, eval_bind, hbegin,
      Bool.false_eq_true, if_false, hwork, hend]
    exact fun h => by cases h

end RunIdempotent

/-! ## Duplicates only -/

/-- What the call with the work of the event ends with. -/
def RideEvent.outcome (event : RideEvent) (w : TripHost) (oracles : List Oracle) (eventId : Nat)
    (name : String) : Except TripError (IdempotentOutcome Ride) × (TripHost × List Oracle) :=
  (TripsRepository.runIdempotent eventId name event.work).eval feed (w, oracles)

/-- A call reports a duplicate for a duplicate only.  What its work throws is
thrown, with the database as it was, and the handler throws it too. -/
structure DuplicatesOnly (w : TripHost) (oracles : List Oracle) (event : RideEvent)
    (eventId : Nat) (name : String) : Prop where
  reported : (event.outcome w oracles eventId name).1 = .ok .duplicate ↔
    w.db.processed ⟨eventId, name⟩ = true ∧ AnswersNext oracles
  thrown : ∀ err, w.db.processed ⟨eventId, name⟩ = false → AnswersNext oracles →
    ((event.work (some ⟨⟨eventId, name⟩, []⟩)).eval feed (w, oracles.tail)).1 = .error err →
    (event.outcome w oracles eventId name).1 = .error err ∧
      (event.outcome w oracles eventId name).2.1.db = w.db
  handled : ∀ err earlier, (event.outcome w oracles eventId name).1 = .error err →
    name = consumerName → event.check.eval feed (w, earlier) = (.ok (), w, oracles) →
    ((event.handle eventId).eval feed (w, earlier)).1 = .error err

/-- What the call throws reaches the consumer. -/
theorem RideEvent.handle_throws {event : RideEvent} {w : TripHost} {oracles earlier : List Oracle}
    {eventId : Nat} {err : TripError}
    (h : (event.outcome w oracles eventId consumerName).1 = .error err)
    (hcheck : event.check.eval feed (w, earlier) = (.ok (), w, oracles)) :
    ((event.handle eventId).eval feed (w, earlier)).1 = .error err := by
  rw [RideEvent.handle_eq]
  simp only [eval_bind, hcheck]
  unfold RideEvent.outcome at h
  split
  next outcome st hend =>
    rw [hend] at h
    cases h
  next err' st hend =>
    rw [hend] at h
    cases h
    rfl

/-- Only a request for a ride that is there already is taken for a duplicate,
when the database answers its insert. -/
theorem duplicatesOnly_iff (w : TripHost) (oracles : List Oracle) (event : RideEvent)
    (eventId : Nat) (name : String) :
    DuplicatesOnly w oracles event eventId name ↔
      (w.db.processed ⟨eventId, name⟩ = true ∨ ¬ AnswersNext oracles ∨ ¬ AnswersNext oracles.tail ∨
        ¬ event.Repeats w.db) := by
  have hhandled : ∀ err earlier, (event.outcome w oracles eventId name).1 = .error err →
      name = consumerName → event.check.eval feed (w, earlier) = (.ok (), w, oracles) →
      ((event.handle eventId).eval feed (w, earlier)).1 = .error err := by
    rintro err earlier h rfl hcheck
    exact RideEvent.handle_throws h hcheck
  by_cases hanswered : AnswersNext oracles
  · cases hkey : w.db.processed ⟨eventId, name⟩ with
    | true =>
        have hcall : event.outcome w oracles eventId name = (.ok .duplicate, w, oracles.tail) :=
          eval_runIdempotent_processed hkey hanswered
        refine ⟨fun _ => .inl rfl, fun _ => ⟨?_, ?_, hhandled⟩⟩
        · rw [hcall]
          exact ⟨fun _ => ⟨hkey, hanswered⟩, fun _ => rfl⟩
        · intro err hnew
          rw [hkey] at hnew
          cases hnew
    | false =>
        have hends :=
          (ends_eval_iff (event.work (some ⟨⟨eventId, name⟩, []⟩)) (w, oracles.tail)).mpr
          (wp_work event rfl)
        rcases hwork : (event.work (some ⟨⟨eventId, name⟩, []⟩)).eval feed (w, oracles.tail) with
          ⟨err | ⟨ride, tx⟩, st⟩
        · rw [hwork] at hends
          obtain ⟨hdb, hunique⟩ := hends
          have hcall : event.outcome w oracles eventId name =
              if err = .prisma .uniqueConstraint then (.ok .duplicate, st) else (.error err, st) :=
            eval_runIdempotent_failed hkey hanswered hwork
          constructor
          · intro h
            by_cases hrepeats : event.Repeats w.db ∧ AnswersNext oracles.tail
            · rw [hunique.mpr hrepeats, if_pos rfl] at hcall
              obtain ⟨hprocessed, -⟩ := h.reported.mp (by rw [hcall])
              rw [hkey] at hprocessed
              cases hprocessed
            · rcases not_and_or.mp hrepeats with hnew | hlost
              · exact .inr (.inr (.inr hnew))
              · exact .inr (.inr (.inl hlost))
          · intro h
            have hne : ¬ (event.Repeats w.db ∧ AnswersNext oracles.tail) := by
              rintro ⟨hrepeats, htail⟩
              rcases h with h | h | h | h
              · cases h
              · exact h hanswered
              · exact h htail
              · exact h hrepeats
            rw [if_neg (mt hunique.mp hne)] at hcall
            refine ⟨?_, ?_, hhandled⟩
            · rw [hcall, hkey]
              exact ⟨fun h => (by cases h), fun h => absurd h.1 Bool.false_ne_true⟩
            · rintro err' - - hwork'
              rw [hwork] at hwork'
              cases hwork'
              rw [hcall]
              exact ⟨rfl, hdb⟩
        · rw [hwork] at hends
          obtain ⟨hdb, hstaged, hnew⟩ := hends
          have hcall : (event.outcome w oracles eventId name).1 ≠ .ok .duplicate :=
            eval_runIdempotent_done hkey hanswered hwork hdb hstaged
          constructor
          · intro _
            rcases not_and_or.mp hnew with hnew | hlost
            · exact .inr (.inr (.inr hnew))
            · exact .inr (.inr (.inl hlost))
          · refine fun _ => ⟨?_, ?_, hhandled⟩
            · rw [hkey]
              exact ⟨fun h => absurd h hcall, fun h => absurd h.1 Bool.false_ne_true⟩
            · rintro err - - hwork'
              rw [hwork] at hwork'
              cases hwork'
  · obtain ⟨message, hcall⟩ : ∃ message, event.outcome w oracles eventId name =
        (.error (.prisma (.other message)), w, oracles.tail) :=
      eval_runIdempotent_unanswered hanswered
    refine ⟨fun _ => .inr (.inl hanswered), fun _ => ⟨?_, fun err _ h => absurd h hanswered,
      hhandled⟩⟩
    rw [hcall]
    exact ⟨fun h => (by cases h), fun h => absurd h.2 hanswered⟩

/-- Ride `r` has been requested once. -/
def requestedOnce : TripHost :=
  ⟨⟨[⟨"r", "u", none, ⟨0, 0⟩, ⟨1, 1⟩, .matching, none, none, none, none, 0, 0⟩], [],
    [⟨0, consumerName⟩], 0⟩, [], []⟩

/-- The same request under another event id. -/
theorem not_duplicatesOnly_requestedOnce :
    ¬ DuplicatesOnly requestedOnce [] (.requested ⟨"r", "u", ⟨0, 0⟩, ⟨1, 1⟩⟩) 1 consumerName := by
  intro h
  have hprocessed := h.reported.mp rfl
  revert hprocessed
  decide

end TripService

end RydTrip
