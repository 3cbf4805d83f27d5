import RydTrip.Process.Erase
import RydTrip.TripService.AuditTrail
import RydTrip.TripService.Redelivery

/-!
# A redelivery that nobody sees

Once an event's key is in `processed_events`, a thread that handles the event
again can read, try its insert and park its envelope, and nothing else.  So the
rest of the service runs as if the event had not been delivered again: the same
replies, the same tables and the same status syncs.
-/

namespace RydTrip

namespace TripService

open Process

/-! ## What a handler may do with a key that is taken -/

/-- The commands that leave the tables and driver-service alone while `key` is
taken. -/
def Quiet (key : ProcessedEventRow) : Cmd → TripLog → Prop
  | .db (.begin key'), _ => key' = key
  | .db (.commit _), _ => False
  | .db (.transact _), _ => False
  | .patch _ _, _ => False
  | _, _ => True

/-- The insert of `key` fails. -/
def Taken (key : ProcessedEventRow) : (c : Cmd) → Reply c → Prop
  | .db (.begin key'), .ok _ => key' ≠ key
  | _, _ => True

section Quiet

variable {log : TripLog}

/-- The work is not reached, whatever it is. -/
theorem runIdempotent_quiet {α : Type} (eventId : Nat) (name : String)
    (work : Option Tx → Trip (α × Option Tx)) :
    (TripsRepository.runIdempotent eventId name work).Obeys (Quiet ⟨eventId, name⟩)
      (Taken ⟨eventId, name⟩) log := by
  unfold TripsRepository.runIdempotent query
  simp only [Prog.tryCatchThe_eq, Prog.call_bind, Prog.call_tryCatch, obeys_call]
  refine ⟨rfl, fun r hr => ?_⟩
  cases r with
  | ok _ => exact absurd rfl hr
  | error err => cases err <;> trivial

theorem findById_quiet (key : ProcessedEventRow) (id : String) :
    (TripsService.findById id).Obeys (Quiet key) (Taken key) log := by
  unfold TripsService.findById TripsRepository.findById query
  simp only [Prog.call_bind, obeys_call]
  refine ⟨trivial, fun r _ => ?_⟩
  cases r with
  | error err => trivial
  | ok row => cases row <;> trivial

theorem guardTransition_quiet (key : ProcessedEventRow) (src tgt : RideStatus) :
    (TripsService.guardTransition src tgt).Obeys (Quiet key) (Taken key) log := by
  unfold TripsService.guardTransition
  split <;> trivial

theorem handle_quiet (event : RideEvent) (eventId : Nat) :
    (event.handle eventId).Obeys (Quiet ⟨eventId, consumerName⟩)
      (Taken ⟨eventId, consumerName⟩) log := by
  cases event with
  | requested input => exact (runIdempotent_quiet _ _ _).bind fun _ _ => trivial
  | cancelled rideId reason => exact (runIdempotent_quiet _ _ _).bind fun _ _ => trivial
  | rejected rideId => exact (runIdempotent_quiet _ _ _).bind fun _ _ => trivial
  | reserved rideId driverId =>
      refine (findById_quiet _ rideId).bind fun ride _ => ?_
      refine (guardTransition_quiet _ ride.status .matched).bind fun _ _ => ?_
      exact (runIdempotent_quiet _ _ _).bind fun _ _ => trivial

theorem park_quiet (key : ProcessedEventRow) (fields : DlqFields) :
    (RideEventsConsumer.park fields).Obeys (Quiet key) (Taken key) log := by
  unfold RideEventsConsumer.park
  simp only [Prog.perform_bind, obeys_call]
  refine ⟨trivial, fun r _ => ?_⟩
  cases r <;> trivial

theorem consume_quiet {envelope : EventEnvelope} {event : RideEvent} (maxAttempts : Nat)
    (hev : RideEvent.ofEnvelope envelope = some event) :
    (RideEventsConsumer.consume maxAttempts envelope).Obeys
      (Quiet ⟨envelope.eventId, consumerName⟩) (Taken ⟨envelope.eventId, consumerName⟩) log := by
  refine EventConsumer.deliver_obeys (fun log => ?_) (fun fields log => park_quiet _ fields) log
  rw [RideEvent.handler_of_ofEnvelope hev]
  exact handle_quiet event envelope.eventId

/-- Every operation that handles the event. -/
theorem program_quiet (haversineKm : GeoPoint → GeoPoint → Option Rat) {op : Op} {event : RideEvent}
    {eventId : Nat} (hev : op.event = some (event, eventId)) :
    (TripsService.program haversineKm op).Obeys (Quiet ⟨eventId, consumerName⟩)
      (Taken ⟨eventId, consumerName⟩) log := by
  cases op with
  | consume maxAttempts envelope =>
      obtain ⟨event', hev', heq⟩ := Option.map_eq_some_iff.mp hev
      cases heq
      exact (consume_quiet maxAttempts hev').bind fun _ _ => trivial
  | handleRideRequested input eventId =>
      cases hev
      exact (handle_quiet (.requested input) eventId).bind fun _ _ => trivial
  | handleRideCancelled rideId reason eventId =>
      cases hev
      exact (handle_quiet (.cancelled rideId reason) eventId).bind fun _ _ => trivial
  | handleDriverReserved rideId driverId eventId =>
      cases hev
      exact (handle_quiet (.reserved rideId driverId) eventId).bind fun _ _ => trivial
  | handleDriverRejected rideId eventId =>
      cases hev
      exact (handle_quiet (.rejected rideId) eventId).bind fun _ _ => trivial
  | _ => cases hev

end Quiet

/-! ## What is seen of the service -/

/-- The same tables and the same status syncs, with some of the dead letters. -/
structure SeenAs (w v : TripHost) : Prop where
  db : v.db = w.db
  patches : v.patches = w.patches
  parked : v.parked.Sublist w.parked

theorem SeenAs.refl (w : TripHost) : SeenAs w w := ⟨rfl, rfl, .refl _⟩

section Seen

variable {haversineKm : GeoPoint → GeoPoint → Option Rat} {o : Oracle} {c : Cmd} {w w' v : TripHost}
  {r : Reply c} {key : ProcessedEventRow}

/-- No command reads the status syncs or the dead letters. -/
theorem SeenAs.exec (h : SeenAs w v) (hr : w.exec o c = (r, w')) :
    ∃ v', v.exec o c = (r, v') ∧ SeenAs w' v' := by
  obtain ⟨db, patches, parked⟩ := w
  obtain ⟨db', patches', parked'⟩ := v
  obtain ⟨rfl, rfl, hparked⟩ := h
  cases c with
  | db c =>
      cases hr
      exact ⟨_, rfl, rfl, rfl, hparked⟩
  | patch driverId status =>
      cases hr
      exact ⟨_, rfl, rfl, rfl, hparked⟩
  | park fields =>
      simp only [TripHost.exec] at hr ⊢
      cases ho : o.parkReply with
      | ok u =>
          rw [ho] at hr
          cases hr
          exact ⟨_, rfl, rfl, rfl, hparked.cons_cons _⟩
      | error message =>
          rw [ho] at hr
          cases hr
          exact ⟨_, rfl, rfl, rfl, hparked⟩

theorem machine_carries : (machine haversineKm).Carries SeenAs where
  exec h hr := by
    obtain ⟨v', hv, h'⟩ := h.exec (Option.some.inj hr)
    exact ⟨v', congrArg some hv, h'⟩
  start h hp := by
    cases hp
    exact ⟨_, rfl, h⟩
  env h hw := by
    cases hw
    exact ⟨_, rfl, congrArg (fun db => { db with now := db.now + 1 }) h.db, h.patches, h.parked⟩

/-- A quiet command leaves what is seen. -/
theorem SeenAs.quiet {log : TripLog} (h : SeenAs w v) (hc : Quiet key c log)
    (hr : w.exec o c = (r, w')) : SeenAs w' v := by
  obtain ⟨hdb, hpatches, hparked⟩ := h
  cases c with
  | patch driverId status => exact hc.elim
  | park fields =>
      simp only [TripHost.exec] at hr
      split at hr
      · cases hr
        exact ⟨hdb, hpatches, hparked.cons _⟩
      · cases hr
        exact ⟨hdb, hpatches, hparked⟩
  | db c =>
      have hnone : (Cmd.db c).commits = none := by
        cases c with
        | commit tx => exact hc.elim
        | transact e => exact hc.elim
        | _ => rfl
      cases hr
      refine ⟨?_, hpatches, hparked⟩
      show v.db = (settle o.fault w.db (w.db.exec c)).2
      cases hx : w.db.exec c with
      | error err =>
          rw [settle_error_db]
          exact hdb
      | ok p =>
          have hsame := TripDb.exec_of_not_commits hnone hx
          cases o.fault with
          | refused message => exact hdb
          | none => exact hdb.trans hsame.symm
          | lost message => exact hdb.trans hsame.symm

/-- The insert of a key that is there fails, whatever else goes wrong. -/
theorem taken_of_exec (hkey : key ∈ w.db.processedEvents) (hr : w.exec o c = (r, w')) :
    Taken key c r := by
  cases c with
  | db c =>
      cases c with
      | begin key' =>
          cases r with
          | error err => trivial
          | ok u =>
              rintro rfl
              obtain ⟨-, db', hx⟩ := settle_ok (congrArg Prod.fst hr)
              obtain ⟨_, hbegin, -⟩ := map_eq_ok.mp hx
              simp [TripDb.beginProcessed, TripDb.processed, hkey] at hbegin
      | _ => cases r <;> trivial
  | _ => trivial

end Seen

/-! ## The run without the redelivery -/

section Run

variable {haversineKm : GeoPoint → GeoPoint → Option Rat} {s t : TripPool} {a : TripAction}
  {acts : List TripAction} {i : Nat} {key : ProcessedEventRow}

/-- The key is taken, and all that thread `i` has left to do is quiet. -/
structure QuietThread (key : ProcessedEventRow) (i : Nat) (s : TripPool) : Prop where
  taken : key ∈ s.world.db.processedEvents
  thread : ∃ th, s.threads i = some th ∧ th.prog.Obeys (Quiet key) (Taken key) th.log

theorem QuietThread.step (h : QuietThread key i s) (hstep : (machine haversineKm).Step s a t) :
    QuietThread key i t := by
  refine ⟨processedEvents_step hstep h.taken, ?_⟩
  obtain ⟨th, hi, hobeys⟩ := h.thread
  cases hstep with
  | env hw => exact ⟨th, hi, hobeys⟩
  | @spawn j call p w hj hp =>
      have hne : i ≠ j := by
        rintro rfl
        rw [hi] at hj
        cases hj
      exact ⟨th, (Function.update_of_ne hne _ _).trans hi, hobeys⟩
  | @run j o call c k log r w hj hr =>
      by_cases hij : i = j
      · subst hij
        rw [hi] at hj
        cases hj
        exact ⟨_, Function.update_self _ _ _,
          hobeys.2 r (taken_of_exec h.taken (Option.some.inj hr))⟩
      · exact ⟨th, (Function.update_of_ne hij _ _).trans hi, hobeys⟩

/-- A step of the thread does not show. -/
theorem QuietThread.hidden (h : QuietThread key i s) (hstep : (machine haversineKm).Step s a t)
    (ha : a.spares i = false) (v : TripHost) (hv : SeenAs s.world v) : SeenAs t.world v := by
  obtain ⟨th, hi, hobeys⟩ := h.thread
  cases hstep with
  | env hw => cases ha
  | spawn hj hp =>
      cases not_not.mp (of_decide_eq_false ha)
      rw [hi] at hj
      cases hj
  | run hj hr =>
      cases not_not.mp (of_decide_eq_false ha)
      rw [hi] at hj
      cases hj
      exact hv.quiet hobeys.1 (Option.some.inj hr)

theorem QuietThread.along_hidden (h : QuietThread key i s) :
    (machine haversineKm).Along
      (fun s a t => a.spares i = false → ∀ v, SeenAs s.world v → SeenAs t.world v) s acts := by
  induction acts generalizing s with
  | nil => trivial
  | cons a acts ih =>
      intro t ht
      have hstep := (machine haversineKm).step_of_next ht
      exact ⟨h.hidden hstep, ih (h.step hstep)⟩

/-- If an event has been processed, whatever is done to handle it once more, and
however it is interleaved with the rest, the rest goes on as it would without:
every other thread with the same log and the same outcome, over the same tables
and with the same status syncs. -/
theorem redelivery_invisible {op : Op} {event : RideEvent} {eventId : Nat}
    (hkey : ⟨eventId, consumerName⟩ ∈ s.world.db.processedEvents)
    (hev : op.event = some (event, eventId))
    (hrun : (machine haversineKm).run s (.spawn i op :: acts) = some t) :
    ∃ t', (machine haversineKm).run s (others i acts) = some t' ∧
      t'.world.db = t.world.db ∧ t'.world.patches = t.world.patches ∧
      t'.world.parked.Sublist t.world.parked ∧ ∀ j, j ≠ i → t'.threads j = t.threads j := by
  rw [Machine.run_cons] at hrun
  obtain ⟨u, hu, hrun⟩ := Option.bind_eq_some_iff.mp hrun
  have hstep := (machine haversineKm).step_of_next hu
  have hstart : QuietThread ⟨eventId, consumerName⟩ i u := by
    cases hstep with
    | spawn hi hp =>
        cases hp
        exact ⟨hkey, _, Function.update_self _ _ _, program_quiet haversineKm hev⟩
  have hwithout : Pool.Without SeenAs i u s := by
    cases hstep with
    | spawn hi hp =>
        cases hp
        exact ⟨.refl _, fun j hj => (Function.update_of_ne hj _ _).symm⟩
  obtain ⟨t', hrun', hseen, hthreads⟩ := hwithout.run machine_carries hstart.along_hidden hrun
  exact ⟨t', hrun', hseen.db, hseen.patches, hseen.parked, hthreads⟩

/-- The match of `requestAndMatch`, as it is on the topic. -/
def matchOfR : EventEnvelope :=
  ⟨1, .driverReserved, "c", some ⟨some "r", none, some "d", none, none, .undefined⟩⟩

/-- It is consumed again as thread 2 while the driver accepts. -/
def acceptMeanwhile : List TripAction :=
  [.spawn 3 (.accept "r" ⟨9, by decide⟩), .run 2 {}, .run 3 {}, .run 2 {}, .run 3 {}, .run 2 {}]

/-- It ends as a dead letter, and the driver's accept does not notice. -/
theorem redelivery_invisible_matchOfR : ∃ s t t' : TripPool,
    (machine fun _ _ => some 0).run (initial .empty) requestAndMatch = some s ∧
      (machine fun _ _ => some 0).run s (.spawn 2 (.consume 2 matchOfR) :: acceptMeanwhile) =
        some t ∧
      t.world.parked ≠ [] ∧
      (machine fun _ _ => some 0).run s (others 2 acceptMeanwhile) = some t' ∧
      t'.world.db = t.world.db ∧ t'.threads 3 = t.threads 3 := by
  have hcheck : ∃ s, (machine fun _ _ => some 0).run (initial .empty) requestAndMatch = some s ∧
      (⟨1, consumerName⟩ : ProcessedEventRow) ∈ s.world.db.processedEvents ∧
      ∃ t, (machine fun _ _ => some 0).run s (.spawn 2 (.consume 2 matchOfR) :: acceptMeanwhile) =
        some t ∧ t.world.parked ≠ [] :=
    ⟨_, rfl, by decide, _, rfl, nofun⟩
  obtain ⟨s, hs, hkey, t, ht, hparked⟩ := hcheck
  obtain ⟨t', ht', hdb, -, -, hthreads⟩ := redelivery_invisible hkey rfl ht
  exact ⟨s, t, t', hs, ht, hparked, ht', hdb, hthreads 3 (by decide)⟩

end Run

end TripService

end RydTrip
