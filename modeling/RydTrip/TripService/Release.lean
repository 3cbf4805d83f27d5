import RydTrip.TripService.AuditTrail
import RydTrip.TripService.Delivery
import RydTrip.TripService.Redelivery

/-!
# Releasing the driver of a cancelled ride

A `ride.cancelled` or `driver.rejected` event cancels its ride in the
transaction of the event, and the driver gets his AVAILABLE status from inside
of it, before the commit.  `ReleaseOrder` is what the code promises of the
order of the two, and `ReleaseSafe` is what is wanted of a run: once the
transaction has ended, a driver has been released for a committed cancellation
only.  Everything in between rests on the commit.
-/

namespace RydTrip

namespace TripService

open Process

/-! ## Cancelling deliveries -/

/-- The delivery of an event that cancels a ride. -/
structure Cancelling where
  eventId : Nat
  rideId : String
  reason : JsText
  deriving DecidableEq, Repr

namespace Cancelling

def key (d : Cancelling) : ProcessedEventRow := ⟨d.eventId, consumerName⟩

def exec (d : Cancelling) : Exec := cancelExec d.rideId d.reason

end Cancelling

def RideEvent.cancelling (eventId : Nat) : RideEvent → Option Cancelling
  | .cancelled rideId reason => some ⟨eventId, rideId, reason⟩
  | .rejected rideId => some ⟨eventId, rideId, .text CancellationReason.noDriversAvailable.text⟩
  | _ => none

def Op.cancelling (op : Op) : Option Cancelling :=
  op.event.bind fun (event, eventId) => event.cancelling eventId

/-- Both handlers cancel in the transaction of their event. -/
theorem handle_of_cancelling {event : RideEvent} {eventId : Nat} {d : Cancelling}
    (h : event.cancelling eventId = some d) :
    event.handle eventId =
      TripsRepository.runIdempotent d.eventId consumerName
        (fun tx => TripsService.cancel d.rideId d.reason tx) >>= fun _ => .ret () := by
  cases event with
  | cancelled rideId reason =>
      cases h
      rfl
  | rejected rideId =>
      cases h
      rfl
  | requested input => cases h
  | reserved rideId driverId => cases h

/-! ## What is wanted -/

/-- The ride's CANCELLED transition and the `processed_events` row are
committed. -/
def ReleaseCommitted (db : TripDb) (d : Cancelling) : Prop :=
  d.key ∈ db.processedEvents ∧ (d.rideId, eventTypeForStatus .cancelled) ∈ db.trail

abbrev TripThread : Type := Thread Op Cmd Reply TripError Response

/-- An AVAILABLE status PATCH has been sent, and the transaction around it has
ended: the thread has gone on from there or is finished. -/
def ReleaseSettled (th : TripThread) : Prop :=
  ∃ newer driverId reply older, th.log = newer ++ ⟨.patch driverId .available, reply⟩ :: older ∧
    (th.Live → newer ≠ [])

/-- Drivers are released for committed cancellations only. -/
def ReleaseSafe (s : TripPool) : Prop :=
  ∀ i th d, s.threads i = some th → th.call.cancelling = some d → ReleaseSettled th →
    ReleaseCommitted s.world.db d

/-- The status PATCH was the last thing the operation did. -/
def JustReleased (log : TripLog) : Prop :=
  ∃ driverId reply older, log = ⟨.patch driverId .available, reply⟩ :: older

/-- A commit after a release takes effect and finds the event unprocessed,
unless the cancellation has been committed by another delivery. -/
def CommitsRelease (s : TripPool) (a : TripAction) (_ : TripPool) : Prop :=
  ∀ i o op tx k log d, a = .run i o → s.threads i = some ⟨op, .call (.db (.commit tx)) k, log⟩ →
    op.cancelling = some d → JustReleased log →
    ReleaseCommitted s.world.db d ∨
      (o.fault.Effective ∧ ¬ s.world.db.processed tx.key)

/-! ## The order of a cancelling delivery -/

/-- The PATCH follows the successful cancellation inside the transaction, and
nothing but the commit follows the PATCH. -/
structure ReleaseOrder (d : Cancelling) (c : Cmd) (log : TripLog) : Prop where
  commits : JustReleased log → c = .db (.commit ⟨d.key, [d.exec]⟩)
  staged : ∀ driverId status, c = .patch driverId status →
    ∃ row older, log = ⟨.db (.exec ⟨d.key, []⟩ d.exec), .ok row⟩ :: older

def Op.Releases (op : Op) (c : Cmd) (log : TripLog) : Prop :=
  ∀ d, op.cancelling = some d → ReleaseOrder d c log

/-- A cancelling delivery does not end on the PATCH. -/
def Op.Settles (op : Op) (log : TripLog) : Prop :=
  ∀ d, op.cancelling = some d → ¬ JustReleased log

/-- A transition that is accepted has a reason that can be stored. -/
def ReasonStored : (c : Cmd) → Reply c → Prop
  | .db (.exec _ (.transition _ _ options)), .ok _ =>
      ∃ reason, storedReason options.cancellationReason = .ok reason
  | _, _ => True

theorem not_justReleased_db {c : DbCmd} {r : Reply (.db c)} {log : TripLog} :
    ¬ JustReleased (⟨.db c, r⟩ :: log) := by
  rintro ⟨driverId, reply, older, h⟩
  injection h with h
  injection h with h
  cases h

theorem not_justReleased_park {fields : DlqFields} {r : Reply (.park fields)} {log : TripLog} :
    ¬ JustReleased (⟨.park fields, r⟩ :: log) := by
  rintro ⟨driverId, reply, older, h⟩
  injection h with h
  injection h with h
  cases h

/-- Before the PATCH anything else may be issued. -/
theorem ReleaseOrder.of_ne {d : Cancelling} {c : Cmd} {log : TripLog} (hlog : ¬ JustReleased log)
    (hc : ∀ driverId status, c ≠ .patch driverId status) : ReleaseOrder d c log :=
  ⟨fun h => absurd h hlog, fun driverId status h => absurd h (hc driverId status)⟩

abbrev ReleaseSpec {α : Type} (d : Cancelling) (Q : α → TripLog → Prop)
    (E : TripError → TripLog → Prop) (p : Trip α) (log : TripLog) : Prop :=
  p.wp (logSpec (ReleaseOrder d) ReasonStored) Q E log

section Specs

variable {α : Type} {d : Cancelling} {log : TripLog} {E : TripError → TripLog → Prop}

theorem release_query {c : DbCmd} {Q : DbValue c → TripLog → Prop} (hlog : ¬ JustReleased log)
    (hQ : ∀ v, Q v (⟨.db c, .ok v⟩ :: log)) (hE : ∀ e log, ¬ JustReleased log → E e log) :
    ReleaseSpec d Q E (query c) log := by
  refine ⟨.of_ne hlog nofun, fun r _ => ?_⟩
  cases r with
  | ok v => exact hQ v
  | error err => exact hE _ _ not_justReleased_db

/-- The read, the guard, the statement and the PATCH of `cancel`. -/
theorem release_cancel {Q : Ride × Option Tx → TripLog → Prop} (hlog : ¬ JustReleased log)
    (hQ : ∀ ride log, Q (ride, some ⟨d.key, [d.exec]⟩) log)
    (hE : ∀ e log, ¬ JustReleased log → E e log) :
    ReleaseSpec d Q E (TripsService.cancel d.rideId d.reason (some ⟨d.key, []⟩)) log := by
  refine Prog.wp_seq (Prog.wp_seq (Prog.wp_seq (release_query hlog (fun found => ?_) hE)))
  cases found with
  | none => exact hE _ _ not_justReleased_db
  | some row =>
      refine Prog.wp_seq ?_
      unfold TripsService.guardTransition
      split
      next =>
        refine Prog.wp_seq (Prog.wp_seq (release_query not_justReleased_db (fun row' => ?_) hE))
        refine Prog.wp_seq ?_
        unfold TripsService.syncRideDriver
        split
        · rw [TripsService.syncDriverStatusBestEffort_eq]
          refine ⟨⟨fun h => absurd h not_justReleased_db, fun driverId status _ => ⟨_, _, rfl⟩⟩, ?_⟩
          exact fun reply _ => hQ _ _
        · exact hQ _ _
      next => exact hE _ _ not_justReleased_db

theorem release_runIdempotent (hlog : ¬ JustReleased log) :
    ReleaseSpec d (fun _ log => ¬ JustReleased log) (fun _ log => ¬ JustReleased log)
      (TripsRepository.runIdempotent d.eventId consumerName fun tx =>
        TripsService.cancel d.rideId d.reason tx) log := by
  refine Prog.wp_try (Prog.wp_mono logSpec_mono (fun _ _ h => h) (fun err log hlog => ?_)
    (E := fun _ log => ¬ JustReleased log) ?_)
  · split
    · exact hlog
    · exact hlog
  · refine Prog.wp_seq (release_query hlog (fun _ => ?_) fun _ _ h => h)
    refine Prog.wp_seq (release_cancel not_justReleased_db (fun ride log => ?_) fun _ _ h => h)
    -- the PATCH may have been sent, so this has to be the commit
    refine Prog.wp_seq ⟨⟨fun _ => rfl, nofun⟩, fun r _ => ?_⟩
    cases r with
    | ok v => exact not_justReleased_db
    | error err => exact not_justReleased_db

theorem release_handler {envelope : EventEnvelope}
    (hd : (Op.consume 0 envelope).cancelling = some d) (hlog : ¬ JustReleased log) :
    ReleaseSpec d (fun _ log => ¬ JustReleased log) (fun _ log => ¬ JustReleased log)
      (RideEventsConsumer.handler envelope) log := by
  obtain ⟨⟨event, eventId⟩, hevent, hd⟩ := Option.bind_eq_some_iff.mp hd
  obtain ⟨event', hof, heq⟩ := Option.map_eq_some_iff.mp hevent
  cases heq
  rw [RideEvent.handler_of_ofEnvelope hof, handle_of_cancelling hd]
  exact Prog.wp_seq (release_runIdempotent hlog)

theorem release_consume {envelope : EventEnvelope} {maxAttempts : Nat}
    (hd : (Op.consume 0 envelope).cancelling = some d) (hlog : ¬ JustReleased log) :
    ReleaseSpec d (fun _ log => ¬ JustReleased log) (fun _ log => ¬ JustReleased log)
      (RideEventsConsumer.consume maxAttempts envelope) log := by
  cases maxAttempts with
  | zero => exact hlog
  | succ left =>
      refine EventConsumer.deliver_wp logSpec_mono (fun log hlog => release_handler hd hlog)
        (fun fields log _ hlog => ?_) hlog left
      refine ⟨.of_ne hlog nofun, fun r _ => ?_⟩
      cases r with
      | ok u => exact not_justReleased_park
      | error message => exact not_justReleased_park

/-- A cancelling delivery keeps to the order and never ends on the PATCH. -/
theorem program_release (haversineKm : GeoPoint → GeoPoint → Option Rat) {op : Op}
    (hd : op.cancelling = some d) :
    ReleaseSpec d (fun _ log => ¬ JustReleased log) (fun _ log => ¬ JustReleased log)
      (TripsService.program haversineKm op) [] := by
  have hnil : ¬ JustReleased [] := by
    rintro ⟨driverId, reply, older, ⟨⟩⟩
  have hhandle (event : RideEvent) {eventId : Nat} (hd : event.cancelling eventId = some d) :
      ReleaseSpec d (fun _ log => ¬ JustReleased log) (fun _ log => ¬ JustReleased log)
        (event.handle eventId >>= fun _ => .ret Response.done) [] := by
    rw [handle_of_cancelling hd]
    exact Prog.wp_seq (Prog.wp_seq (release_runIdempotent hnil))
  cases op with
  | handleRideCancelled rideId reason eventId =>
      exact hhandle (.cancelled rideId reason) hd
  | handleDriverRejected rideId eventId => exact hhandle (.rejected rideId) hd
  | consume maxAttempts envelope => exact Prog.wp_seq (release_consume hd hnil)
  | _ => cases hd

end Specs

/-! ## What the commit finds -/

/-- A ride whose cancellation was accepted in a transaction has a row. -/
def StagedRows (s : TripPool) : Prop :=
  ∀ i th key id tgt options row, s.threads i = some th →
    ⟨.db (.exec ⟨key, []⟩ (.transition id tgt options)), .ok row⟩ ∈ th.log →
    (s.world.db.findRide id).isSome

theorem Exec.apply_keepsRows {e : Exec} {db db' : TripDb} {row : RideRow} {id : String}
    (h : e.apply db = .ok (row, db')) (hid : (db.findRide id).isSome) :
    (db'.findRide id).isSome := by
  cases e with
  | create input =>
      obtain ⟨-, -, -, -, hfind, -⟩ := Exec.create_ok h
      rw [hfind]
      split
      · rfl
      · exact hid
  | transition id' tgt options =>
      obtain ⟨row₀, reason, -, -, -, hfind, -⟩ := Exec.transition_ok h
      rw [hfind]
      split
      · rfl
      · exact hid

theorem applyAll_keepsRows {es : List Exec} {db db' : TripDb} {id : String}
    (h : applyAll es db = .ok db') (hid : (db.findRide id).isSome) :
    (db'.findRide id).isSome := by
  induction es generalizing db with
  | nil =>
      cases h
      exact hid
  | cons e es ih =>
      obtain ⟨row, db₁, he, h⟩ := applyAll_cons.mp h
      exact ih h (Exec.apply_keepsRows he hid)

section Steps

variable {haversineKm : GeoPoint → GeoPoint → Option Rat} {s t : TripPool} {a : TripAction}

theorem keepsRows_step (hstep : (machine haversineKm).Step s a t) {id : String}
    (hid : (s.world.db.findRide id).isSome) : (t.world.db.findRide id).isSome := by
  by_cases hcom : ∃ op log key es, CommitsAt s a op log key es
  · obtain ⟨op, log, key, es, hc⟩ := hcom
    obtain ⟨db₁, hdb₁, happ⟩ := applyCommit_rows (hc.applied hstep)
    refine applyAll_keepsRows happ ?_
    rw [hdb₁]
    exact hid
  · push Not at hcom
    rw [(sameTables_of_not_commits hstep hcom).findRide]
    exact hid

theorem StagedRows.step (hs : StagedRows s) (hstep : (machine haversineKm).Step s a t) :
    StagedRows t := by
  intro j th key id tgt options row hj
  have hold (i : Nat) (th : TripThread) (hi : s.threads i = some th)
      (hmem : ⟨.db (.exec ⟨key, []⟩ (.transition id tgt options)), .ok row⟩ ∈ th.log) :
      (t.world.db.findRide id).isSome :=
    keepsRows_step hstep (hs i th key id tgt options row hi hmem)
  refine Machine.threads_step (P := fun _ th => _ ∈ th.log → (t.world.db.findRide id).isSome)
    ?_ ?_ hold hstep j th hj
  · intro i op p _ _ hmem
    cases hmem
  · intro i o op c k log r _ hi hr hmem
    rcases List.mem_cons.mp hmem with hhead | hmem
    · cases hhead
      obtain ⟨-, db', hx⟩ := settle_ok (congrArg Prod.fst (Option.some.inj hr))
      obtain ⟨row', hrow', -⟩ := map_eq_ok.mp hx
      obtain ⟨db₁, db₂, hnil, happ⟩ := Tx.exec_ok.mp hrow'
      cases hnil
      obtain ⟨row₀, reason, hrow₀, -⟩ := Exec.transition_ok happ
      refine keepsRows_step hstep ?_
      rw [hrow₀]
      rfl
    · exact hold i _ hi hmem

/-- What is committed stays committed. -/
theorem ReleaseCommitted.step {d : Cancelling} (h : ReleaseCommitted s.world.db d)
    (hstep : (machine haversineKm).Step s a t) : ReleaseCommitted t.world.db d := by
  refine ⟨processedEvents_step hstep h.1, ?_⟩
  rw [trail_step hstep]
  exact List.mem_append_left _ h.2

/-- The commit of a cancellation commits its event with it. -/
theorem releaseCommitted_of_commit {d : Cancelling} {db db' : TripDb}
    (h : Tx.commit ⟨d.key, [d.exec]⟩ db = .ok db') : ReleaseCommitted db' d := by
  have happ : applyCommit (some d.key) [d.exec] db = .ok db' := h
  constructor
  · rw [applyCommit_processedEvents happ]
    exact List.mem_append_right _ (List.mem_singleton.mpr rfl)
  · rw [applyCommit_trail happ]
    exact List.mem_append_right _ (List.mem_singleton.mpr rfl)

/-! ## The invariant -/

/-- Every thread keeps to the order, and the rides it has staged exist. -/
structure ReleaseInv (s : TripPool) : Prop where
  threads : ∀ i th, s.threads i = some th →
    th.prog.wp (logSpec th.call.Releases ReasonStored) (fun _ => th.call.Settles)
      (fun _ => th.call.Settles) th.log
  logs : ∀ i th, s.threads i = some th →
    Process.Recorded th.call.Releases ReasonStored th.log
  rows : StagedRows s

theorem reasonStored_of_exec {o : Oracle} {c : Cmd} {w w' : TripHost} {r : Reply c}
    (h : w.exec o c = (r, w')) : ReasonStored c r := by
  cases c with
  | patch driverId status => trivial
  | park fields => trivial
  | db c =>
      cases c with
      | exec tx e =>
          cases e with
          | create input => cases r <;> trivial
          | transition id tgt options =>
              cases r with
              | error err => trivial
              | ok row =>
                  obtain ⟨db₁, db₂, happ⟩ := exec_applied h
                  obtain ⟨row₀, reason, -, hreason, -⟩ := Exec.transition_ok happ
                  exact ⟨reason, hreason⟩
      | _ => cases r <;> trivial

theorem releases_program (haversineKm : GeoPoint → GeoPoint → Option Rat) (op : Op) :
    (TripsService.program haversineKm op).wp (logSpec op.Releases ReasonStored)
      (fun _ => op.Settles) (fun _ => op.Settles) [] := by
  cases hd : op.cancelling with
  | none =>
      have hnone {d : Cancelling} {P : Prop} (h : op.cancelling = some d) : P := by
        rw [hd] at h
        cases h
      exact Prog.wp_logSpec_of_forall (fun _ _ _ h => hnone h) (fun _ _ _ h => hnone h)
        fun _ _ _ h => hnone h
  | some d =>
      have hpre : op.Releases = ReleaseOrder d := by
        funext c log
        refine propext ⟨fun h => h d hd, fun h d' hd' => ?_⟩
        rw [hd] at hd'
        cases hd'
        exact h
      have hend {log : TripLog} (h : ¬ JustReleased log) : op.Settles log := fun _ _ => h
      rw [hpre]
      exact Prog.wp_mono logSpec_mono (fun _ _ => hend) (fun _ _ => hend)
        (program_release haversineKm hd)

theorem initial_releaseInv (db : TripDb) : ReleaseInv (initial db) where
  threads := by rintro i th ⟨⟩
  logs := by rintro i th ⟨⟩
  rows := by rintro i th key id tgt options row ⟨⟩

theorem ReleaseInv.step (hs : ReleaseInv s) (hstep : (machine haversineKm).Step s a t) :
    ReleaseInv t := by
  have hpost : ∀ i o c r w', a = .run i o →
      (machine haversineKm).exec o c s.world = some (r, w') → ReasonStored c r := by
    intro i o c r w' _ h
    exact reasonStored_of_exec (Option.some.inj h)
  have hstart : ∀ i op w p w', a = .spawn i op →
      (machine haversineKm).start op w = some (p, w') →
      p.wp (logSpec op.Releases ReasonStored) (fun _ => op.Settles) (fun _ => op.Settles) [] := by
    rintro i op w p w' - ⟨⟩
    exact releases_program haversineKm op
  exact ⟨Machine.wp_step (Q := fun op _ => op.Settles) (E := fun op _ => op.Settles) hstart hpost
      hs.threads hstep,
    Machine.recorded_step (Q := fun op _ => op.Settles) (E := fun op _ => op.Settles) hpost
      hs.threads hs.logs hstep, hs.rows.step hstep⟩

/-- The commit after a release succeeds unless it is refused or the event has
been processed. -/
theorem ReleaseInv.commits (hs : ReleaseInv s) {i : Nat} {op : Op} {tx : Tx}
    {k : Reply (.db (.commit tx)) → Trip Response} {log : TripLog} {d : Cancelling}
    (hi : s.threads i = some ⟨op, .call (.db (.commit tx)) k, log⟩)
    (hd : op.cancelling = some d) (hlog : JustReleased log)
    (hkey : ¬ s.world.db.processed tx.key) :
    tx = ⟨d.key, [d.exec]⟩ ∧ ∃ db', s.world.db.exec (.commit tx) = .ok ((), db') ∧
      ReleaseCommitted db' d := by
  have hcommit := ((hs.threads i _ hi).1 d hd).commits hlog
  injection hcommit with hcommit
  injection hcommit with htx
  subst htx
  obtain ⟨driverId, reply, older, rfl⟩ := hlog
  obtain ⟨hpatch, -, holder⟩ := hs.logs i _ hi
  obtain ⟨row, older, rfl⟩ := (hpatch d hd).staged _ _ rfl
  obtain ⟨-, ⟨reason, hreason⟩, -⟩ := holder
  have hrow := hs.rows i _ d.key d.rideId .cancelled _ row hi (.tail _ (.head _))
  obtain ⟨row₀, hrow₀⟩ := Option.isSome_iff_exists.mp hrow
  have hkey : d.key ∉ s.world.db.processedEvents := by
    simpa [TripDb.processed] using hkey
  obtain ⟨db', hc, -⟩ := commit_transition _ hkey hrow₀ hreason
  refine ⟨rfl, db', ?_, releaseCommitted_of_commit hc⟩
  exact map_eq_ok.mpr ⟨db', hc, rfl⟩

/-! ## Safety of a step -/

/-- A failed commit leaves the database as it was. -/
theorem world_of_failed {o : Oracle} {c : DbCmd} {w w' : TripHost} {r : Reply (.db c)}
    (h : w.exec o (.db c) = (r, w'))
    (hfail : ¬ (o.fault.Effective ∧ (w.db.exec c).isOk)) : w'.db = w.db := by
  obtain rfl : (w.exec o (.db c)).2 = w' := congrArg Prod.snd h
  change (settle o.fault w.db (w.db.exec c)).2 = w.db
  cases hx : w.db.exec c with
  | error err => exact settle_error_db ..
  | ok p =>
      cases hf : o.fault with
      | refused message => rfl
      | none => exact absurd ⟨by rw [hf]; rfl, by rw [hx]; rfl⟩ hfail
      | lost message => exact absurd ⟨by rw [hf]; rfl, by rw [hx]; rfl⟩ hfail

/-- The release is settled by the commit. -/
theorem releaseSettled_of_commit {op : Op} {tx : Tx} {r : Reply (.db (.commit tx))}
    {p : Trip Response} {log : TripLog} (hlog : JustReleased log) :
    ReleaseSettled ⟨op, p, ⟨.db (.commit tx), r⟩ :: log⟩ := by
  obtain ⟨driverId, reply, older, rfl⟩ := hlog
  exact ⟨[⟨.db (.commit tx), r⟩], driverId, reply, older, rfl, fun _ => List.cons_ne_nil _ _⟩

/-- A safe step commits what it releases for. -/
theorem commitsRelease_of_safe (hstep : (machine haversineKm).Step s a t) (hsafe : ReleaseSafe t) :
    CommitsRelease s a t := by
  rintro i o op tx k log d rfl hi hd hlog
  cases hstep with
  | run hi' hr =>
      rw [hi] at hi'
      cases hi'
      have hdone := hsafe i _ d (Function.update_self ..) hd (releaseSettled_of_commit hlog)
      by_cases hok : o.fault.Effective ∧ (s.world.db.exec (.commit tx)).isOk
      · by_cases hkey : s.world.db.processed tx.key
        · have hfail : s.world.db.exec (.commit tx) = .error .uniqueConstraint := by
            simp [TripDb.exec, Tx.commit, TripDb.createProcessedEvent, hkey]
            rfl
          rw [hfail] at hok
          cases hok.2
        · exact .inr ⟨hok.1, hkey⟩
      · have hsame := world_of_failed (Option.some.inj hr) hok
        left
        unfold ReleaseCommitted TripDb.trail
        rw [← hsame]
        exact hdone

/-- A step that commits what it releases for is safe. -/
theorem safe_of_commitsRelease (hs : ReleaseInv s) (hsafe : ReleaseSafe s)
    (hstep : (machine haversineKm).Step s a t) (hcom : CommitsRelease s a t) : ReleaseSafe t := by
  intro j th d hj hd hset
  have hold {th₀ : TripThread} (hj : s.threads j = some th₀) (hcall : th₀.call = th.call)
      (hset : ReleaseSettled th₀) : ReleaseCommitted t.world.db d :=
    (hsafe j th₀ d hj (hcall ▸ hd) hset).step hstep
  have hstep' := hstep
  cases hstep with
  | env hw => exact hold hj rfl hset
  | spawn hi hp =>
      rcases update_eq_some hj with ⟨-, rfl⟩ | ⟨-, hj⟩
      · obtain ⟨newer, driverId, reply, older, hlog, -⟩ := hset
        cases newer <;> cases hlog
      · exact hold hj rfl hset
  | @run i o op c k log r w hi hr =>
      rcases update_eq_some hj with ⟨rfl, rfl⟩ | ⟨-, hj⟩
      · obtain ⟨newer, driverId, reply, older, hlog, hlive⟩ := hset
        cases newer with
        | nil =>
            -- a cancelling delivery goes on after the PATCH
            have hend := (hs.step hstep').threads j _ (Function.update_self ..)
            dsimp only at hend hlive hlog
            have hjust : JustReleased (⟨c, r⟩ :: log) := ⟨driverId, reply, older, hlog⟩
            cases hp : k r with
            | ret a =>
                rw [hp] at hend
                exact absurd hjust (hend d hd)
            | throw e =>
                rw [hp] at hend
                exact absurd hjust (hend d hd)
            | call c' k' => exact absurd rfl (hlive ⟨c', k', hp⟩)
        | cons e newer =>
            injection hlog with _ hlog
            cases newer with
            | nil =>
                have hjust : JustReleased log := ⟨driverId, reply, older, hlog⟩
                have hc := ((hs.threads j _ hi).1 d hd).commits hjust
                subst hc
                rcases hcom j o op _ k log d rfl hi hd hjust with hdone | ⟨hfault, hkey⟩
                · exact hdone.step hstep'
                · obtain ⟨-, db', hx, hdone⟩ := hs.commits hi hd hjust hkey
                  have hfault' (message : String) : o.fault ≠ .refused message := by
                    intro h
                    rw [h] at hfault
                    cases hfault
                  have hc : CommitsAt s (.run j o) op log (some d.key) [d.exec] :=
                    ⟨j, o, _, k, (), db', rfl, hi, hfault', hx, rfl⟩
                  exact releaseCommitted_of_commit (hc.applied hstep')
            | cons e' newer =>
                refine hold hi rfl ⟨e' :: newer, driverId, reply, older, hlog, fun _ => ?_⟩
                exact List.cons_ne_nil _ _
      · exact hold hj rfl hset

end Steps

/-! ## Runs -/

theorem initial_releaseSafe (db : TripDb) : ReleaseSafe (initial db) := by
  rintro i th d ⟨⟩

/-- Drivers are released for committed cancellations only, in exactly the runs
in which the commit after every release takes effect. -/
theorem releaseSafe_iff_commits (haversineKm : GeoPoint → GeoPoint → Option Rat) (db : TripDb)
    (acts : List TripAction) :
    (machine haversineKm).Along (fun _ _ t => ReleaseSafe t) (initial db) acts ↔
      (machine haversineKm).Along CommitsRelease (initial db) acts :=
  Machine.along_reached_iff (initial_releaseInv db) (initial_releaseSafe db)
    (fun _ _ _ hs hstep => hs.step hstep) fun _ _ _ hs hsafe hstep =>
      ⟨commitsRelease_of_safe hstep, safe_of_commitsRelease hs hsafe hstep⟩

/-- A ride is matched and cancelled by its rider, and the transaction times out
while the PATCH is pending. -/
def releaseAndTimeOut : List TripAction :=
  matchedRun ++ [.spawn 2 (.handleRideCancelled "r" .undefined 2), .run 2 {}, .run 2 {}, .run 2 {},
    .run 2 {}, .run 2 { fault := .refused "Transaction already closed" }]

theorem not_releaseSafe_releaseAndTimeOut :
    ¬ (machine fun _ _ => some 0).Along (fun _ _ t => ReleaseSafe t) (initial .empty)
      releaseAndTimeOut := by
  intro h
  have hsplit : releaseAndTimeOut = releaseAndTimeOut.take 15 ++
      [.run 2 { fault := .refused "Transaction already closed" }] := rfl
  rw [hsplit] at h
  have hlast := h.suffix rfl
  have hcommitted := (hlast _ rfl).1 2 _ _ rfl rfl
    ⟨[_], "d", _, _, rfl, fun _ => List.cons_ne_nil _ _⟩
  have hmem : (⟨2, consumerName⟩ : ProcessedEventRow) ∈
      [⟨0, consumerName⟩, ⟨1, consumerName⟩] := hcommitted.1
  exact absurd hmem (by decide)

end TripService

end RydTrip
