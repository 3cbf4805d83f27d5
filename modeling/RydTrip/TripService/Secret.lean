import RydTrip.Process.Blind
import RydTrip.TripService.Machine

/-!
# A code as a secret

What is left of the database and of its replies without the code of one ride.
No call of the service does more with a row than what `toDomain` leaves of it,
so everything but `getOtp` is blind to the code, and the checks of `getOtpForRider`
and `start` come before they ask for it.
-/

namespace RydTrip

namespace TripService

open Process

/-- The row without its code, if it is that of the ride. -/
def RideRow.hide (id : String) (row : RideRow) : RideRow :=
  if row.id = id then { row with otp := none } else row

/-- The database without the code of the ride.  Two databases differ only in that
code if this is the same of both. -/
def TripDb.hide (id : String) (db : TripDb) : TripDb :=
  { db with rides := db.rides.map (RideRow.hide id) }

/-- What is left of a value that the database resolves with. -/
def DbCmd.view (id : String) : (c : DbCmd) → DbValue c → DbValue c
  | .findRide _ => Option.map (RideRow.hide id)
  | .getOtp id' => fun otp => if id' = id then none else otp
  | .findActive _ => Option.map (RideRow.hide id)
  | .findByRider .. => List.map (RideRow.hide id)
  | .findByDriver .. => List.map (RideRow.hide id)
  | .begin _ => fun u => u
  | .exec .. => RideRow.hide id
  | .commit _ => fun u => u
  | .transact _ => RideRow.hide id

/-- What is left of a reply. -/
def Cmd.view (id : String) : (c : Cmd) → Reply c → Reply c
  | .db c => Except.map (c.view id)
  | .patch .. => fun r => r
  | .park _ => fun r => r

/-! ## Rows -/

section Rows

variable {id : String}

@[simp] theorem hide_id (id : String) (row : RideRow) : (row.hide id).id = row.id := by
  unfold RideRow.hide
  split <;> rfl

@[simp] theorem hide_riderId (row : RideRow) : (row.hide id).riderId = row.riderId := by
  unfold RideRow.hide
  split <;> rfl

@[simp] theorem hide_driverId (row : RideRow) : (row.hide id).driverId = row.driverId := by
  unfold RideRow.hide
  split <;> rfl

@[simp] theorem hide_status (row : RideRow) : (row.hide id).status = row.status := by
  unfold RideRow.hide
  split <;> rfl

@[simp] theorem hide_createdAt (row : RideRow) : (row.hide id).createdAt = row.createdAt := by
  unfold RideRow.hide
  split <;> rfl

/-- `toDomain` drops the code. -/
@[simp] theorem toDomain_hide (id : String) (row : RideRow) :
    toDomain (row.hide id) = toDomain row := by
  unfold RideRow.hide
  split <;> rfl

theorem hide_hide (row : RideRow) : (row.hide id).hide id = row.hide id := by
  by_cases hid : row.id = id
  · simp only [RideRow.hide, hid, if_true]
  · simp only [RideRow.hide, hid, if_false]

theorem toDomain_eq_of_hide {row row' : RideRow} (h : row'.hide id = row.hide id) :
    toDomain row' = toDomain row := by
  rw [← toDomain_hide id row', h, toDomain_hide]

/-- An update goes by what is left of the row. -/
theorem hide_apply (id : String) (data : RideUpdate) (now : Nat) (row : RideRow) :
    (data.apply now (row.hide id)).hide id = (data.apply now row).hide id := by
  by_cases hid : row.id = id
  · simp only [RideRow.hide, hid, if_true, RideUpdate.apply]
  · simp only [RideRow.hide, hid, if_false]

end Rows

/-! ## Statements -/

section Statements

variable {id : String} {db db' : TripDb}

/-- Results that differ in what is hidden. -/
theorem map_eq_map_cases {ε α β : Type} {x y : Except ε α} {f : α → β} (h : x.map f = y.map f) :
    (∃ e, x = .error e ∧ y = .error e) ∨ ∃ a b, x = .ok a ∧ y = .ok b ∧ f a = f b := by
  cases x with
  | error e => exact .inl ⟨e, rfl, map_eq_error.mp h.symm⟩
  | ok a =>
      obtain ⟨b, rfl, hb⟩ := map_eq_ok.mp h.symm
      exact .inr ⟨a, b, rfl, rfl, hb.symm⟩

/-- What can be told from what is left of the database is the same of both. -/
theorem eq_of_hide {α : Type} {f : TripDb → α} (hf : ∀ db : TripDb, f (db.hide id) = f db)
    (h : db.hide id = db'.hide id) : f db = f db' := by
  rw [← hf db, h, hf db']

theorem findRide_hide (db : TripDb) (id' : String) :
    (db.hide id).findRide id' = (db.findRide id').map (RideRow.hide id) := by
  unfold TripDb.findRide TripDb.hide
  rw [List.find?_map]
  congr
  funext row
  rw [Function.comp, hide_id]

theorem newestFirst_hide (p : RideRow → Bool) (hp : ∀ row : RideRow, p (row.hide id) = p row) :
    TripDb.newestFirst ((db.hide id).rides.filter p) =
      (TripDb.newestFirst (db.rides.filter p)).map (RideRow.hide id) := by
  unfold TripDb.newestFirst TripDb.hide
  rw [List.filter_map, show p ∘ RideRow.hide id = p from funext hp]
  refine (List.map_insertionSort _ _ (RideRow.hide id) _ fun a _ b _ => ?_).symm
  rw [hide_createdAt, hide_createdAt]

theorem updateRide_hide (id : String) (db : TripDb) (id' : String) (data : RideUpdate) :
    ((db.hide id).updateRide id' data).map (Prod.map (RideRow.hide id) (TripDb.hide id)) =
      (db.updateRide id' data).map (Prod.map (RideRow.hide id) (TripDb.hide id)) := by
  unfold TripDb.updateRide
  rw [findRide_hide]
  cases db.findRide id' with
  | none => rfl
  | some row =>
      have hrow := hide_apply id data db.now row
      have hrows : ((db.hide id).rides.map fun r =>
            if r.id = id' then data.apply db.now r else r).map (RideRow.hide id) =
          (db.rides.map fun r => if r.id = id' then data.apply db.now r else r).map
            (RideRow.hide id) := by
        simp only [TripDb.hide, List.map_map]
        refine List.map_congr_left fun r _ => ?_
        simp only [Function.comp, hide_id]
        split
        · exact hide_apply id data db.now r
        · exact hide_hide r
      refine congrArg Except.ok (Prod.ext hrow ?_)
      simp only [Prod.map, TripDb.hide, TripDb.mk.injEq, and_true]
      exact hrows

theorem createRide_hide (id : String) (db : TripDb) (input : CreateRideInput) :
    ((db.hide id).createRide input).map (Prod.map (RideRow.hide id) (TripDb.hide id)) =
      (db.createRide input).map (Prod.map (RideRow.hide id) (TripDb.hide id)) := by
  unfold TripDb.createRide
  rw [findRide_hide, Option.isSome_map]
  split
  · rfl
  · refine congrArg Except.ok (Prod.ext rfl ?_)
    simp only [Prod.map, TripDb.hide, List.map_append, List.map_map, TripDb.mk.injEq, and_true]
    congr 1
    exact List.map_congr_left fun r _ => hide_hide r

theorem createTripEvent_hide (event : TripEventRow) (h : db.hide id = db'.hide id) :
    (db.createTripEvent event).hide id = (db'.createTripEvent event).hide id := by
  simp only [TripDb.hide, TripDb.createTripEvent, TripDb.mk.injEq] at h ⊢
  exact ⟨h.1, by rw [h.2.1], h.2.2⟩

theorem apply_hide (e : Exec) (h : db.hide id = db'.hide id) :
    (e.apply db).map (Prod.map (RideRow.hide id) (TripDb.hide id)) =
      (e.apply db').map (Prod.map (RideRow.hide id) (TripDb.hide id)) := by
  cases e with
  | create input =>
      have hcreate := eq_of_hide (f := fun db => (db.createRide input).map _)
        (createRide_hide id · input) h
      rcases map_eq_map_cases hcreate with
        ⟨err, hx, hy⟩ | ⟨⟨row, db₁⟩, ⟨row', db₁'⟩, hx, hy, heq⟩
      · simp only [Exec.apply, hx, hy]
      · obtain ⟨hrow, hdb⟩ := Prod.mk.inj heq
        have hid : row.id = row'.id := by rw [← hide_id id row, hrow, hide_id]
        simp only [Exec.apply, hx, hy]
        refine congrArg Except.ok (Prod.ext hrow ?_)
        simp only [Prod.map, hid]
        exact createTripEvent_hide _ hdb
  | transition id' tgt options =>
      simp only [Exec.apply]
      cases storedReason options.cancellationReason with
      | error err => rfl
      | ok reason =>
          have hupdate := eq_of_hide
            (f := fun db => (db.updateRide id' (options.data tgt reason)).map _)
            (updateRide_hide id · id' (options.data tgt reason)) h
          rcases map_eq_map_cases hupdate with
            ⟨err, hx, hy⟩ | ⟨⟨row, db₁⟩, ⟨row', db₁'⟩, hx, hy, heq⟩
          · simp only [bind, Except.bind, hx, hy]
          · obtain ⟨hrow, hdb⟩ := Prod.mk.inj heq
            simp only [bind, Except.bind, hx, hy]
            exact congrArg Except.ok (Prod.ext hrow (createTripEvent_hide _ hdb))

theorem applyAll_hide (es : List Exec) (h : db.hide id = db'.hide id) :
    (applyAll es db).map (TripDb.hide id) = (applyAll es db').map (TripDb.hide id) := by
  induction es generalizing db db' with
  | nil => exact congrArg Except.ok h
  | cons e es ih =>
      rcases map_eq_map_cases (apply_hide e h) with
        ⟨err, hx, hy⟩ | ⟨⟨row, db₁⟩, ⟨row', db₁'⟩, hx, hy, heq⟩
      · rw [applyAll, applyAll, hx, hy]
      · rw [applyAll, applyAll, hx, hy]
        exact ih (Prod.mk.inj heq).2

theorem commit_hide (tx : Tx) (h : db.hide id = db'.hide id) :
    (tx.commit db).map (TripDb.hide id) = (tx.commit db').map (TripDb.hide id) := by
  obtain ⟨hrides, hevents, hprocessed, hnow⟩ := TripDb.mk.inj h
  unfold Tx.commit TripDb.createProcessedEvent TripDb.processed
  rw [hprocessed]
  by_cases hkey : db'.processedEvents.contains tx.key = true
  · rw [if_pos hkey, if_pos hkey]
  · rw [if_neg hkey, if_neg hkey]
    refine applyAll_hide tx.staged ?_
    simp only [TripDb.hide, hrides, hevents, hnow]

theorem txExec_hide (tx : Tx) (e : Exec) (h : db.hide id = db'.hide id) :
    (tx.exec e db).map (RideRow.hide id) = (tx.exec e db').map (RideRow.hide id) := by
  unfold Tx.exec
  rcases map_eq_map_cases (applyAll_hide tx.staged h) with
    ⟨err, hx, hy⟩ | ⟨db₁, db₁', hx, hy, hdb⟩
  · rw [hx, hy]
  · rw [hx, hy]
    simp only [bind, Except.bind]
    rcases map_eq_map_cases (apply_hide e hdb) with
      ⟨err, hx, hy⟩ | ⟨⟨row, db₂⟩, ⟨row', db₂'⟩, hx, hy, heq⟩
    · rw [hx, hy]
    · rw [hx, hy]
      exact congrArg Except.ok (Prod.mk.inj heq).1

/-- The database answers alike. -/
theorem exec_hide (c : DbCmd) (h : db.hide id = db'.hide id) :
    (db.exec c).map (Prod.map (c.view id) (TripDb.hide id)) =
      (db'.exec c).map (Prod.map (c.view id) (TripDb.hide id)) := by
  have hfind (id' : String) : (db.findRide id').map (RideRow.hide id) =
      (db'.findRide id').map (RideRow.hide id) := by
    rw [← findRide_hide, ← findRide_hide, h]
  have hnewest (p : RideRow → Bool) (hp : ∀ row : RideRow, p (row.hide id) = p row) :
      (TripDb.newestFirst (db.rides.filter p)).map (RideRow.hide id) =
        (TripDb.newestFirst (db'.rides.filter p)).map (RideRow.hide id) := by
    rw [← newestFirst_hide p hp, ← newestFirst_hide p hp, h]
  cases c with
  | findRide id' => exact congrArg Except.ok (Prod.ext (hfind id') h)
  | getOtp id' =>
      refine congrArg Except.ok (Prod.ext ?_ h)
      simp only [Prod.map, DbCmd.view]
      split
      next => rfl
      next hid =>
        -- the row is another one
        have hother (db : TripDb) : (db.findRide id').map (RideRow.hide id) = db.findRide id' := by
          cases hrow : db.findRide id' with
          | none => rfl
          | some row =>
              rw [Option.map_some, RideRow.hide, if_neg (TripDb.findRide_id hrow ▸ hid)]
        rw [← hother db, hfind id', hother db']
  | findActive driverId =>
      refine congrArg Except.ok (Prod.ext ?_ h)
      simp only [Prod.map, DbCmd.view, TripDb.findActive]
      rw [← List.head?_map, ← List.head?_map, hnewest]
      intro row
      simp only [hide_driverId, hide_status]
  | findByRider riderId limit =>
      refine congrArg Except.ok (Prod.ext ?_ h)
      simp only [Prod.map, DbCmd.view, TripDb.findByRider]
      rw [List.map_take, List.map_take, hnewest]
      intro row
      simp only [hide_riderId]
  | findByDriver driverId limit =>
      refine congrArg Except.ok (Prod.ext ?_ h)
      simp only [Prod.map, DbCmd.view, TripDb.findByDriver]
      rw [List.map_take, List.map_take, hnewest]
      intro row
      simp only [hide_driverId]
  | begin key =>
      obtain ⟨-, -, hprocessed, -⟩ := TripDb.mk.inj h
      simp only [TripDb.exec]
      unfold TripDb.beginProcessed TripDb.processed
      rw [hprocessed]
      by_cases hkey : db'.processedEvents.contains key = true
      · rw [if_pos hkey]
        rfl
      · rw [if_neg hkey]
        exact congrArg Except.ok (Prod.ext rfl h)
  | exec tx e =>
      rcases map_eq_map_cases (txExec_hide tx e h) with ⟨err, hx, hy⟩ | ⟨row, row', hx, hy, hrow⟩
      · simp only [TripDb.exec, hx, hy]
        rfl
      · simp only [TripDb.exec, hx, hy]
        exact congrArg Except.ok (Prod.ext hrow h)
  | commit tx =>
      rcases map_eq_map_cases (commit_hide tx h) with ⟨err, hx, hy⟩ | ⟨db₁, db₁', hx, hy, hdb⟩
      · simp only [TripDb.exec, hx, hy]
      · simp only [TripDb.exec, hx, hy]
        exact congrArg Except.ok (Prod.ext rfl hdb)
  | transact e => exact apply_hide e h

end Statements

/-! ## The host -/

/-- The host without the code. -/
def TripHost.hide (id : String) (w : TripHost) : TripHost := { w with db := w.db.hide id }

/-- Every command is answered alike. -/
theorem TripHost.exec_hide {id : String} {w w' : TripHost} (o : Oracle) (c : Cmd)
    (h : w.hide id = w'.hide id) :
    Prod.map (c.view id) (TripHost.hide id) (w.exec o c) =
      Prod.map (c.view id) (TripHost.hide id) (w'.exec o c) := by
  obtain ⟨hdb, hpatches, hparked⟩ := TripHost.mk.inj h
  cases c with
  | db c =>
      have hhost {r r' : Except PrismaError (DbValue c)} {db db' : TripDb}
          (hr : r.map (c.view id) = r'.map (c.view id)) (hdb : db.hide id = db'.hide id) :
          Prod.map (Cmd.view id (.db c)) (TripHost.hide id) (r, { w with db := db }) =
            Prod.map (Cmd.view id (.db c)) (TripHost.hide id) (r', { w' with db := db' }) := by
        refine Prod.ext hr ?_
        simp only [Prod.map, TripHost.hide, hdb, hpatches, hparked]
      rcases map_eq_map_cases (TripService.exec_hide c hdb) with
        ⟨err, hx, hy⟩ | ⟨⟨a, db₁⟩, ⟨a', db₁'⟩, hx, hy, heq⟩
      · simp only [TripHost.exec, hx, hy]
        cases o.fault with
        | none => exact hhost rfl hdb
        | refused message => exact hhost rfl hdb
        | lost message => exact hhost rfl hdb
      · obtain ⟨ha, hdb₁⟩ := Prod.mk.inj heq
        simp only [TripHost.exec, hx, hy]
        cases o.fault with
        | none => exact hhost (congrArg Except.ok ha) hdb₁
        | refused message => exact hhost rfl hdb
        | lost message => exact hhost rfl hdb₁
  | patch driverId status =>
      refine Prod.ext rfl ?_
      simp only [TripHost.exec, Prod.map, TripHost.hide, hdb, hpatches, hparked]
  | park fields =>
      simp only [TripHost.exec]
      cases o.parkReply with
      | ok u =>
          refine Prod.ext rfl ?_
          simp only [Prod.map, TripHost.hide, hdb, hpatches, hparked]
      | error message => exact Prod.ext rfl h

/-! ## Blindness -/

section Blind

variable {id : String} {α β : Type}

/-- A query is blind with what goes by the view of its value. -/
theorem query_blind {c : DbCmd} {f : DbValue c → Trip α}
    (hview : ∀ a a', c.view id a' = c.view id a → f a' = f a)
    (hf : ∀ a, (f a).Blind (Cmd.view id)) : (query c >>= f).Blind (Cmd.view id) := by
  intro r
  refine ⟨fun r' hr' => ?_, ?_⟩
  · rcases map_eq_map_cases hr' with ⟨err, rfl, rfl⟩ | ⟨a', a, rfl, rfl, ha⟩
    · rfl
    · exact hview a a' ha
  · cases r with
    | error err => trivial
    | ok a => exact hf a

/-- A query whose value has nothing to hide. -/
theorem query_blind_of_id {c : DbCmd} (hview : ∀ a, c.view id a = a) :
    (query c).Blind (Cmd.view id) := by
  rw [← Prog.bind_ret (query c)]
  refine query_blind (fun a a' ha => ?_) fun a => trivial
  rw [hview, hview] at ha
  rw [ha]

namespace TripsRepository

theorem findById_blind (id' : String) : (findById id').Blind (Cmd.view id) := by
  refine query_blind (fun row row' h => ?_) fun row => trivial
  have hdomain := congrArg (Option.map toDomain) h
  simp only [DbCmd.view, Option.map_map, Function.comp_def, toDomain_hide] at hdomain
  exact congrArg Prog.ret hdomain

theorem findActiveByDriver_blind (driverId : String) :
    (findActiveByDriver driverId).Blind (Cmd.view id) := by
  refine query_blind (fun row row' h => ?_) fun row => trivial
  have hdomain := congrArg (Option.map toDomain) h
  simp only [DbCmd.view, Option.map_map, Function.comp_def, toDomain_hide] at hdomain
  exact congrArg Prog.ret hdomain

theorem findByRider_blind (riderId : String) (limit : Int) :
    (findByRider riderId limit).Blind (Cmd.view id) := by
  refine query_blind (fun rows rows' h => ?_) fun rows => trivial
  have hdomain := congrArg (List.map toDomain) h
  simp only [DbCmd.view, List.map_map, Function.comp_def, toDomain_hide] at hdomain
  exact congrArg Prog.ret hdomain

theorem findByDriver_blind (driverId : String) (limit : Int) :
    (findByDriver driverId limit).Blind (Cmd.view id) := by
  refine query_blind (fun rows rows' h => ?_) fun rows => trivial
  have hdomain := congrArg (List.map toDomain) h
  simp only [DbCmd.view, List.map_map, Function.comp_def, toDomain_hide] at hdomain
  exact congrArg Prog.ret hdomain

theorem runExec_blind (e : Exec) (tx : Option Tx) : (runExec e tx).Blind (Cmd.view id) := by
  cases tx with
  | none =>
      refine query_blind (fun row row' h => ?_) fun row => trivial
      rw [toDomain_eq_of_hide h]
  | some tx =>
      refine query_blind (fun row row' h => ?_) fun row => trivial
      rw [toDomain_eq_of_hide h]

theorem runIdempotent_blind {eventId : Nat} {consumerName : String}
    {work : Option Tx → Trip (α × Option Tx)} (hwork : ∀ tx, (work tx).Blind (Cmd.view id)) :
    (runIdempotent eventId consumerName work).Blind (Cmd.view id) := by
  refine Prog.Blind.tryCatch ?_ fun err => ?_
  · refine (query_blind_of_id fun u => rfl).bind fun _ => (hwork _).bind fun out => ?_
    obtain ⟨result, tx⟩ := out
    cases tx with
    | none => trivial
    | some tx => exact (query_blind_of_id fun u => rfl).bind fun _ => trivial
  · split <;> trivial

end TripsRepository

namespace TripsService

theorem guardTransition_blind (src tgt : RideStatus) :
    (guardTransition src tgt).Blind (Cmd.view id) := by
  unfold guardTransition
  split <;> trivial

theorem findById_blind (id' : String) : (findById id').Blind (Cmd.view id) := by
  refine (TripsRepository.findById_blind id').bind fun ride => ?_
  cases ride with
  | none => trivial
  | some ride => trivial

theorem syncRideDriver_blind (ride : Ride) (status : DriverStatus) :
    (syncRideDriver ride status).Blind (Cmd.view id) := by
  unfold syncRideDriver
  split
  · rw [syncDriverStatusBestEffort_eq]
    exact fun r => ⟨fun r' _ => rfl, trivial⟩
  · trivial

theorem transitionTo_blind (id' : String) (tgt : RideStatus) :
    (transitionTo id' tgt).Blind (Cmd.view id) :=
  (findById_blind id').bind fun ride => (guardTransition_blind ride.status tgt).bind fun _ =>
    (TripsRepository.runExec_blind _ _).bind fun _ => trivial

theorem accept_blind (id' : String) (draw : Fin 10000) :
    (accept id' draw).Blind (Cmd.view id) :=
  (findById_blind id').bind fun ride => (guardTransition_blind ride.status _).bind fun _ =>
    (TripsRepository.runExec_blind _ _).bind fun _ => trivial

theorem cancel_blind (id' : String) (reason : JsText) (tx : Option Tx) :
    (cancel id' reason tx).Blind (Cmd.view id) :=
  (findById_blind id').bind fun ride => (guardTransition_blind ride.status _).bind fun _ =>
    (TripsRepository.runExec_blind _ _).bind fun out =>
      (syncRideDriver_blind out.1 .available).bind fun _ => trivial

theorem decline_blind (id' : String) : (decline id').Blind (Cmd.view id) :=
  (cancel_blind id' _ none).bind fun _ => trivial

theorem complete_blind (haversineKm : GeoPoint → GeoPoint → Option Rat) (id' : String) :
    (complete haversineKm id').Blind (Cmd.view id) :=
  (findById_blind id').bind fun ride => (guardTransition_blind ride.status _).bind fun _ =>
    (TripsRepository.runExec_blind _ _).bind fun out =>
      (syncRideDriver_blind out.1 .available).bind fun _ => trivial

end TripsService

theorem handle_blind (eventId : Nat) (event : RideEvent) :
    (event.handle eventId).Blind (Cmd.view id) := by
  cases event with
  | requested input =>
      refine (TripsRepository.runIdempotent_blind fun tx => ?_).bind fun _ => trivial
      exact (TripsRepository.runExec_blind _ _).bind fun out => TripsRepository.runExec_blind _ _
  | cancelled rideId reason =>
      exact (TripsRepository.runIdempotent_blind fun tx =>
        TripsService.cancel_blind rideId reason tx).bind fun _ => trivial
  | reserved rideId driverId =>
      refine (TripsService.findById_blind rideId).bind fun ride =>
        (TripsService.guardTransition_blind ride.status _).bind fun _ => ?_
      exact (TripsRepository.runIdempotent_blind fun tx =>
        TripsRepository.runExec_blind _ tx).bind fun _ => trivial
  | rejected rideId =>
      exact (TripsRepository.runIdempotent_blind fun tx =>
        TripsService.cancel_blind rideId _ tx).bind fun _ => trivial

theorem consume_blind (maxAttempts : Nat) (envelope : EventEnvelope) :
    (RideEventsConsumer.consume maxAttempts envelope).Blind (Cmd.view id) := by
  have hhandler : (RideEventsConsumer.handler envelope).Blind (Cmd.view id) := by
    cases hevent : RideEvent.ofEnvelope envelope with
    | some event =>
        rw [RideEvent.handler_of_ofEnvelope hevent]
        exact handle_blind envelope.eventId event
    | none =>
        rcases RideEvent.handler_of_ofEnvelope_none hevent with h | h
        · rw [h]
          trivial
        · rw [h]
          trivial
  have hpark (fields : DlqFields) : (RideEventsConsumer.park fields).Blind (Cmd.view id) := by
    intro r
    refine ⟨fun r' hr' => ?_, ?_⟩
    · rw [show r' = r from hr']
    · cases r <;> trivial
  unfold RideEventsConsumer.consume EventConsumer.deliver
  generalize 1 = attempt
  induction maxAttempts generalizing attempt with
  | zero => trivial
  | succ left ih =>
      refine Prog.Blind.tryCatch hhandler fun err => ?_
      split
      · exact hpark _
      · exact ih _

/-! ## Who is refused the code -/

/-- The operation is not called by the one who may read the code of the ride, or
who may start it: if the reply is the row of the ride, its check fails. -/
def Op.Refused (id : String) (op : Op) : (c : Cmd) → Reply c → Prop
  | .db (.findRide asked), .ok (some row) =>
      match op with
      | .getOtp id' caller =>
          id' = id → asked = id → ∃ user, truthy caller = some user ∧ row.riderId ≠ user
      | .start id' _ caller =>
          id' = id → asked = id → ∃ user, truthy caller = some user ∧ row.driverId ≠ some user
      | _ => True
  | _, _ => True

/-- Whatever else is called has nobody to refuse. -/
theorem refused_of_other {op : Op} (hget : ∀ id' caller, op ≠ .getOtp id' caller)
    (hstart : ∀ id' otp caller, op ≠ .start id' otp caller) (c : Cmd) (r : Reply c) :
    op.Refused id c r := by
  unfold Op.Refused
  split
  · split
    · exact absurd rfl (hget _ _)
    · exact absurd rfl (hstart _ _ _)
    · trivial
  · trivial

theorem getOtp_blind {id' : String} (hid : id' ≠ id) :
    (TripsRepository.getOtp id').Blind (Cmd.view id) :=
  query_blind_of_id fun _ => if_neg hid

/-- Once the row is read, what follows may be blind because of what it says. -/
theorem findById_blindAfter {id' : String} {f : Ride → Trip α} {post : (c : Cmd) → Reply c → Prop}
    (hf : ∀ row, post (.db (.findRide id')) (.ok (some row)) →
      (f (toDomain row)).Blind (Cmd.view id)) :
    (TripsService.findById id' >>= f).BlindAfter (Cmd.view id) post := by
  intro r hpost
  constructor
  · intro r' hr'
    exact congrArg (fun p => Prog.bind p f) ((TripsService.findById_blind id' r).1 r' hr')
  · cases r with
    | error err => trivial
    | ok row =>
        cases row with
        | none => trivial
        | some row => exact hf row hpost

theorem getOtpForRider_blindAfter (id' : String) (caller : Option String) :
    (TripsService.getOtpForRider id' caller).BlindAfter (Cmd.view id)
      ((Op.getOtp id' caller).Refused id) := by
  refine findById_blindAfter fun row hpost => ?_
  by_cases hid : id' = id
  · -- the check fails
    obtain ⟨user, hcaller, hne⟩ := hpost hid hid
    rw [hcaller]
    refine (congrArg (Prog.Blind (Cmd.view id)) (if_pos hne)).mpr ?_
    trivial
  · cases truthy caller with
    | none => exact getOtp_blind hid
    | some user =>
        dsimp only
        split
        · trivial
        · exact getOtp_blind hid

theorem start_blindAfter (id' otp : String) (caller : Option String) :
    (TripsService.start id' otp caller).BlindAfter (Cmd.view id)
      ((Op.start id' otp caller).Refused id) := by
  refine findById_blindAfter fun row hpost => ?_
  refine (TripsService.guardTransition_blind row.status .inProgress).bind fun _ => ?_
  by_cases hid : id' = id
  · obtain ⟨user, hcaller, hne⟩ := hpost hid hid
    have hguard : TripsService.guardCaller (toDomain row) caller =
        .throw (.forbidden "Only the assigned driver can start this trip") := by
      unfold TripsService.guardCaller
      rw [hcaller]
      exact if_pos hne
    rw [hguard]
    trivial
  · have hguard : (TripsService.guardCaller (toDomain row) caller).Blind (Cmd.view id) := by
      unfold TripsService.guardCaller
      split
      · split <;> trivial
      · trivial
    have hotp (storedOtp : Option String) :
        (TripsService.guardOtp storedOtp otp).Blind (Cmd.view id) := by
      unfold TripsService.guardOtp
      split
      · split <;> trivial
      · trivial
    exact hguard.bind fun _ => (getOtp_blind hid).bind fun storedOtp =>
      (hotp storedOtp).bind fun _ => (TripsRepository.runExec_blind _ _).bind fun out =>
        (TripsService.syncRideDriver_blind out.1 .onTrip).bind fun _ => trivial

/-- Every operation is blind to the code of a ride, once it is clear that it is
not called by the one who may know it. -/
theorem program_blindAfter (haversineKm : GeoPoint → GeoPoint → Option Rat) (op : Op) :
    (TripsService.program haversineKm op).BlindAfter (Cmd.view id) (op.Refused id) := by
  have hend {β : Type} {p : Trip β} {f : β → Response} (hp : p.Blind (Cmd.view id)) :
      (p >>= fun b => .ret (f b)).BlindAfter (Cmd.view id) (op.Refused id) := by
    refine (hp.bind fun b => ?_).blindAfter
    trivial
  cases op with
  | findActiveForDriver driverId =>
      exact hend (TripsRepository.findActiveByDriver_blind driverId)
  | findHistoryForRider riderId limit =>
      exact hend (TripsRepository.findByRider_blind riderId _)
  | findHistoryForDriver driverId limit =>
      exact hend (TripsRepository.findByDriver_blind driverId _)
  | findOne id' => exact hend (TripsService.findById_blind id')
  | accept id' draw => exact hend (TripsService.accept_blind id' draw)
  | decline id' => exact hend (TripsService.decline_blind id')
  | driverArrived id' => exact hend (TripsService.transitionTo_blind id' _)
  | start id' otp caller => exact (start_blindAfter id' otp caller).bind fun _ => trivial
  | getOtp id' caller => exact (getOtpForRider_blindAfter id' caller).bind fun _ => trivial
  | complete id' => exact hend (TripsService.complete_blind haversineKm id')
  | cancel id' reason => exact hend (TripsService.cancel_blind id' reason none)
  | handleRideRequested input eventId => exact hend (handle_blind eventId (.requested input))
  | handleRideCancelled rideId reason eventId =>
      exact hend (handle_blind eventId (.cancelled rideId reason))
  | handleDriverReserved rideId driverId eventId =>
      exact hend (handle_blind eventId (.reserved rideId driverId))
  | handleDriverRejected rideId eventId => exact hend (handle_blind eventId (.rejected rideId))
  | consume maxAttempts envelope => exact hend (consume_blind maxAttempts envelope)

/-! ## A code that is read for nothing -/

theorem findById_ignored_blind {id' : String} {f : Ride → Trip α} {b : β}
    (hf : ∀ ride, ((f ride).attempt >>= fun _ => (.ret b : Trip β)).Blind (Cmd.view id)) :
    ((TripsService.findById id' >>= f).attempt >>= fun _ => (.ret b : Trip β)).Blind
      (Cmd.view id) := by
  intro r
  constructor
  · intro r' hr'
    exact congrArg (fun p => Prog.bind (Prog.attempt (Prog.bind p f)) fun _ => .ret b)
      ((TripsService.findById_blind id' r).1 r' hr')
  · cases r with
    | error err => trivial
    | ok row =>
        cases row with
        | none => trivial
        | some row => exact hf (toDomain row)

/-- Even the rider learns nothing from a reading whose outcome is dropped. -/
theorem getOtp_ignored_blind (haversineKm : GeoPoint → GeoPoint → Option Rat) (id' : String)
    (caller : Option String) (b : β) :
    ((TripsService.program haversineKm (.getOtp id' caller)).attempt >>= fun _ =>
      (.ret b : Trip β)).Blind (Cmd.view id) := by
  have hread : ((TripsRepository.getOtp id' >>= fun otp => .ret (Response.otp otp)).attempt >>=
      fun _ => (.ret b : Trip β)).Blind (Cmd.view id) := by
    intro r
    refine ⟨fun r' _ => ?_, ?_⟩
    · cases r <;> cases r' <;> rfl
    · cases r <;> trivial
  rw [show TripsService.program haversineKm (.getOtp id' caller) = _ from
    Prog.bind_bind (TripsService.findById id') _ _]
  refine findById_ignored_blind fun ride => ?_
  cases truthy caller with
  | none => exact hread
  | some user =>
      dsimp only
      split
      · trivial
      · exact hread

end Blind

end TripService

end RydTrip
