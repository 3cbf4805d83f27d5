import RydTrip.Backend.Leaks

/-!
# Whom a cancellation releases

`cancel` sends AVAILABLE for the driver of the ride, on the ground that a ride
that can be cancelled has a RESERVED driver.  The ride's status does not say so:
it is true when the match is stored for a RESERVED driver, and nobody but the
operations on the ride writes his status until the ride has left him.  Statements
have to find the ride as its operation has read it, and to wait for its row lock.
-/

namespace RydTrip

namespace Backend

open Process TripService

/-! ## Cancellations -/

/-- The driver that a command of driver-service is about. -/
def driverOf : Drivers.Cmd → String
  | .findUnique driverId => driverId
  | .update driverId _ => driverId

/-- While `cancel` has its PATCH answered, the driver is RESERVED. -/
def CancelSafe (s : BackendPool) : Prop :=
  ∀ i call c k log op, s.threads i = some ⟨call, .call (.drivers c) k, log⟩ → call.op = some op →
    op.cancels = true → s.world.drivers (driverOf c) = some .reserved

/-- No handler has sent the sync of the ride's cancellation before its commit. -/
def Unreleased (s : BackendPool) (rideId : String) : Prop :=
  ∀ i th, s.threads i = some th → th.Live → th.call.ride = some rideId →
    ¬ (progressOf th.log).Released rideId

/-- The ride can still release its driver. -/
inductive BoundTo (s : BackendPool) (driverId rideId : String) : Prop where
  | assigned {row : RideRow} :
      s.world.trip.findRide rideId = some row →
      row.driverId = some driverId →
      row.status.Assigned →
      Unreleased s rideId →
      BoundTo s driverId rideId
  /-- The ride is cancelled, or about to be, and the sync is due. -/
  | releasing {i : Nat} {th : BackendThread} {op : Op} {status : DriverStatus} :
      s.threads i = some th →
      th.call.op = some op →
      op.ride = some rideId →
      op.cancels = true →
      (progressOf th.log).due = some (driverId, status) →
      BoundTo s driverId rideId

/-- The step does not come between a ride and its driver. -/
structure Undisturbed (s : BackendPool) (a : BackendAction) : Prop where
  /-- A statement finds the ride in a status that it may leave for the new one. -/
  lawful : ∀ i found call c k log rideId tgt options row, a = .run i found →
    s.threads i = some ⟨call, .call (.db c) k, log⟩ → .transition rideId tgt options ∈ c.writes →
    s.world.trip.findRide rideId = some row → canTransitionRideStatus row.status tgt = true
  /-- It is not run while another operation has writes of the ride uncommitted. -/
  locked : ∀ i found call c k log rideId tgt options, a = .run i found →
    s.threads i = some ⟨call, .call (.db c) k, log⟩ → .transition rideId tgt options ∈ c.writes →
    ∀ j th, s.threads j = some th → j ≠ i → th.Live → th.call.ride = some rideId →
      (progressOf th.log).staged = []
  /-- A match is stored while its driver is RESERVED. -/
  matched : ∀ i es th op rideId driverId eventId, CommitsBy s a i es → s.threads i = some th →
    th.call.op = some op → op.event = some (.reserved rideId driverId, eventId) →
    s.world.drivers driverId = some .reserved
  /-- Only operations on the ride change the status of the driver of the ride. -/
  exclusive : ∀ i found call driverId status k log rideId, a = .run i found →
    s.threads i = some ⟨call, .call (.drivers (.update driverId status)) k, log⟩ →
    status ≠ .reserved → BoundTo s driverId rideId → call.ride = some rideId

theorem Undisturbed.turns {s : BackendPool} {a : BackendAction} (h : Undisturbed s a) :
    TakeTurns s a := by
  constructor
  · rintro i es rideId tgt options row ⟨found, call, c, k, log, key, ha, hi, hc⟩ hmem hrow
    rw [← DbCmd.writes_of_commits hc] at hmem
    exact .inl (h.lawful i found call c k log rideId tgt options row ha hi hmem hrow)
  · rintro i es rideId tgt options ⟨found, call, c, k, log, key, ha, hi, hc⟩ hmem
    rw [← DbCmd.writes_of_commits hc] at hmem
    exact h.locked i found call c k log rideId tgt options ha hi hmem

/-! ## Staged statements -/

/-- What is staged belongs to the event and can be stored. -/
def Storable (s : BackendPool) : Prop :=
  ∀ i th e, s.threads i = some th → e ∈ (progressOf th.log).staged →
    (∃ op event eventId, th.call.op = some op ∧ op.event = some (event, eventId) ∧
      e ∈ event.writes) ∧
    ∀ id tgt options, e = .transition id tgt options →
      ∃ reason, storedReason options.cancellationReason = .ok reason

theorem initial_storable (drivers : String → Option DriverStatus) : Storable (initial drivers) :=
  fun _ _ _ => nofun

section Commands

variable {w w' : World} {found : List NearbyDriver} {call : Call} {c : Cmd} {r : Reply c}
  {log : BackendLog} {rideId driverId : String}

/-- A statement is staged when the database has run it. -/
theorem staged_cons (hpre : call.Allows c (track Track.next .start log))
    (hx : w.exec found c = (r, w')) {e : Exec} (h : e ∈ (progressOf (⟨c, r⟩ :: log)).staged) :
    e ∈ (progressOf log).staged ∨
      (∃ op event eventId, call.op = some op ∧ op.event = some (event, eventId) ∧
        e ∈ event.writes) ∧ ∃ db p, e.apply db = .ok p := by
  cases c with
  | dispatch c => exact .inl h
  | tripPark fields => exact .inl h
  | drivers c => cases c <;> exact .inl h
  | db c =>
      obtain ⟨op, hop, hpre⟩ := hpre
      rcases exec_db hx with ⟨err, -, rfl, rfl⟩ | ⟨v, db, hdb, rfl, rfl⟩
      · cases h
      · cases c with
        | commit tx => cases h
        | findRide id => cases v <;> exact .inl h
        | exec tx e' =>
            obtain ⟨-, -, hstaged, event, eventId, hev, -, hbegin, -⟩ := hpre
            have hmem : e ∈ tx.staged ++ [e'] := h
            rcases List.mem_append.mp hmem with hold | hnew
            · exact .inl (hstaged ▸ hold)
            · cases List.mem_singleton.mp hnew
              obtain ⟨row, hrow, -⟩ := map_eq_ok.mp hdb
              obtain ⟨db₁, db₂, -, he⟩ := Tx.exec_ok.mp hrow
              exact .inr ⟨⟨op, event, eventId, hop, hev, hbegin.mem hmem⟩, db₁, _, he⟩
        | _ => exact .inl h

/-- A handler that has sent its sync goes on to its commit. -/
theorem released_kept (hpre : call.Allows c (track Track.next .start log))
    (hx : w.exec found c = (r, w')) (h : (progressOf log).Released rideId) :
    (progressOf (⟨c, r⟩ :: log)).Released rideId ∨ ∃ tx, c = .db (.commit tx) := by
  obtain ⟨hdue, hopen, options, hmem⟩ := h
  cases c with
  | dispatch c => exact .inl ⟨hdue, hopen, options, hmem⟩
  | tripPark fields =>
      obtain ⟨-, -, hidle, -⟩ := hpre
      have hnil : (progressOf log).staged = [] := hidle.staged
      rw [hnil] at hmem
      cases hmem
  | drivers c =>
      left
      cases c with
      | findUnique driverId =>
          refine ⟨?_, hopen, options, hmem⟩
          change Option.filter _ (progressOf log).due = none
          rw [hdue]
          rfl
      | update driverId status => exact ⟨rfl, hopen, options, hmem⟩
  | db c =>
      obtain ⟨op, -, hpre⟩ := hpre
      have hbusy (hidle : (progressOf log).Idle) : False := by
        rw [hidle.staged] at hmem
        cases hmem
      cases c with
      | begin key => exact (hbusy hpre.1).elim
      | transact e => exact (hbusy hpre.1).elim
      | commit tx => exact .inr ⟨tx, rfl⟩
      | exec tx e =>
          obtain ⟨-, -, hstaged, event, eventId, -, -, hbegin, -⟩ := hpre
          have hmem : Exec.transition rideId .cancelled options ∈ tx.staged := hstaged ▸ hmem
          obtain ⟨hwrites, -⟩ :=
            RideEvent.writes_cancelled (hbegin.mem (List.mem_append_left _ hmem))
          rw [hwrites] at hbegin
          obtain ⟨hnil, -⟩ := staged_of_singleton hbegin
          rw [hnil] at hmem
          cases hmem
      | findRide id =>
          rcases exec_db hx with ⟨err, hdb, -⟩ | ⟨v, db, -, rfl, -⟩
          · cases hdb
          · left
            cases v <;> exact ⟨hdue, hopen, options, hmem⟩
      | _ =>
          rcases exec_db hx with ⟨err, hdb, -⟩ | ⟨v, db, -, rfl, -⟩
          · cases hdb
          · exact .inl ⟨hdue, hopen, options, hmem⟩

end Commands

/-! ## Steps -/

section Steps

variable {cfg : Dispatch.Config} {haversineKm : GeoPoint → GeoPoint → Option Rat}
  {s t : BackendPool} {a : BackendAction} {rideId driverId : String}

theorem Storable.step (hst : Storable s) (hs : Sound s) (h : (machine cfg haversineKm).Step s a t) :
    Storable t := by
  intro j th e hj he
  cases h with
  | spawn hi hp =>
      rcases update_eq_some hj with ⟨-, rfl⟩ | ⟨-, hj⟩
      · cases he
      · exact hst j th e hj he
  | env hw => exact hst j th e hj he
  | @run i found call c k log r w hi hr =>
      rcases update_eq_some hj with ⟨rfl, rfl⟩ | ⟨-, hj⟩
      · rcases staged_cons (hs.meets _ _ hi).allows (Option.some.inj hr) he with
          hold | ⟨hwrites, db, p, hdb⟩
        · exact hst j ⟨call, .call c k, log⟩ e hi hold
        · refine ⟨hwrites, ?_⟩
          rintro id tgt options rfl
          obtain ⟨-, reason, -, hreason, -⟩ := Exec.transition_ok hdb
          exact ⟨reason, hreason⟩
      · exact hst j th e hj he

/-- A handler that has sent its sync is still to commit. -/
theorem Storable.live_of_released (hst : Storable s) (hs : Sound s) {i : Nat} {th : BackendThread}
    (hi : s.threads i = some th) (h : (progressOf th.log).Released rideId) : th.Live := by
  by_contra hlive
  obtain ⟨-, hopen, options, hmem⟩ := h
  obtain ⟨⟨op, event, eventId, hop, hev, -⟩, -⟩ := hst i th _ hi hmem
  obtain ⟨envelope, hcall, hof, -⟩ := hs.event hi hop hev
  have hfin := (hs.meets i th hi).ended hlive
  rw [hcall] at hfin
  cases (hfin.2 2 _ rfl (hof ▸ rfl)).symm.trans hopen

/-- The commit of a cancellation whose sync has been sent goes through. -/
theorem Storable.commit_released (hst : Storable s) (hs : Sound s) (ho : Once s) {i : Nat}
    {found : List NearbyDriver} {call : Call} {tx : Tx}
    {k : Reply (.db (.commit tx)) → Prog Cmd Reply Empty Unit} {log : BackendLog}
    {r : Reply (.db (.commit tx))} {w : World} {row : RideRow}
    (hi : s.threads i = some ⟨call, .call (.db (.commit tx)) k, log⟩)
    (hx : s.world.exec found (.db (.commit tx)) = (r, w)) (h : (progressOf log).Released rideId)
    (hrow : s.world.trip.findRide rideId = some row) :
    ∃ row', w.trip.findRide rideId = some row' ∧ row'.status = .cancelled := by
  obtain ⟨-, hopen, options, hmem⟩ := h
  obtain ⟨-, hreason⟩ := hst i _ _ hi hmem
  obtain ⟨reason, hreason⟩ := hreason _ _ _ rfl
  obtain ⟨op, hop, hpre⟩ := (hs.meets _ _ hi).allows
  obtain ⟨-, -, hstaged, event, eventId, hev, hkey, hwrites, -⟩ := hpre
  have hmem : Exec.transition rideId .cancelled options ∈ event.writes := by
    rw [← hwrites, ← hstaged]
    exact hmem
  have hall : tx.staged = [.transition rideId .cancelled options] :=
    hwrites.trans (RideEvent.writes_cancelled hmem).1
  rcases exec_db hx with ⟨err, hdb, -, -⟩ | ⟨v, db, hdb, -, rfl⟩
  · -- the key is free, the reason can be stored and the ride is there
    obtain ⟨envelope, hcall, -, hid⟩ := hs.event hi hop hev
    have hfree := ho.free hi hcall hopen
    rw [hid, ← hkey] at hfree
    exfalso
    rcases bind_eq_error.mp (map_eq_error.mp hdb) with herr | ⟨db₁, hdb₁, herr⟩
    · unfold TripDb.createProcessedEvent at herr
      rw [hfree] at herr
      cases herr
    · have hrow₁ : db₁.findRide rideId = some row :=
        (TripDb.findRide_createProcessedEvent hdb₁ rideId).trans hrow
      rw [hall] at herr
      rcases bind_eq_error.mp herr with herr | ⟨p, -, herr⟩
      · rcases bind_eq_error.mp herr with herr | ⟨reason', -, herr⟩
        · cases hreason.symm.trans herr
        · rcases bind_eq_error.mp herr with herr | ⟨p, -, herr⟩
          · unfold TripDb.updateRide at herr
            rw [hrow₁] at herr
            cases herr
          · cases herr
      · cases herr
  · obtain ⟨db₂, hcommit, heq⟩ := map_eq_ok.mp hdb
    cases heq
    obtain ⟨db₁, -, happ⟩ := Tx.commit_ok.mp hcommit
    rw [hall] at happ
    obtain ⟨row₁, row', -, hstatus, -, hfind⟩ := apply_transition happ
    exact ⟨row', (hfind rideId).trans (if_pos rfl), hstatus⟩

/-! ## One sync at a time -/

/-- While a cancellation has its sync to send, no other operation on the ride has. -/
def Sole (s : BackendPool) : Prop :=
  ∀ i j th th' op rideId p, s.threads i = some th → th.call.op = some op → op.cancels = true →
    op.ride = some rideId → (progressOf th.log).due = some p → s.threads j = some th' → j ≠ i →
    th'.call.ride = some rideId → (progressOf th'.log).due = none

theorem initial_sole (drivers : String → Option DriverStatus) : Sole (initial drivers) :=
  fun _ _ _ _ _ _ _ => nofun

/-- A sync is incurred on a ride that nobody else owes a sync for. -/
theorem Undisturbed.incurred (hu : Undisturbed s a) (hs : Sound s) (howed : Owed s) {i j : Nat}
    {found : List NearbyDriver} {call : Call} {op op' : Op} {c : DbCmd}
    {k : Reply (.db c) → Prog Cmd Reply Empty Unit} {log : BackendLog} {g' : Progress}
    {db' : TripDb} {status : DriverStatus} {tgt : RideStatus} {row row' : RideRow}
    {th : BackendThread} {p : String × DriverStatus} (ha : a = .run i found)
    (hi : s.threads i = some ⟨call, .call (.db c) k, log⟩)
    (h : Incurred op (progressOf log) g' c.writes s.world.trip db' driverId status rideId tgt row
      row')
    (hj : s.threads j = some th) (hne : j ≠ i) (hop : th.call.op = some op')
    (hride : op'.ride = some rideId) (hdue : (progressOf th.log).due = some p) :
    op.cancels = false ∧ op'.cancels = false := by
  obtain ⟨options, hmem⟩ := h.write
  have hlawful := hu.lawful i found call c k log rideId tgt options row ha hi hmem h.found
  have hride' : th.call.ride = some rideId := by
    rw [Call.ride, hop]
    exact hride
  have hlive := hs.live_of_due hj hop hdue
  have hstaged := hu.locked i found call c k log _ _ _ ha hi hmem j th hj hne hlive hride'
  obtain ⟨rideId', row₀, hd⟩ := howed j th op' p.1 p.2 hj hop hdue
  cases hride.symm.trans hd.ride
  cases h.found.symm.trans hd.found
  have hdone : (progressOf th.log).done = true := by
    cases hopen : (progressOf th.log).done with
    | true => rfl
    | false =>
        obtain ⟨options', hmem'⟩ := hd.staged hopen
        rw [hstaged] at hmem'
        cases hmem'
  refine ⟨Bool.eq_false_iff.mpr fun hcancels => ?_, Bool.eq_false_iff.mpr fun hcancels => ?_⟩
  · have hsync := hd.committed hdone
    rw [h.cancels hcancels] at hlawful
    revert hlawful hsync
    cases row.status <;> decide
  · rw [(hd.cancels hcancels).2 hdone] at hlawful
    cases hlawful

theorem Sole.step (hsole : Sole s) (hs : Sound s) (howed : Owed s) (hu : Undisturbed s a)
    (h : (machine cfg haversineKm).Step s a t) : Sole t := by
  intro i j th th' op rideId p hi hop hcancels hride hdue hj hne hride'
  cases h with
  | spawn hm hp =>
      rcases update_eq_some hi with ⟨-, rfl⟩ | ⟨-, hi⟩
      · cases hdue
      · rcases update_eq_some hj with ⟨-, rfl⟩ | ⟨-, hj⟩
        · rfl
        · exact hsole i j th th' op rideId p hi hop hcancels hride hdue hj hne hride'
  | env hw => exact hsole i j th th' op rideId p hi hop hcancels hride hdue hj hne hride'
  | @run m found call c k log r w hm hr =>
      have hx := Option.some.inj hr
      have hpre := (hs.meets _ _ hm).allows
      obtain ⟨op', hop', hride''⟩ := Option.bind_eq_some_iff.mp hride'
      cases hnone : (progressOf th'.log).due with
      | none => rfl
      | some p' =>
          exfalso
          rcases update_eq_some hi with ⟨rfl, rfl⟩ | ⟨him, hi₀⟩
          · -- the cancellation makes the step
            rcases update_eq_some hj with ⟨rfl, -⟩ | ⟨-, hj₀⟩
            · exact hne rfl
            · rcases due_cons hop hx hpre hdue with
                ⟨hold, -⟩ | ⟨c', rideId', tgt, row, row', rfl, hincurred⟩
              · have hfree := hsole i j _ th' op rideId p hm hop hcancels hride hold hj₀ hne hride'
                cases hfree.symm.trans hnone
              · cases hride.symm.trans hincurred.ride
                obtain ⟨hnot, -⟩ :=
                  hu.incurred hs howed rfl hm hincurred hj₀ hne hop' hride'' hnone
                cases hnot.symm.trans hcancels
          · rcases update_eq_some hj with ⟨rfl, rfl⟩ | ⟨-, hj₀⟩
            · rcases due_cons hop' hx hpre hnone with
                ⟨hold, -⟩ | ⟨c', rideId', tgt, row, row', rfl, hincurred⟩
              · have hfree := hsole i j th _ op rideId p hi₀ hop hcancels hride hdue hm hne hride'
                cases hfree.symm.trans hold
              · cases hride''.symm.trans hincurred.ride
                obtain ⟨-, hnot⟩ :=
                  hu.incurred hs howed rfl hm hincurred hi₀ him hop hride hdue
                cases hnot.symm.trans hcancels
            · have hfree := hsole i j th th' op rideId p hi₀ hop hcancels hride hdue hj₀ hne hride'
              cases hfree.symm.trans hnone

/-! ## Drivers of rides that can be cancelled -/

/-- A driver whom a cancellation may still release is RESERVED. -/
def Kept (s : BackendPool) : Prop :=
  ∀ driverId rideId, BoundTo s driverId rideId → s.world.drivers driverId = some .reserved

theorem initial_kept (drivers : String → Option DriverStatus) : Kept (initial drivers) := by
  intro driverId rideId hb
  cases hb with
  | assigned hrow => cases hrow
  | releasing hi => cases hi

theorem assigned_of_cancellable {src : RideStatus}
    (h : canTransitionRideStatus src .cancelled = true)
    (hne : src ≠ .matching) : src.Assigned := by
  revert h hne
  cases src <;> decide

theorem assigned_of_transition {src tgt : RideStatus} (htgt : tgt.Assigned) (hne : tgt ≠ .matched)
    (h : canTransitionRideStatus src tgt = true ∨ src = tgt) : src.Assigned := by
  revert htgt hne h
  cases src <;> cases tgt <;> decide

section Run

variable {i : Nat} {found : List NearbyDriver} {call : Call} {c : Cmd}
  {k : Reply c → Prog Cmd Reply Empty Unit} {log : BackendLog} {r : Reply c} {w : World}

/-- Nobody can have released a ride early who has no write of it staged. -/
theorem unreleased_of_unstaged (hi : s.threads i = some ⟨call, .call c k, log⟩)
    (hothers : ∀ j th, s.threads j = some th → j ≠ i → th.Live → th.call.ride = some rideId →
      (progressOf th.log).staged = [])
    (hnil : (progressOf log).staged = []) : Unreleased s rideId := by
  intro j th hj hlive hride hrel
  obtain ⟨-, -, options, hmem⟩ := hrel
  by_cases hji : j = i
  · subst hji
    rw [hi] at hj
    cases hj
    rw [hnil] at hmem
    cases hmem
  · rw [hothers j th hj hji hlive hride] at hmem
    cases hmem

/-- A sync of a cancellation is due for a ride that could be cancelled. -/
theorem BoundTo.incurred {c : Cmd} {k : Reply c → Prog Cmd Reply Empty Unit} {r : Reply c}
    {op : Op} {status : DriverStatus} (hs : Sound s) (hw : Waiting s.world)
    (hu : Undisturbed s (.run i found)) (hi : s.threads i = some ⟨call, .call c k, log⟩)
    (hx : s.world.exec found c = (r, w)) (hop : call.op = some op)
    (hride : op.ride = some rideId) (hcancels : op.cancels = true)
    (hdue : (progressOf (⟨c, r⟩ :: log)).due = some (driverId, status)) :
    BoundTo s driverId rideId := by
  rcases due_cons hop hx (hs.meets _ _ hi).allows hdue with
    ⟨hold, -⟩ | ⟨c', rideId', tgt, row, row', rfl, hincurred⟩
  · exact .releasing hi hop hride hcancels hold
  · cases hride.symm.trans hincurred.ride
    obtain ⟨options, hmem⟩ := hincurred.write
    have hlawful := hu.lawful i found call c' k log _ _ _ row rfl hi hmem hincurred.found
    rw [hincurred.cancels hcancels] at hlawful
    have hne : row.status ≠ .matching := by
      intro hmatching
      have hnone := hw rideId row hincurred.found (.inr hmatching)
      cases hnone.symm.trans hincurred.driver
    exact .assigned hincurred.found hincurred.driver (assigned_of_cancellable hlawful hne)
      (unreleased_of_unstaged hi (hu.locked i found call c' k log _ _ _ rfl hi hmem)
        hincurred.unstaged)

/-- A row that the step has left alone is not released by it. -/
theorem unreleased_before {row : RideRow} (hs : Sound s) (ho : Once s) (hst : Storable s)
    (hi : s.threads i = some ⟨call, .call c k, log⟩) (hx : s.world.exec found c = (r, w))
    (hs' : Sound (after s i call k log r w)) (hst' : Storable (after s i call k log r w))
    (hrow : s.world.trip.findRide rideId = some row) (hsame : w.trip.findRide rideId = some row)
    (hassigned : row.status.Assigned) (hun : Unreleased (after s i call k log r w) rideId) :
    Unreleased s rideId := by
  intro j th hj hlive hride hrel
  by_cases hji : j = i
  · subst hji
    rw [hi] at hj
    cases hj
    rcases released_kept (hs.meets _ _ hi).allows hx hrel with hrel' | ⟨tx, rfl⟩
    · have hself : (after s j call k log r w).threads j = some ⟨call, k r, ⟨c, r⟩ :: log⟩ :=
        Function.update_self ..
      exact hun j _ hself (hst'.live_of_released hs' hself hrel') hride hrel'
    · obtain ⟨row', hrow', hcancelled⟩ := hst.commit_released hs ho hi hx hrel hrow
      cases hsame.symm.trans hrow'
      rw [hcancelled] at hassigned
      exact hassigned
  · exact hun j th ((Function.update_of_ne hji _ _).trans hj) hlive hride hrel

/-- A ride that holds its driver held him before, or has just been matched. -/
theorem BoundTo.before (hs : Sound s) (ho : Once s) (hw : Waiting s.world) (hst : Storable s)
    (hu : Undisturbed s (.run i found)) (hi : s.threads i = some ⟨call, .call c k, log⟩)
    (hx : s.world.exec found c = (r, w)) (hs' : Sound (after s i call k log r w))
    (hst' : Storable (after s i call k log r w))
    (hb : BoundTo (after s i call k log r w) driverId rideId) :
    BoundTo s driverId rideId ∨
      s.world.drivers driverId = some .reserved ∧ w.drivers = s.world.drivers := by
  cases hb with
  | @releasing j th op status hj hop hride hcancels hdue =>
      left
      rcases update_eq_some hj with ⟨rfl, rfl⟩ | ⟨-, hj⟩
      · exact .incurred hs hw hu hi hx hop hride hcancels hdue
      · exact .releasing hj hop hride hcancels hdue
  | @assigned row' hrow' hdriver hassigned hun =>
      cases hrow : s.world.trip.findRide rideId with
      | none =>
          rcases exec_findRide hx (hs.meets _ _ hi).allows rideId with
            hsame | ⟨-, -, op, row₁, hop, hrow₁, hwritten⟩
          · cases hrow.symm.trans (hsame.symm.trans hrow')
          · cases hrow'.symm.trans hrow₁
            cases hwritten with
            | inserted hnone hdr => cases hdr.symm.trans hdriver
            | matched hev hrow₀ => cases hrow.symm.trans hrow₀
            | moved hride hrow₀ => cases hrow.symm.trans hrow₀
      | some row =>
          rcases hu.turns.row_cases hs hi hx hrow with
            hsame | ⟨op, row₁, hop, hride, hrow₁, -, hmoved, ⟨es, hcommit⟩, hothers⟩
          · left
            cases hrow'.symm.trans hsame
            exact .assigned hrow hdriver hassigned
              (unreleased_before hs ho hst hi hx hs' hst' hrow hsame hassigned hun)
          · cases hrow'.symm.trans hrow₁
            cases hmoved with
            | @matched driverId' eventId hev hmatching hmatched hdr =>
                right
                obtain ⟨hstored, -⟩ := hs.stores hi hop hev
                rw [hdriver, hstored] at hdr
                cases hdr
                refine ⟨hu.matched i es _ op _ _ _ hcommit hi hop hev, ?_⟩
                obtain ⟨found', call', c', k', log', key, heq, hi', -⟩ := hcommit
                rw [hi] at hi'
                cases hi'
                exact exec_drivers hx fun _ _ => nofun
            | settled hcan hne hdr hdue hnil =>
                left
                exact .assigned hrow (hdr.symm.trans hdriver)
                  (assigned_of_transition hassigned hne hcan)
                  (unreleased_of_unstaged hi hothers hnil)
            | released hcan hcancelled =>
                rw [hcancelled] at hassigned
                exact hassigned.elim

/-- A ride that holds its driver after a step has let nobody change his status. -/
theorem BoundTo.still (hs : Sound s) (howed : Owed s) (hsole : Sole s)
    (hu : Undisturbed s (.run i found)) (hi : s.threads i = some ⟨call, .call c k, log⟩)
    (hx : s.world.exec found c = (r, w)) (hs' : Sound (after s i call k log r w))
    (hst' : Storable (after s i call k log r w)) (hold : BoundTo s driverId rideId)
    (hb : BoundTo (after s i call k log r w) driverId rideId)
    (hres : s.world.drivers driverId = some .reserved) : w.drivers driverId = some .reserved := by
  rcases exec_status hx driverId with hsame | ⟨status, rfl, hstatus⟩
  · exact hsame.trans hres
  · by_cases hst : status = .reserved
    · rw [hstatus, hst]
    exfalso
    have hride := hu.exclusive i found call driverId status k log rideId rfl hi hst hold
    obtain ⟨op, hop, hride'⟩ := Option.bind_eq_some_iff.mp hride
    have hsends : call.Sends (track Track.next .start log) driverId status :=
      (hs.meets _ _ hi).allows
    have hdue := hsends.due hop
    have htrip := exec_trip hx fun _ => nofun
    cases hb with
    | @assigned row hrow hdriver hassigned hun =>
        obtain ⟨rideId', row₀, hd⟩ := howed i _ op _ _ hi hop hdue
        cases hride'.symm.trans hd.ride
        cases hrow.symm.trans ((congrArg (·.findRide rideId) htrip).trans hd.found)
        cases hopen : (progressOf log).done with
        | true =>
            have hsync := hd.committed hopen
            revert hsync hassigned
            cases row.status <;> decide
        | false =>
            -- the sync of a cancellation that is to be committed
            have hself : (after s i call k log r w).threads i = some ⟨call, k r, _ :: log⟩ :=
              Function.update_self ..
            have hrel :
                (progressOf (⟨.drivers (.update driverId status), r⟩ :: log)).Released rideId :=
              ⟨rfl, hopen, hd.staged hopen⟩
            exact hun i _ hself (hst'.live_of_released hs' hself hrel) hride hrel
    | @releasing j th op' status' hj hop' hride'' hcancels hdue' =>
        rcases update_eq_some hj with ⟨rfl, rfl⟩ | ⟨hji, hj⟩
        · cases hdue'
        · have hnone := hsole j i th _ op' rideId _ hj hop' hcancels hride'' hdue' hi hji.symm hride
          cases hnone.symm.trans hdue

end Run

theorem Kept.step (hk : Kept s) (hs : Sound s) (ho : Once s) (hw : Waiting s.world)
    (howed : Owed s) (hst : Storable s) (hsole : Sole s) (hu : Undisturbed s a)
    (h : (machine cfg haversineKm).Step s a t) : Kept t := by
  intro driverId rideId hb
  have hs' := hs.step h
  have hst' := hst.step hs h
  cases h with
  | @spawn i call p w hi hp =>
      obtain ⟨w, hw, heq⟩ := Option.map_eq_some_iff.mp hp
      cases heq
      obtain ⟨-, htrip, hdrivers, -⟩ := start_frame hw
      refine (congrFun hdrivers _).trans (hk driverId rideId ?_)
      cases hb with
      | assigned hrow hdriver hassigned hun =>
          refine .assigned ((congrArg (·.findRide rideId) htrip).symm.trans hrow) hdriver hassigned
            fun j th hj => hun j th ((Function.update_of_ne ?_ _ _).trans hj)
          rintro rfl
          cases hi.symm.trans hj
      | releasing hj hop hride hcancels hdue =>
          rcases update_eq_some hj with ⟨-, rfl⟩ | ⟨-, hj⟩
          · cases hdue
          · exact .releasing hj hop hride hcancels hdue
  | @env e w he =>
      obtain ⟨-, hdrivers, -, ⟨now, htrip⟩, -⟩ := env_frame he
      refine (congrFun hdrivers _).trans (hk driverId rideId ?_)
      cases hb with
      | assigned hrow hdriver hassigned hun =>
          have hfind := (congrArg (·.findRide rideId) htrip).symm.trans hrow
          exact .assigned hfind hdriver hassigned hun
      | releasing hj hop hride hcancels hdue => exact .releasing hj hop hride hcancels hdue
  | @run i found call c k log r w hi hr =>
      have hx := Option.some.inj hr
      rcases hb.before hs ho hw hst hu hi hx hs' hst' with hold | ⟨hres, hdrivers⟩
      · exact hold.still hs howed hsole hu hi hx hs' hst' hb (hk driverId rideId hold)
      · rw [← hres]
        exact congrFun hdrivers driverId

/-! ## Runs -/

/-- What holds in every run in which rides and drivers are left undisturbed. -/
structure Calm (s : BackendPool) : Prop where
  sound : Sound s
  once : Once s
  waiting : Waiting s.world
  owed : Owed s
  storable : Storable s
  sole : Sole s
  kept : Kept s

theorem initial_calm (drivers : String → Option DriverStatus) : Calm (initial drivers) :=
  ⟨initial_sound drivers, initial_once drivers, initial_waiting drivers, initial_owed drivers,
    initial_storable drivers, initial_sole drivers, initial_kept drivers⟩

theorem Calm.step (hc : Calm s) (hu : Undisturbed s a) (h : (machine cfg haversineKm).Step s a t) :
    Calm t where
  sound := hc.sound.step h
  once := hc.once.step hc.sound h
  waiting := hc.waiting.step hc.sound hu.turns h
  owed := hc.owed.step hc.sound hc.waiting hu.turns h
  storable := hc.storable.step hc.sound h
  sole := hc.sole.step hc.sound hc.owed hu h
  kept := hc.kept.step hc.sound hc.once hc.waiting hc.owed hc.storable hc.sole hu h

theorem Calm.cancelSafe (hc : Calm s) : CancelSafe s := by
  intro i call c k log op hi hop hcancels
  have hpre := (hc.sound.meets _ _ hi).allows
  have hdue {driverId : String} {status : DriverStatus}
      (hsends : call.Sends (track Track.next .start log) driverId status) :
      s.world.drivers driverId = some .reserved := by
    have hdue := hsends.due hop
    obtain ⟨rideId, row, hd⟩ := hc.owed i _ op _ _ hi hop hdue
    exact hc.kept driverId rideId (.releasing hi hop hd.ride hcancels hdue)
  cases c with
  | findUnique driverId =>
      obtain ⟨status, hsends⟩ := hpre
      exact hdue hsends
  | update driverId status => exact hdue hpre

/-- In every run whose steps leave rides and their drivers undisturbed, `cancel`
only ever releases a RESERVED driver. -/
theorem cancelSafe_of_undisturbed {drivers : String → Option DriverStatus}
    {acts : List BackendAction}
    (hrun : (machine cfg haversineKm).run (initial drivers) acts = some s)
    (hu : (machine cfg haversineKm).Along (fun s a _ => Undisturbed s a) (initial drivers) acts) :
    CancelSafe s := by
  have hc : Calm s := Machine.run_invariant (initial_calm drivers)
    (fun _ _ _ hc hP hstep => hc.step hP hstep) hrun hu
  exact hc.cancelSafe

end Steps

/-! ## Two runs -/

/-- The step leaves rides and drivers undisturbed, if no other thread is under way. -/
def undisturbed (n : Nat) (s : BackendPool) : BackendAction → Bool
  | .run i _ =>
      onlyThread n s i && (s.threads i).all fun th =>
        match nextCmd th.prog with
        | some (.drivers (.update _ status)) => status == .reserved
        | some (.db c) =>
            lawfulWrites s.world c.writes && (th.call.op.bind Op.event).all fun (event, _) =>
              match event with
              | .reserved _ driverId => decide (s.world.drivers driverId = some .reserved)
              | _ => true
        | _ => true
  | _ => true

theorem undisturbed_of_check {s : BackendPool} {a : BackendAction} {n : Nat}
    (hfew : ∀ j th, s.threads j = some th → j < n) (h : undisturbed n s a = true) :
    Undisturbed s a where
  lawful := by
    rintro i found call c k log rideId tgt options row rfl hi hmem hrow
    obtain ⟨-, hcheck⟩ := Bool.and_eq_true_iff.mp h
    rw [hi] at hcheck
    exact lawful_of_check (Bool.and_eq_true_iff.mp hcheck).1 hmem hrow
  locked := by
    rintro i found call c k log rideId tgt options rfl hi hmem j th hj hne hlive
    obtain ⟨honly, -⟩ := Bool.and_eq_true_iff.mp h
    exact absurd hlive (not_live_of_onlyThread hfew honly hj hne)
  matched := by
    rintro i es th op rideId driverId eventId ⟨found, call, c, k, log, key, rfl, hi, -⟩ hth hop hev
    obtain ⟨-, hcheck⟩ := Bool.and_eq_true_iff.mp h
    rw [hi] at hth
    cases hth
    rw [hi] at hcheck
    have hevent := (Bool.and_eq_true_iff.mp hcheck).2
    change Option.all _ (call.op.bind Op.event) = true at hevent
    rw [show call.op = some op from hop, Option.bind_some, hev] at hevent
    exact of_decide_eq_true hevent
  exclusive := by
    rintro i found call driverId status k log rideId rfl hi hne
    obtain ⟨-, hcheck⟩ := Bool.and_eq_true_iff.mp h
    rw [hi] at hcheck
    exact absurd (beq_iff_eq.mp hcheck) hne

/-- The rider cancels the ride `r` after the match. -/
def cancelR : List BackendAction := matchR ++ alone 3 (.http (.cancel "r" .undefined)) 2

theorem cancelSafe_cancelR : ∃ s, (machine .defaults fun _ _ => some 0).run (initial onlyDriver)
      cancelR = some s ∧
    ((s.threads 3).bind fun th => nextCmd th.prog) = some (.drivers (.findUnique "d")) ∧
    CancelSafe s := by
  have hcheck : ((machine .defaults fun _ _ => some 0).run (initial onlyDriver) cancelR).any
      (fun s => ((s.threads 3).bind fun th => nextCmd th.prog) ==
        some (.drivers (.findUnique "d"))) = true := rfl
  obtain ⟨s, hrun, hs⟩ := (Option.any_eq_true _ _).mp hcheck
  have hchecks : (machine .defaults fun _ _ => some 0).Along (fun s a _ => undisturbed 4 s a = true)
      (initial onlyDriver) cancelR := Machine.along_of_checks (fun _ _ _ h => h) rfl
  have hspawn (i : Nat) (call : Call) (h : .spawn i call ∈ cancelR) : i < 4 := by
    rcases List.mem_append.mp h with h | h
    · exact Nat.lt_succ_of_lt (spawn_mem_matchR h)
    · rw [spawn_mem_alone h]
      decide
  have hfew := Machine.along_calls (m := machine .defaults fun _ _ => some 0)
    (P := fun i _ => i < 4) (s := initial onlyDriver) (fun _ _ h => by cases h) hspawn
  have hu := (hchecks.and hfew).mono (Q := fun s a _ => Undisturbed s a)
    fun s a _ h => undisturbed_of_check h.2 h.1
  exact ⟨s, hrun, beq_iff_eq.mp hs, cancelSafe_of_undisturbed hrun hu⟩

/-- `d` has gone OFFLINE, and his position is still on the map. -/
def offlineDriver : String → Option DriverStatus :=
  Function.update (fun _ => none) "d" (some .offline)

/-- Dispatch wins `d`, driver-service refuses RESERVED, and the rider cancels. -/
def cancelOffline : List BackendAction :=
  [.env (.updateLocation "d"), .env (.requestRide (rideInput "r") "c")] ++
    alone 0 (.tripEvent (requestedEvent 0 "r")) 4 ++
    alone 1 (.dispatchEvent (requestedEvent 0 "r")) 12 ++
    alone 2 (.tripEvent (reservedEvent 1 "r" "d")) 4 ++
    alone 3 (.http (.cancel "r" .undefined)) 2

theorem not_cancelSafe_cancelOffline : ∃ s, (machine .defaults fun _ _ => some 0).run
      (initial offlineDriver) cancelOffline = some s ∧ ¬ CancelSafe s := by
  have hcheck : ((machine .defaults fun _ _ => some 0).run (initial offlineDriver)
      cancelOffline).any (fun s => decide (s.world.drivers "d" = some .offline) &&
        (s.threads 3).any fun th => decide (th.call = .http (.cancel "r" .undefined)) &&
          decide (nextCmd th.prog = some (.drivers (.findUnique "d")))) = true := rfl
  obtain ⟨s, hrun, hs⟩ := (Option.any_eq_true _ _).mp hcheck
  obtain ⟨hoffline, hthread⟩ := Bool.and_eq_true_iff.mp hs
  obtain ⟨⟨call, p, log⟩, hi, hth⟩ := (Option.any_eq_true _ _).mp hthread
  obtain ⟨hcall, hnext⟩ := Bool.and_eq_true_iff.mp hth
  obtain rfl := of_decide_eq_true hcall
  obtain ⟨k, rfl⟩ := prog_of_nextCmd (of_decide_eq_true hnext)
  refine ⟨s, hrun, fun h => ?_⟩
  have hreserved := h 3 _ _ k log _ hi rfl rfl
  cases (of_decide_eq_true hoffline).symm.trans hreserved

end Backend

end RydTrip
