import RydTrip.Backend.Steps

/-!
# Operations on one ride take turns

Trip-service guards a transition on a row it has read before.  Operations take
turns on a ride when none of them writes it after it has changed, or while
another one has a transaction open on it.  The second is what the row locks of
the database make sure of.  Then a sync that is due is for the driver of the
ride.  An event is handled once in any case.
-/

namespace RydTrip

namespace Backend

open Process TripService

/-! ## Events are handled once -/

/-- The existing ride that a call changes. -/
def Call.ride (call : Call) : Option String := call.op.bind Op.ride

structure Once (s : BackendPool) : Prop where
  /-- An event has one thread. -/
  thread : ∀ i j th th' e e', s.threads i = some th → s.threads j = some th' →
    th.call = .tripEvent e → th'.call = .tripEvent e' → e.eventId = e'.eventId → i = j
  /-- Its key is taken by the commit of this thread. -/
  taken : ∀ n, s.world.trip.processed ⟨n, consumerName⟩ = true → ∃ i th e,
    s.threads i = some th ∧ th.call = .tripEvent e ∧ e.eventId = n ∧ (progressOf th.log).done = true

theorem initial_once (drivers : String → Option DriverStatus) : Once (initial drivers) :=
  ⟨fun _ _ _ _ _ _ => nofun, fun _ => nofun⟩

section Steps

variable {cfg : Dispatch.Config} {haversineKm : GeoPoint → GeoPoint → Option Rat}
  {s t : BackendPool} {a : BackendAction}

/-- Done is for good. -/
theorem done_mono {c : Cmd} {r : Reply c} {log : BackendLog} (h : (progressOf log).done = true) :
    (progressOf (⟨c, r⟩ :: log)).done = true := by
  cases hdone : (progressOf (⟨c, r⟩ :: log)).done with
  | true => rfl
  | false =>
      rw [done_cons hdone] at h
      cases h

/-- A key that is taken in a step is taken by the handler of its event. -/
theorem exec_processed {w w' : World} {found : List NearbyDriver} {c : Cmd} {r : Reply c}
    {call : Call} {log : BackendLog} (h : w.exec found c = (r, w'))
    (hpre : call.Allows c (track Track.next .start log)) {key : ProcessedEventRow}
    (hkey : w'.trip.processed key = true) : w.trip.processed key = true ∨
      (progressOf (⟨c, r⟩ :: log)).done = true ∧ ∃ op event eventId, call.op = some op ∧
        op.event = some (event, eventId) ∧ key = ⟨eventId, consumerName⟩ := by
  cases c with
  | db c =>
      obtain ⟨op, hop, hpre⟩ := hpre
      rcases exec_db h with ⟨err, hx, rfl, rfl⟩ | ⟨v, db, hx, rfl, rfl⟩
      · exact .inl hkey
      · rcases processed_exec hpre hx hkey with hold | ⟨hdone, event, eventId, hev, heq⟩
        · exact .inl hold
        · exact .inr ⟨hdone, op, event, eventId, hop, hev, heq⟩
  | tripPark fields => exact .inl (exec_trip h (fun _ => nofun) ▸ hkey)
  | dispatch c => exact .inl (exec_trip h (fun _ => nofun) ▸ hkey)
  | drivers c => exact .inl (exec_trip h (fun _ => nofun) ▸ hkey)

theorem Once.step (hs : Sound s) (ho : Once s) (h : (machine cfg haversineKm).Step s a t) :
    Once t := by
  cases h with
  | @spawn i call p w hi hp =>
      obtain ⟨w, hw, heq⟩ := Option.map_eq_some_iff.mp hp
      cases heq
      obtain ⟨-, htrip, -⟩ := start_frame hw
      obtain ⟨-, hstart, -⟩ := start_of_some hw
      have hnew {j : Nat} {th : BackendThread} {e e' : EventEnvelope} (hj : s.threads j = some th)
          (hcall : th.call = .tripEvent e) (hcall' : call = .tripEvent e')
          (hid : e.eventId = e'.eventId) : False := by
        have hdel := (hs.handled j th e hj hcall).2
        rw [hid, (hstart e' hcall').2.1] at hdel
        cases hdel
      refine ⟨fun j j' th th' e e' hj hj' hcall hcall' hid => ?_, fun n hn => ?_⟩
      · rcases update_eq_some hj with ⟨rfl, rfl⟩ | ⟨-, hold⟩
        · rcases update_eq_some hj' with ⟨rfl, rfl⟩ | ⟨-, hold'⟩
          · rfl
          · exact (hnew hold' hcall' hcall hid.symm).elim
        · rcases update_eq_some hj' with ⟨rfl, rfl⟩ | ⟨-, hold'⟩
          · exact (hnew hold hcall hcall' hid).elim
          · exact ho.thread j j' th th' e e' hold hold' hcall hcall' hid
      · rw [htrip] at hn
        obtain ⟨j, th, e, hj, hrest⟩ := ho.taken n hn
        refine ⟨j, th, e, (Function.update_of_ne ?_ _ _).trans hj, hrest⟩
        rintro rfl
        rw [hi] at hj
        cases hj
  | env hw =>
      obtain ⟨-, -, -, ⟨now, htrip⟩, -⟩ := env_frame hw
      refine ⟨ho.thread, fun n hn => ho.taken n ?_⟩
      rw [htrip] at hn
      exact hn
  | @run i found call c k log r w hi hr =>
      have hx := Option.some.inj hr
      have hpre := (hs.meets _ _ hi).allows
      have hold {j : Nat} {th : BackendThread} (hj : Function.update s.threads i
          (some ⟨call, k r, ⟨c, r⟩ :: log⟩) j = some th) :
          ∃ th', s.threads j = some th' ∧ th'.call = th.call := by
        rcases update_eq_some hj with ⟨rfl, rfl⟩ | ⟨-, hj⟩
        · exact ⟨_, hi, rfl⟩
        · exact ⟨th, hj, rfl⟩
      refine ⟨fun j j' th th' e e' hj hj' hcall hcall' hid => ?_, fun n hn => ?_⟩
      · obtain ⟨th₀, hj₀, heq⟩ := hold hj
        obtain ⟨th₀', hj₀', heq'⟩ := hold hj'
        exact ho.thread j j' th₀ th₀' e e' hj₀ hj₀' (heq.trans hcall) (heq'.trans hcall') hid
      · rcases exec_processed hx hpre hn with hn | ⟨hdone, op, event, eventId, hop, hev, heq⟩
        · obtain ⟨j, th, e, hj, hcall, hid, hdone⟩ := ho.taken n hn
          by_cases hji : j = i
          · subst hji
            rw [hi] at hj
            cases hj
            exact ⟨j, _, e, Function.update_self .., hcall, hid, done_mono hdone⟩
          · exact ⟨j, th, e, (Function.update_of_ne hji _ _).trans hj, hcall, hid, hdone⟩
        · cases heq
          obtain ⟨e, hcall, -, hid⟩ := hs.event hi hop hev
          exact ⟨i, _, e, Function.update_self .., hcall, hid, hdone⟩

/-- While an event is being handled its key is free. -/
theorem Once.free (ho : Once s) {i : Nat} {th : BackendThread} {e : EventEnvelope}
    (hi : s.threads i = some th) (hcall : th.call = .tripEvent e)
    (hdone : (progressOf th.log).done = false) :
    s.world.trip.processed ⟨e.eventId, consumerName⟩ = false := by
  refine Bool.eq_false_iff.mpr fun hkey => ?_
  obtain ⟨j, th', e', hj, hcall', hid, hdone'⟩ := ho.taken _ hkey
  cases ho.thread i j th th' e e' hi hj hcall hcall' hid.symm
  rw [hi] at hj
  cases hj
  rw [hdone] at hdone'
  cases hdone'

/-! ## Taking turns -/

/-- The step is the commit of an operation's writes by a thread. -/
def CommitsBy (s : BackendPool) (a : BackendAction) (i : Nat) (es : List Exec) : Prop :=
  ∃ found call c k log key, a = .run i found ∧ s.threads i = some ⟨call, .call (.db c) k, log⟩ ∧
    (TripService.Cmd.db c).commits = some (key, es)

/-- Operations on a ride take turns. -/
structure TakeTurns (s : BackendPool) (a : BackendAction) : Prop where
  /-- A status is written when the ride may get it, or has it already. -/
  lawful : ∀ i es rideId tgt options row, CommitsBy s a i es →
    .transition rideId tgt options ∈ es → s.world.trip.findRide rideId = some row →
    canTransitionRideStatus row.status tgt = true ∨ (row.status = tgt ∧ tgt ≠ .matched)
  /-- It is not written while another operation has writes of the ride uncommitted. -/
  locked : ∀ i es rideId tgt options, CommitsBy s a i es → .transition rideId tgt options ∈ es →
    ∀ j th, s.threads j = some th → j ≠ i → th.Live → th.call.ride = some rideId →
      (progressOf th.log).staged = []

/-- A row is changed by a commit of the operation on the ride. -/
theorem exec_written {w w' : World} {found : List NearbyDriver} {c : Cmd} {r : Reply c}
    {call : Call} {log : BackendLog} (h : w.exec found c = (r, w'))
    (hpre : call.Allows c (track Track.next .start log)) {rideId : String} {row : RideRow}
    (hrow : w.trip.findRide rideId = some row) :
    w'.trip.findRide rideId = some row ∨
      ∃ c' key es row' options op, c = .db c' ∧
        (TripService.Cmd.db c').commits = some (key, es) ∧
        .transition rideId row'.status options ∈ es ∧ call.op = some op ∧
        op.ride = some rideId ∧ w'.trip.findRide rideId = some row' ∧
        (progressOf (⟨c, r⟩ :: log)).done = true ∧
        RowWritten op (progressOf log) (progressOf (⟨c, r⟩ :: log)) w.trip rideId row' := by
  rcases exec_findRide h hpre rideId with hsame | ⟨-, hdone, op, row', hop, hrow', hw⟩
  · exact .inl (hsame.trans hrow)
  have hride := hw.ride hrow
  cases c with
  | tripPark fields => exact .inl (by rw [exec_trip h fun _ => nofun, hrow])
  | dispatch c => exact .inl (by rw [exec_trip h fun _ => nofun, hrow])
  | drivers c => exact .inl (by rw [exec_trip h fun _ => nofun, hrow])
  | db c =>
      rcases exec_db h with ⟨err, -, -, rfl⟩ | ⟨v, db, hx, -, rfl⟩
      · exact .inl hrow
      · cases hc : (TripService.Cmd.db c).commits with
        | none =>
            left
            rw [← hrow]
            exact congrArg (·.findRide rideId) (TripDb.exec_of_not_commits hc hx)
        | some p =>
            obtain ⟨key, es⟩ := p
            rcases findRide_commits hc hx hrow with hsame | ⟨row₁, options, hrow₁, hmem⟩
            · exact .inl hsame
            · obtain rfl : row₁ = row' := Option.some.inj (hrow₁.symm.trans hrow')
              exact .inr
                ⟨c, key, es, row₁, options, op, rfl, hc, hmem, hop, hride, hrow₁, hdone, hw⟩

/-! ## Rows -/

/-- What an operation that has its turn makes of the row of a ride. -/
inductive Moved (op : Op) (g g' : Progress) (rideId : String) (row row' : RideRow) : Prop where
  | matched {driverId : String} {eventId : Nat} :
      op.event = some (.reserved rideId driverId, eventId) →
      row.status = .matching →
      row'.status = .matched →
      row'.driverId = (truthy (some driverId)).or row.driverId →
      Moved op g g' rideId row row'
  | settled :
      (canTransitionRideStatus row.status row'.status = true ∨ row.status = row'.status) →
      row'.status ≠ .matched →
      row'.driverId = row.driverId →
      g'.due = syncOf row'.status row' →
      g.staged = [] →
      Moved op g g' rideId row row'
  /-- The commit of a cancellation whose sync has been sent. -/
  | released :
      row.status.Cancellable ∨ row.status = .cancelled →
      row'.status = .cancelled →
      row'.driverId = row.driverId →
      g.Released rideId →
      Moved op g g' rideId row row'

/-- While operations take turns a row stays, or the operation on the ride moves
it on, when no other one has writes uncommitted. -/
theorem TakeTurns.row_cases {i : Nat} {found : List NearbyDriver} {call : Call} {c : Cmd}
    {k : Reply c → Prog Cmd Reply Empty Unit} {log : BackendLog} {r : Reply c} {w : World}
    {rideId : String} {row : RideRow} (hturn : TakeTurns s (.run i found)) (hs : Sound s)
    (hi : s.threads i = some ⟨call, .call c k, log⟩) (hx : s.world.exec found c = (r, w))
    (hrow : s.world.trip.findRide rideId = some row) :
    w.trip.findRide rideId = some row ∨
      ∃ op row', call.op = some op ∧ call.ride = some rideId ∧
        w.trip.findRide rideId = some row' ∧ (progressOf (⟨c, r⟩ :: log)).done = true ∧
        Moved op (progressOf log) (progressOf (⟨c, r⟩ :: log)) rideId row row' ∧
        (∃ es, CommitsBy s (.run i found) i es) ∧
        ∀ j th, s.threads j = some th → j ≠ i → th.Live → th.call.ride = some rideId →
          (progressOf th.log).staged = [] := by
  rcases exec_written hx (hs.meets _ _ hi).allows hrow with
    hsame | ⟨c', key, es, row', options, op, rfl, hc, hmem, hop, hride, hrow', hdone, hw⟩
  · exact .inl hsame
  · have hcommit : CommitsBy s (.run i found) i es := ⟨_, _, _, _, _, _, rfl, hi, hc⟩
    have hlawful := hturn.lawful i es _ _ _ row hcommit hmem hrow
    refine .inr ⟨op, row', hop, ?_, hrow', hdone, ?_, ⟨es, hcommit⟩,
      hturn.locked i es _ _ _ hcommit hmem⟩
    · rw [Call.ride, hop]
      exact hride
    cases hw with
    | inserted hnone hdr hst =>
        rw [hnone] at hrow
        cases hrow
    | matched hev hrow₀ hseen hmatching hdr hst =>
        cases hrow.symm.trans hrow₀
        rw [hst] at hlawful
        rcases hlawful with hcan | ⟨-, hne⟩
        · exact .matched hev (matching_of_transition hcan) hst hdr
        · exact absurd rfl hne
    | moved hride' hrow₀ hseen hcan hdr hne hdue =>
        cases hrow.symm.trans hrow₀
        rcases hdue with ⟨hdue, hstaged⟩ | ⟨hreleased, hst⟩
        · exact .settled (hlawful.imp_right And.left) hne hdr hdue hstaged
        · rw [hst] at hlawful
          exact .released (hlawful.imp_right And.left) hst hdr hreleased

/-- A ride that no driver has accepted yet has none. -/
def Waiting (w : World) : Prop :=
  ∀ rideId row, w.trip.findRide rideId = some row →
    (row.status = .requested ∨ row.status = .matching) → row.driverId = none

/-- Only a ride that was waiting is moved to a status of waiting. -/
theorem waiting_of_transition {src tgt : RideStatus}
    (h : canTransitionRideStatus src tgt = true ∨ src = tgt)
    (htgt : tgt = .requested ∨ tgt = .matching) : src = .requested ∨ src = .matching := by
  revert h htgt
  cases src <;> cases tgt <;> decide

theorem initial_waiting (drivers : String → Option DriverStatus) :
    Waiting (initial drivers).world :=
  fun _ _ => nofun

theorem Waiting.step (hw : Waiting s.world) (hs : Sound s) (hturn : TakeTurns s a)
    (h : (machine cfg haversineKm).Step s a t) : Waiting t.world := by
  intro rideId row' hrow' hst
  cases h with
  | spawn hi hp =>
      obtain ⟨w, hw', heq⟩ := Option.map_eq_some_iff.mp hp
      cases heq
      rw [(start_frame hw').2.1] at hrow'
      exact hw rideId row' hrow' hst
  | env he =>
      obtain ⟨-, -, -, ⟨now, htrip⟩, -⟩ := env_frame he
      rw [htrip] at hrow'
      exact hw rideId row' hrow' hst
  | run hi hr =>
      have hx := Option.some.inj hr
      cases hrow : s.world.trip.findRide rideId with
      | none =>
          -- the ride is new
          rcases exec_findRide hx (hs.meets _ _ hi).allows rideId with
            hsame | ⟨-, -, op, row₁, hop, hrow₁, hwritten⟩
          · cases hrow.symm.trans (hsame.symm.trans hrow')
          · cases hrow'.symm.trans hrow₁
            cases hwritten with
            | inserted hnone hdr hst' => exact hdr
            | matched hev hrow₀ => cases hrow.symm.trans hrow₀
            | moved hride hrow₀ => cases hrow.symm.trans hrow₀
      | some row =>
          rcases hturn.row_cases hs hi hx hrow with
            hsame | ⟨op, row₁, hop, hride, hrow₁, -, hmoved, -⟩
          · cases hrow'.symm.trans hsame
            exact hw rideId row' hrow hst
          · cases hrow'.symm.trans hrow₁
            cases hmoved with
            | matched hev hmatching hmatched hdr =>
                rw [hmatched] at hst
                rcases hst with hst | hst <;> cases hst
            | settled hcan hne hdr hdue hstaged =>
                rw [hdr]
                exact hw rideId row hrow (waiting_of_transition hcan hst)
            | released hcan hcancelled hdr hreleased =>
                rw [hcancelled] at hst
                rcases hst with hst | hst <;> cases hst

/-- A ride that is under way or over stays so, and a cancelled one stays as it is. -/
theorem final_of_transition {src tgt : RideStatus}
    (h : canTransitionRideStatus src tgt = true ∨ src = tgt) :
    ((syncStatus src).isSome = true → (syncStatus tgt).isSome = true) ∧
      (src = .cancelled → tgt = .cancelled) := by
  revert h
  cases src <;> cases tgt <;> decide

/-- While operations take turns a ride keeps the driver that it has. -/
theorem TakeTurns.driver_kept {i : Nat} {found : List NearbyDriver} {call : Call} {c : Cmd}
    {k : Reply c → Prog Cmd Reply Empty Unit} {log : BackendLog} {r : Reply c} {w : World}
    {rideId driverId : String} {row : RideRow} (hturn : TakeTurns s (.run i found)) (hs : Sound s)
    (hw : Waiting s.world) (hi : s.threads i = some ⟨call, .call c k, log⟩)
    (hx : s.world.exec found c = (r, w)) (hrow : s.world.trip.findRide rideId = some row)
    (hdriver : row.driverId = some driverId) :
    ∃ row', w.trip.findRide rideId = some row' ∧ row'.driverId = some driverId ∧
      ((syncStatus row.status).isSome = true → (syncStatus row'.status).isSome = true) ∧
      (row.status = .cancelled → row'.status = .cancelled) := by
  rcases hturn.row_cases hs hi hx hrow with hsame | ⟨op, row', -, -, hrow', -, hmoved, -⟩
  · exact ⟨row, hsame, hdriver, id, id⟩
  · refine ⟨row', hrow', ?_⟩
    cases hmoved with
    | matched hev hmatching hmatched hdr =>
        rw [hw rideId row hrow (.inr hmatching)] at hdriver
        cases hdriver
    | settled hcan hne hdr hdue hstaged => exact ⟨hdr.trans hdriver, final_of_transition hcan⟩
    | released hcan hcancelled hdr hreleased =>
        refine ⟨hdr.trans hdriver, fun _ => ?_, fun _ => hcancelled⟩
        rw [hcancelled]
        rfl

/-! ## Syncs that are due -/

/-- What is known about the sync that an operation owes: it is for the driver of
its ride, which is under way or over when the operation is done.  Before that the
sync is the release of a cancellation. -/
structure Due (w : World) (op : Op) (g : Progress) (driverId : String) (status : DriverStatus)
    (rideId : String) (row : RideRow) : Prop where
  target : status = .available ∨ status = .onTrip
  ride : op.ride = some rideId
  found : w.trip.findRide rideId = some row
  driver : row.driverId = some driverId
  committed : g.done = true → (syncStatus row.status).isSome = true
  staged : g.done = false → ∃ options, .transition rideId .cancelled options ∈ g.staged
  cancels : op.cancels = true → status = .available ∧ (g.done = true → row.status = .cancelled)

def Owed (s : BackendPool) : Prop :=
  ∀ i th op driverId status, s.threads i = some th → th.call.op = some op →
    (progressOf th.log).due = some (driverId, status) →
    ∃ rideId row, Due s.world op (progressOf th.log) driverId status rideId row

theorem initial_owed (drivers : String → Option DriverStatus) : Owed (initial drivers) :=
  fun _ _ _ _ _ => nofun

/-- The sync that a call has just made due. -/
theorem due_of_incurred {w : World} {op : Op} {g g' : Progress} {es : List Exec} {db : TripDb}
    {driverId : String} {status : DriverStatus} {rideId : String} {tgt : RideStatus}
    {row row' : RideRow}
    (h : Incurred op g g' es db w.trip driverId status rideId tgt row row') :
    Due w op g' driverId status rideId row' where
  target := syncStatus_eq_some h.sync
  ride := h.ride
  found := h.after
  driver := h.driver'
  committed hdone := by
    rw [h.committed hdone, h.sync]
    rfl
  staged hopen := (h.staged hopen).2
  cancels hcancels := by
    have htgt := h.cancels hcancels
    have hsync := h.sync
    rw [htgt] at hsync
    exact ⟨(Option.some.inj hsync).symm, fun hdone => (h.committed hdone).trans htgt⟩

/-- Where a sync that is due comes from: it was due before, or a database call
has just made it so. -/
theorem due_cons {w w' : World} {found : List NearbyDriver} {c : Cmd} {r : Reply c}
    {call : Call} {log : BackendLog} {op : Op} (hop : call.op = some op)
    (h : w.exec found c = (r, w')) (hpre : call.Allows c (track Track.next .start log))
    {driverId : String} {status : DriverStatus}
    (hdue : (progressOf (⟨c, r⟩ :: log)).due = some (driverId, status)) :
    ((progressOf log).due = some (driverId, status) ∧ w'.trip = w.trip ∧
        (progressOf (⟨c, r⟩ :: log)).done = (progressOf log).done ∧
        (progressOf (⟨c, r⟩ :: log)).staged = (progressOf log).staged) ∨
      ∃ c' rideId tgt row row', c = .db c' ∧
        Incurred op (progressOf log) (progressOf (⟨c, r⟩ :: log)) c'.writes w.trip w'.trip driverId
          status rideId tgt row row' := by
  cases c with
  | tripPark fields =>
      obtain ⟨op', -, hidle, -⟩ := hpre
      cases hidle.due.symm.trans hdue
  | dispatch c =>
      obtain ⟨⟨envelope, rfl⟩, -⟩ := hpre
      cases hop
  | drivers c =>
      cases c with
      | findUnique driverId' =>
          exact .inl ⟨(Option.filter_eq_some_iff.mp hdue).1, exec_trip h fun _ => nofun, rfl, rfl⟩
      | update driverId' status' => cases hdue
  | db c =>
      obtain ⟨op', hop', hpre⟩ := hpre
      cases hop.symm.trans hop'
      rcases exec_db h with ⟨err, hx, rfl, rfl⟩ | ⟨v, db, hx, rfl, rfl⟩
      · cases hpre.idle.1.symm.trans hdue
      · obtain ⟨rideId, tgt, row, row', hincurred⟩ := due_exec hpre hx hdue
        exact .inr ⟨c, rideId, tgt, row, row', rfl, hincurred⟩

theorem Owed.step (ho : Owed s) (hs : Sound s) (hw : Waiting s.world) (hturn : TakeTurns s a)
    (h : (machine cfg haversineKm).Step s a t) : Owed t := by
  intro j th op driverId status hj hop hdue
  cases h with
  | spawn hi hp =>
      rcases update_eq_some hj with ⟨-, rfl⟩ | ⟨-, hold⟩
      · cases hdue
      · obtain ⟨w, hstart, heq⟩ := Option.map_eq_some_iff.mp hp
        cases heq
        obtain ⟨rideId, row, hd⟩ := ho j th op driverId status hold hop hdue
        exact ⟨rideId, row, { hd with
          found := (congrArg (·.findRide rideId) (start_frame hstart).2.1).trans hd.found }⟩
  | env he =>
      obtain ⟨-, -, -, ⟨now, htrip⟩, -⟩ := env_frame he
      obtain ⟨rideId, row, hd⟩ := ho j th op driverId status hj hop hdue
      exact ⟨rideId, row, { hd with
        found := (congrArg (·.findRide rideId) htrip).trans hd.found }⟩
  | @run i found call c k log r w hi hr =>
      have hx := Option.some.inj hr
      rcases update_eq_some hj with ⟨-, rfl⟩ | ⟨hne, hj⟩
      · rcases due_cons hop hx (hs.meets _ _ hi).allows hdue with
          ⟨hold, htrip, hdone, hstaged⟩ | ⟨c', rideId, tgt, row, row', rfl, hincurred⟩
        · obtain ⟨rideId, row, hd⟩ := ho i _ op _ _ hi hop hold
          refine ⟨rideId, row, hd.target, hd.ride, ?_, hd.driver, ?_, ?_, ?_⟩
          · rw [htrip]
            exact hd.found
          · rw [hdone]
            exact hd.committed
          · rw [hdone, hstaged]
            exact hd.staged
          · rw [hdone]
            exact hd.cancels
        · exact ⟨rideId, row', due_of_incurred hincurred⟩
      · obtain ⟨rideId, row, hd⟩ := ho j th op _ _ hj hop hdue
        obtain ⟨row', hrow', hdriver', hfinal, hcancelled⟩ :=
          hturn.driver_kept hs hw hi hx hd.found hd.driver
        exact ⟨rideId, row', hd.target, hd.ride, hrow', hdriver', fun hdone =>
          hfinal (hd.committed hdone), hd.staged, fun hcancels =>
            (hd.cancels hcancels).imp_right fun h hdone => hcancelled (h hdone)⟩

end Steps

end Backend

end RydTrip
