import RydTrip.Backend.Turns

/-!
# Who writes a driver's status

What is due stays due until somebody has taken care of it: a reservation until
its event is published, the event until trip-service has matched the ride or
parked the event, and a status sync until driver-service has refused it or
written it.
-/

namespace RydTrip

namespace Backend

open Process TripService

/-- The pool after a command of the thread `i`. -/
abbrev after {c : Cmd} (s : BackendPool) (i : Nat) (call : Call)
    (k : Reply c → Prog Cmd Reply Empty Unit) (log : BackendLog) (r : Reply c) (w : World) :
    BackendPool :=
  ⟨w, Function.update s.threads i (some ⟨call, k r, ⟨c, r⟩ :: log⟩)⟩

/-! ## Commands -/

section Commands

variable {w w' : World} {found : List NearbyDriver} {call : Call} {c : Cmd} {r : Reply c}
  {log : BackendLog} {op : Op} {rideId driverId : String} {status : DriverStatus}

/-- A status is changed by an update to it. -/
theorem exec_status (hx : w.exec found c = (r, w')) (driverId : String) :
    w'.drivers driverId = w.drivers driverId ∨ ∃ status,
      c = .drivers (.update driverId status) ∧ w'.drivers driverId = some status := by
  by_cases hc : ∃ driverId' status, c = .drivers (.update driverId' status)
  · obtain ⟨driverId', status, rfl⟩ := hc
    have hw : (w.updateDriver driverId' status).2 = w' := congrArg Prod.snd hx
    subst hw
    unfold World.updateDriver
    split
    next hsome =>
      by_cases hid : driverId = driverId'
      · subst hid
        exact .inr ⟨status, rfl, Function.update_self ..⟩
      · exact .inl (Function.update_of_ne hid _ _)
    next hnone => exact .inl rfl
  · left
    rw [exec_drivers hx fun driverId' status h => hc ⟨driverId', status, h⟩]

/-- After an update the driver has the status, if he exists. -/
theorem exec_update {r : Reply (.drivers (.update driverId status))}
    (hx : w.exec found (.drivers (.update driverId status)) = (r, w'))
    {status' : DriverStatus} (h : w'.drivers driverId = some status') : status' = status := by
  have hw : (w.updateDriver driverId status).2 = w' := congrArg Prod.snd hx
  subst hw
  unfold World.updateDriver at h
  split at h
  next hsome =>
    have hself := (Function.update_self driverId (some status) w.drivers).symm.trans h
    cases hself
    rfl
  next hnone =>
    have hsome := congrArg Option.isSome h
    rw [Bool.not_eq_true] at hnone
    rw [hnone] at hsome
    cases hsome

/-- An outcome that is published is on its topic, and not delivered yet. -/
theorem exec_publish {outcome : Dispatch.Outcome} {correlationId key : String}
    {r : Reply (.dispatch (.publish outcome correlationId key))}
    (hx : w.exec found (.dispatch (.publish outcome correlationId key)) = (r, w'))
    (hdelivered : ∀ n, w.tripDelivered n = true → n < w.events.length) :
    ∃ envelope, Published w' envelope ∧ w'.tripDelivered envelope.eventId = false ∧
      RideEvent.ofEnvelope envelope = some (outcomeEvent outcome) := by
  cases hx
  refine ⟨⟨w.events.length, outcome.topic, correlationId, some outcome.payload⟩, ?_,
    Bool.eq_false_iff.mpr fun hn => absurd (hdelivered _ hn) (Nat.lt_irrefl _),
    ofEnvelope_outcome outcome w.events.length correlationId⟩
  show (w.events ++ [_])[w.events.length]? = some _
  exact List.getElem?_concat_length

/-- A reservation stays unannounced until its event is published. -/
theorem pending_kept (hpre : call.Allows c (track Track.next .start log)) (hr : Answered c r)
    (h : pendingOf log = some (rideId, driverId)) :
    pendingOf (⟨c, r⟩ :: log) = some (rideId, driverId) ∨
      ∃ correlationId key,
        c = .dispatch (.publish (.reserved rideId driverId) correlationId key) := by
  cases c with
  | db c => exact .inl h
  | tripPark fields => exact .inl h
  | drivers c =>
      left
      cases c with
      | findUnique driverId' => exact h
      | update driverId' status => exact h
  | dispatch c =>
      obtain ⟨-, hpre⟩ := hpre
      change Dispatch.Pending.Allows c (pendingOf log) at hpre
      change Dispatch.Pending.next c r (pendingOf log) = _ ∨ _
      cases c with
      | tryReserve driverId' rideId' ttlSeconds =>
          rw [hpre.1] at h
          cases h
      | publish outcome correlationId key =>
          cases outcome with
          | reserved rideId' driverId' =>
              have hpre : pendingOf log = some (rideId', driverId') := hpre
              rw [h] at hpre
              cases hpre
              exact .inr ⟨correlationId, key, rfl⟩
          | rejected rideId' reason => exact .inl h
      | _ => exact .inl h

/-- A sync stays due until driver-service refuses or writes it. -/
theorem due_kept (hop : call.op = some op) (hpre : call.Allows c (track Track.next .start log))
    (hx : w.exec found c = (r, w')) (h : (progressOf log).due = some (driverId, status)) :
    (progressOf (⟨c, r⟩ :: log)).due = some (driverId, status) ∨
      (c = .drivers (.findUnique driverId) ∧
        ((w.drivers driverId).any fun src => canTransitionDriverStatus src status) = false) ∨
      c = .drivers (.update driverId status) := by
  have hsends {driverId' : String} {status' : DriverStatus}
      (hsends : call.Sends (track Track.next .start log) driverId' status') :
      driverId' = driverId ∧ status' = status := by
    cases (hsends.due hop).symm.trans h
    exact ⟨rfl, rfl⟩
  cases c with
  | db c =>
      obtain ⟨op', -, hpre⟩ := hpre
      cases hpre.idle.1.symm.trans h
  | tripPark fields =>
      obtain ⟨op', -, hidle, -⟩ := hpre
      cases hidle.due.symm.trans h
  | dispatch c =>
      obtain ⟨⟨envelope, rfl⟩, -⟩ := hpre
      cases hop
  | drivers c =>
      cases c with
      | findUnique driverId' =>
          obtain ⟨status', hpre⟩ := hpre
          obtain ⟨rfl, rfl⟩ := hsends hpre
          have hr : r = w.drivers driverId' := (congrArg Prod.fst hx).symm
          subst hr
          change (Option.filter _ (progressOf log).due = _) ∨ _
          rw [h]
          cases hcan : (w.drivers driverId').any fun src =>
              canTransitionDriverStatus src status' with
          | true =>
              left
              simp only [Option.filter_some, hcan, if_true]
          | false => exact .inr (.inl ⟨rfl, rfl⟩)
      | update driverId' status' =>
          obtain ⟨rfl, rfl⟩ := hsends hpre
          exact .inr (.inr rfl)

/-- While the driver's status stays, a sync that it allows stays due. -/
theorem due_still {src : DriverStatus} (hop : call.op = some op)
    (hpre : call.Allows c (track Track.next .start log)) (hx : w.exec found c = (r, w'))
    (h : (progressOf log).due = some (driverId, status)) (hsrc : w.drivers driverId = some src)
    (hsrc' : w'.drivers driverId = some src) (hcan : canTransitionDriverStatus src status = true) :
    (progressOf (⟨c, r⟩ :: log)).due = some (driverId, status) := by
  rcases due_kept hop hpre hx h with hdue | ⟨rfl, hrefused⟩ | rfl
  · exact hdue
  · rw [hsrc] at hrefused
    cases hrefused.symm.trans hcan
  · -- no status may change to itself
    cases exec_update hx hsrc'
    cases status <;> cases hcan

/-! ## Releases -/

/-- The cancellation of a ride that has a driver is only staged with a sync due,
so a handler becomes `Released` by settling it. -/
theorem released_cons {row : RideRow} (hpre : call.Allows c (track Track.next .start log))
    (hx : w.exec found c = (r, w')) (hrow : w.trip.findRide rideId = some row)
    (hdriver : row.driverId = some driverId) (hne : driverId ≠ "")
    (h : (progressOf (⟨c, r⟩ :: log)).Released rideId) :
    (progressOf log).Released rideId ∨ ∃ p, (progressOf log).due = some p := by
  obtain ⟨hdue, hopen, options, hmem⟩ := h
  cases c with
  | dispatch c => exact .inl ⟨hdue, hopen, options, hmem⟩
  | tripPark fields => cases hopen
  | drivers c =>
      cases hold : (progressOf log).due with
      | some p => exact .inr ⟨p, rfl⟩
      | none =>
          left
          cases c with
          | findUnique driverId' => exact ⟨hold, hopen, options, hmem⟩
          | update driverId' status' => exact ⟨hold, hopen, options, hmem⟩
  | db c =>
      left
      obtain ⟨op', -, hpre⟩ := hpre
      obtain ⟨hnone, hnotDone⟩ := hpre.idle
      refine ⟨hnone, hnotDone, options, ?_⟩
      rcases exec_db hx with ⟨err, -, rfl, rfl⟩ | ⟨v, db, hdb, rfl, rfl⟩
      · cases hmem
      · cases c with
        | commit tx => cases hmem
        | transact e => cases hopen
        | findRide id => cases v <;> exact hmem
        | exec tx e =>
            -- the row that is returned has the driver, so a sync would be due
            obtain ⟨-, -, -, event, eventId, -, -, hbegin, -⟩ := hpre
            obtain ⟨hwrites, -, hoption⟩ := RideEvent.writes_cancelled (hbegin.mem hmem)
            rw [hwrites] at hbegin
            obtain ⟨hnil, rfl⟩ := staged_of_singleton hbegin
            obtain ⟨row', hexec, heq⟩ := map_eq_ok.mp hdb
            cases heq
            obtain ⟨db₁, db₂, happ, he⟩ := Tx.exec_ok.mp hexec
            rw [hnil] at happ
            cases happ
            obtain ⟨row₀, reason, hrow₀, -, hv, -⟩ := Exec.transition_ok he
            rw [hrow] at hrow₀
            cases hrow₀
            have hv : v.driverId = some driverId := by
              rw [hv]
              change (truthy options.driverId).or row.driverId = some driverId
              rw [hoption, hdriver]
              rfl
            have hsync : syncOf .cancelled v = some (driverId, .available) :=
              syncOf_eq_some.mpr ⟨by rw [hv]; exact truthy_eq_some.mpr ⟨rfl, hne⟩, rfl⟩
            have hdue : syncOf .cancelled v = none := hdue
            rw [hsync] at hdue
            cases hdue
        | _ => exact hmem

end Commands

/-! ## Steps -/

section Steps

variable {cfg : Dispatch.Config} {haversineKm : GeoPoint → GeoPoint → Option Rat}
  {s t : BackendPool} {a : BackendAction} {rideId driverId : String}

/-- A thread that owes a sync is under way. -/
theorem Sound.live_of_due (hs : Sound s) {i : Nat} {th : BackendThread} {op : Op}
    {p : String × DriverStatus} (hi : s.threads i = some th) (hop : th.call.op = some op)
    (hdue : (progressOf th.log).due = some p) : th.Live := by
  by_contra hlive
  have hfin := (hs.meets i th hi).ended hlive
  have hnone : (progressOf th.log).due = none := by
    cases hcall : th.call with
    | http op' =>
        rw [hcall] at hfin
        exact hfin.1
    | tripEvent envelope =>
        rw [hcall] at hfin
        exact hfin.1
    | dispatchEvent envelope =>
        rw [hcall] at hop
        cases hop
    | updateStatus driverId status =>
        rw [hcall] at hop
        cases hop
  rw [hnone] at hdue
  cases hdue

/-- A `driver.reserved` event is dealt with by the commit that matches its ride,
or by parking it. -/
theorem Sound.dealt (hs : Sound s) (ho : Once s) {i : Nat} {found : List NearbyDriver}
    {envelope : EventEnvelope} {c : Cmd} {k : Reply c → Prog Cmd Reply Empty Unit}
    {log : BackendLog} {r : Reply c} {w : World}
    (hi : s.threads i = some ⟨.tripEvent envelope, .call c k, log⟩)
    (hx : s.world.exec found c = (r, w))
    (hof : RideEvent.ofEnvelope envelope = some (.reserved rideId driverId))
    (hopen : (progressOf log).done = false) (hdone : (progressOf (⟨c, r⟩ :: log)).done = true) :
    (∃ row es options, w.trip.findRide rideId = some row ∧ row.driverId = some driverId ∧
        row.status = .matched ∧ CommitsBy s (.run i found) i es ∧
        .transition rideId .matched options ∈ es) ∨
      ∃ fields, c = .tripPark fields ∧ fields.envelope = some envelope := by
  have hpre := (hs.meets _ _ hi).allows
  have hne : driverId ≠ "" := hs.reserved _ _ _ (hs.handled i _ envelope hi rfl).1 hof
  have hevent : (consume envelope).event = some (.reserved rideId driverId, envelope.eventId) := by
    rw [consume, Op.event, hof]
    rfl
  cases c with
  | dispatch c => cases hopen.symm.trans hdone
  | drivers c =>
      cases c with
      | findUnique driverId' => cases hopen.symm.trans hdone
      | update driverId' status => cases hopen.symm.trans hdone
  | tripPark fields =>
      obtain ⟨op, hop, -, n, envelope', heq, hfields⟩ := hpre
      cases hop
      cases heq
      exact .inr ⟨fields, rfl, hfields⟩
  | db c =>
      obtain ⟨op, hop, hpre⟩ := hpre
      cases hop
      rcases exec_db hx with ⟨err, hdb, rfl, rfl⟩ | ⟨v, db, hdb, rfl, rfl⟩
      · -- only P2002 settles the event, and its key is free
        have hunique : err = .uniqueConstraint := by
          rcases Bool.or_eq_true_iff.mp hdone with hdone | herr
          · cases hopen.symm.trans hdone
          · exact of_decide_eq_true herr
        subst hunique
        have hkey := processed_of_duplicate hpre hdb hevent rfl
        rw [ho.free hi rfl hopen] at hkey
        cases hkey
      · cases c with
        | commit tx =>
            obtain ⟨-, -, -, event, eventId, hev, hkey, hwrites, -⟩ := hpre
            rw [hevent] at hev
            cases hev
            obtain ⟨db₂, hcommit, heq⟩ := map_eq_ok.mp hdb
            cases heq
            obtain ⟨db₁, -, happ⟩ := Tx.commit_ok.mp hcommit
            rw [hwrites] at happ
            obtain ⟨row, row', -, hst, hdr, hfind⟩ := apply_transition happ
            have hmem :
                Exec.transition rideId .matched { driverId := some driverId } ∈ tx.staged := by
              rw [hwrites]
              exact .head _
            refine .inl ⟨row', tx.staged, _, (hfind rideId).trans (if_pos rfl), ?_, hst,
              ⟨_, _, _, _, _, _, rfl, hi, rfl⟩, hmem⟩
            rw [hdr, truthy_eq_some.mpr ⟨rfl, hne⟩]
            rfl
        | transact e => exact hpre.2.1.elim
        | findRide id => cases v <;> cases hopen.symm.trans hdone
        | _ => cases hopen.symm.trans hdone

/-! ## Names of drivers -/

/-- No ride has a driver without an id. -/
def DriversNamed (w : World) : Prop :=
  ∀ rideId row, w.trip.findRide rideId = some row → row.driverId ≠ some ""

theorem DriversNamed.step (hn : DriversNamed s.world) (hs : Sound s)
    (h : (machine cfg haversineKm).Step s a t) : DriversNamed t.world := by
  intro rideId row hrow
  cases h with
  | spawn hi hp =>
      obtain ⟨w, hw, heq⟩ := Option.map_eq_some_iff.mp hp
      cases heq
      rw [(start_frame hw).2.1] at hrow
      exact hn rideId row hrow
  | env hw =>
      obtain ⟨-, -, -, ⟨now, htrip⟩, -⟩ := env_frame hw
      rw [htrip] at hrow
      exact hn rideId row hrow
  | run hi hr =>
      rcases exec_findRide (Option.some.inj hr) (hs.meets _ _ hi).allows rideId with
        hsame | ⟨-, -, op, row', hop, hrow', hw⟩
      · rw [hsame] at hrow
        exact hn rideId row hrow
      · rw [hrow] at hrow'
        cases hrow'
        cases hw with
        | inserted hnone hdr hst =>
            rw [hdr]
            exact nofun
        | @matched driverId eventId row₀ seen hev hrow₀ hseen hmatching hdr hst =>
            obtain ⟨hstored, -⟩ := hs.stores hi hop hev
            rw [hdr, hstored]
            exact fun heq => (truthy_eq_some.mp hstored).2 (Option.some.inj heq)
        | moved hride hrow₀ hseen hcan hdr hne hdue =>
            rw [hdr]
            exact hn rideId _ hrow₀

end Steps

end Backend

end RydTrip
