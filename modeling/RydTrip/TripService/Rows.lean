import RydTrip.TripService.Progress
import RydTrip.TripService.Steps

/-!
# What an operation does to the rows

The effect of one database call, given what the operation may issue.  A ride is
inserted, matched with the driver of a `driver.reserved` event, or moved to
another status with its driver unchanged.  Other rides stay as they are.
-/

namespace RydTrip

namespace TripService

open Process

/-! ## The ride of an operation -/

/-- The existing ride that the handler of an event changes. -/
def RideEvent.ride : RideEvent → Option String
  | .requested _ => none
  | .cancelled rideId _ => some rideId
  | .reserved rideId _ => some rideId
  | .rejected rideId => some rideId

/-- The existing ride that an operation changes. -/
def Op.ride : Op → Option String
  | .accept id _ => some id
  | .decline id => some id
  | .driverArrived id => some id
  | .start id _ _ => some id
  | .complete id => some id
  | .cancel id _ => some id
  | op => op.event.bind fun (event, _) => event.ride

/-- An HTTP operation moves its ride to a status other than MATCHED, and leaves
the driver alone. -/
theorem Op.Transacts.transition {op : Op} {e : Exec} (h : op.Transacts e) :
    ∃ id tgt options, e = .transition id tgt options ∧ op.ride = some id ∧ op.event = none ∧
      options.driverId = none ∧ tgt ≠ .matched := by
  cases op with
  | complete id =>
      obtain ⟨fare, distanceKm, rfl⟩ := h
      exact ⟨_, _, _, rfl, rfl, rfl, rfl, nofun⟩
  | accept id draw =>
      cases h
      exact ⟨_, _, _, rfl, rfl, rfl, rfl, nofun⟩
  | decline id =>
      cases h
      exact ⟨_, _, _, rfl, rfl, rfl, rfl, nofun⟩
  | driverArrived id =>
      cases h
      exact ⟨_, _, _, rfl, rfl, rfl, rfl, nofun⟩
  | start id otp callerDriverId =>
      cases h
      exact ⟨_, _, _, rfl, rfl, rfl, rfl, nofun⟩
  | cancel id reason =>
      cases h
      exact ⟨_, _, _, rfl, rfl, rfl, rfl, nofun⟩
  | _ => cases h

theorem Op.ride_of_event {op : Op} {event : RideEvent} {eventId : Nat}
    (h : op.event = some (event, eventId)) : op.ride = event.ride := by
  have hride (hop : op.ride = op.event.bind fun (event, _) => event.ride) :
      op.ride = event.ride := by
    rw [hop, h]
    rfl
  cases op with
  | accept id draw => cases h
  | decline id => cases h
  | driverArrived id => cases h
  | start id otp callerDriverId => cases h
  | complete id => cases h
  | cancel id reason => cases h
  | _ => exact hride rfl

/-! ## Cancellations -/

def RideEvent.cancels : RideEvent → Bool
  | .cancelled .. => true
  | .rejected _ => true
  | _ => false

/-- The operation runs `cancel`. -/
def Op.cancels : Op → Bool
  | .cancel .. => true
  | .decline _ => true
  | op => op.event.any fun (event, _) => event.cancels

/-- What `cancel` commits at once is a cancellation. -/
theorem Op.Transacts.cancelled {op : Op} {id : String} {tgt : RideStatus}
    {options : TransitionOptions} (h : op.Transacts (.transition id tgt options))
    (hcancels : op.cancels = true) : tgt = .cancelled := by
  cases op with
  | cancel id reason =>
      cases h
      rfl
  | decline id =>
      cases h
      rfl
  | accept id draw => cases hcancels
  | driverArrived id => cases hcancels
  | start id otp callerDriverId => cases hcancels
  | complete id => cases hcancels
  | _ => cases h

/-! ## Rows that are written -/

/-- The statements that a call runs or makes permanent. -/
def DbCmd.writes : DbCmd → List Exec
  | .exec _ e => [e]
  | .commit tx => tx.staged
  | .transact e => [e]
  | _ => []

theorem DbCmd.writes_of_commits {c : DbCmd} {key : Option ProcessedEventRow} {es : List Exec}
    (hc : (Cmd.db c).commits = some (key, es)) : c.writes = es := by
  cases c with
  | commit tx =>
      cases hc
      rfl
  | transact e =>
      cases hc
      rfl
  | _ => cases hc

/-- The cancellation of the ride by an event is staged and its sync is settled,
so only the commit is left. -/
def Progress.Released (g : Progress) (id : String) : Prop :=
  g.due = none ∧ g.done = false ∧ ∃ options, .transition id .cancelled options ∈ g.staged

/-- How `row'` becomes the row of `id`, when the operation goes from `g` to `g'`
over the database `db`. -/
inductive RowWritten (op : Op) (g g' : Progress) (db : TripDb) (id : String) (row' : RideRow) :
    Prop where
  | inserted :
      db.findRide id = none →
      row'.driverId = none →
      row'.status = .matching →
      RowWritten op g g' db id row'
  | matched {driverId : String} {eventId : Nat} {row seen : RideRow} :
      op.event = some (.reserved id driverId, eventId) →
      db.findRide id = some row →
      g.seen = some (id, seen) →
      seen.status = .matching →
      row'.driverId = (truthy (some driverId)).or row.driverId →
      row'.status = .matched →
      RowWritten op g g' db id row'
  | moved {row seen : RideRow} :
      op.ride = some id →
      db.findRide id = some row →
      g.seen = some (id, seen) →
      canTransitionRideStatus seen.status row'.status = true →
      row'.driverId = row.driverId →
      row'.status ≠ .matched →
      ((g'.due = syncOf row'.status row' ∧ g.staged = []) ∨
        (g.Released id ∧ row'.status = .cancelled)) →
      RowWritten op g g' db id row'

section Effects

variable {op : Op} {g : Progress} {c : DbCmd} {db db' : TripDb} {v : DbValue c}

theorem matching_of_transition {s : RideStatus} (h : canTransitionRideStatus s .matched = true) :
    s = .matching := by
  cases s <;> first | rfl | cases h

/-- What a transition leaves in its row. -/
theorem apply_transition {id : String} {tgt : RideStatus} {options : TransitionOptions}
    (h : applyAll [.transition id tgt options] db = .ok db') :
    ∃ row row', db.findRide id = some row ∧ row'.status = tgt ∧
      row'.driverId = (truthy options.driverId).or row.driverId ∧
      ∀ id', db'.findRide id' = if id' = id then some row' else db.findRide id' := by
  obtain ⟨row, row', reason, hrow, rfl, hfind⟩ := applyAll_transition h
  exact ⟨row, _, hrow, rfl, rfl, hfind⟩

/-- The commit of an event writes the rows of the event. -/
theorem findRide_commit {tx : Tx} (hpre : op.Allows (.db (.commit tx)) g)
    (hx : tx.commit db = .ok db') (id : String) :
    db'.findRide id = db.findRide id ∨
      ∃ row', db'.findRide id = some row' ∧
        RowWritten op g { g with staged := [], done := true } db id row' := by
  obtain ⟨hdue, hdone, hstaged, event, eventId, hop, hkey, hwrites, hpermits⟩ := hpre
  obtain ⟨db₁, hpe, happ⟩ := Tx.commit_ok.mp hx
  have hsame := TripDb.findRide_createProcessedEvent hpe
  rw [hwrites] at happ
  have hcancel {rideId : String} {options : TransitionOptions}
      (hev : event.writes = [.transition rideId .cancelled options])
      (hride : event.ride = some rideId) (hopt : options.driverId = none) :
      db'.findRide id = db.findRide id ∨ ∃ row', db'.findRide id = some row' ∧
        RowWritten op g { g with staged := [], done := true } db id row' := by
    rw [hev] at happ
    obtain ⟨row, row', hrow, hst, hdr, hfind⟩ := apply_transition happ
    obtain ⟨seen, hseen, hcan⟩ := hpermits _ _ _ hev
    rw [hsame] at hrow
    by_cases hid : id = rideId
    · subst hid
      refine .inr ⟨row', by rw [hfind, if_pos rfl], .moved ((Op.ride_of_event hop).trans hride) hrow
        hseen ?_ ?_ ?_ (.inr ⟨⟨hdue, hdone, options, ?_⟩, hst⟩)⟩
      · rw [hst]
        exact hcan
      · rw [hdr, hopt]
        rfl
      · rw [hst]
        exact nofun
      · rw [hstaged, hwrites, hev]
        exact .head _
    · exact .inl (by rw [hfind, if_neg hid, hsame])
  cases event with
  | cancelled rideId reason => exact hcancel rfl rfl rfl
  | rejected rideId => exact hcancel rfl rfl rfl
  | reserved rideId driverId =>
      obtain ⟨row, row', hrow, hst, hdr, hfind⟩ := apply_transition happ
      obtain ⟨seen, hseen, hcan⟩ := hpermits _ _ _ rfl
      rw [hsame] at hrow
      by_cases hid : id = rideId
      · subst hid
        exact .inr ⟨row', by rw [hfind, if_pos rfl],
          .matched hop hrow hseen (matching_of_transition hcan) hdr hst⟩
      · exact .inl (by rw [hfind, if_neg hid, hsame])
  | requested input =>
      obtain ⟨row₁, db₂, hc, happ⟩ := applyAll_cons.mp happ
      obtain ⟨hnone, -, -, hdr₁, hfind₁, -⟩ := Exec.create_ok hc
      obtain ⟨row, row', hrow, hst, hdr, hfind⟩ := apply_transition happ
      rw [hfind₁, if_pos rfl] at hrow
      cases hrow
      rw [hsame] at hnone
      by_cases hid : id = input.id
      · subst hid
        exact .inr ⟨row', by rw [hfind, if_pos rfl], .inserted hnone (by rw [hdr, hdr₁]; rfl) hst⟩
      · exact .inl (by rw [hfind, if_neg hid, hfind₁, if_neg hid, hsame])

theorem findRide_transact {e : Exec} {row : RideRow} (hpre : op.Allows (.db (.transact e)) g)
    (hx : e.apply db = .ok (row, db')) (id : String) :
    db'.findRide id = db.findRide id ∨
      ∃ row', db'.findRide id = some row' ∧
        RowWritten op g { g with due := e.sync row, done := true } db id row' := by
  obtain ⟨hidle, he, hpermits⟩ := hpre
  obtain ⟨rideId, tgt, options, rfl, hride, -, hopt, htgt⟩ := he.transition
  obtain ⟨row₀, reason, hrow, -, rfl, hfind, -⟩ := Exec.transition_ok hx
  obtain ⟨seen, hseen, hcan⟩ := hpermits _ _ _ rfl
  by_cases hid : id = rideId
  · subst hid
    refine .inr ⟨_, by rw [hfind, if_pos rfl],
      .moved hride hrow hseen hcan ?_ htgt (.inl ⟨rfl, hidle.staged⟩)⟩
    change (truthy options.driverId).or row₀.driverId = row₀.driverId
    rw [hopt]
    rfl
  · exact .inl (by rw [hfind, if_neg hid])

/-- Every row is left alone or written by the operation, which is done then. -/
theorem findRide_exec (hpre : op.Allows (.db c) g) (hx : db.exec c = .ok (v, db')) (id : String) :
    db'.findRide id = db.findRide id ∨
      g.done = false ∧ (g.afterValue c v).done = true ∧ ∃ row', db'.findRide id = some row' ∧
        RowWritten op g (g.afterValue c v) db id row' := by
  cases c with
  | commit tx =>
      obtain ⟨db₁, hcommit, heq⟩ := map_eq_ok.mp hx
      cases heq
      exact (findRide_commit hpre hcommit id).imp_right fun h => ⟨hpre.2.1, rfl, h⟩
  | transact e => exact (findRide_transact hpre hx id).imp_right fun h => ⟨hpre.1.open', rfl, h⟩
  | _ => exact .inl (by rw [TripDb.exec_of_not_commits rfl hx])

/-- Rows that exist are written by operations on their ride only. -/
theorem RowWritten.ride {op : Op} {g g' : Progress} {db : TripDb} {id : String}
    {row row' : RideRow} (h : RowWritten op g g' db id row') (hrow : db.findRide id = some row) :
    op.ride = some id := by
  cases h with
  | inserted hnone => rw [hnone] at hrow; cases hrow
  | matched hev => exact Op.ride_of_event hev
  | moved hride => exact hride

theorem syncStatus_eq_some {s : RideStatus} {status : DriverStatus}
    (h : syncStatus s = some status) : status = .available ∨ status = .onTrip := by
  cases s <;> cases h
  · exact .inr rfl
  · exact .inl rfl
  · exact .inl rfl

/-- A handler that cancels does nothing else. -/
theorem RideEvent.writes_cancelled {event : RideEvent} {id : String} {options : TransitionOptions}
    (h : .transition id .cancelled options ∈ event.writes) :
    event.writes = [.transition id .cancelled options] ∧ event.ride = some id ∧
      options.driverId = none := by
  cases event with
  | requested input =>
      rcases List.mem_cons.mp h with heq | h
      · cases heq
      · cases List.mem_singleton.mp h
  | reserved rideId driverId => cases List.mem_singleton.mp h
  | cancelled rideId reason =>
      cases List.mem_singleton.mp h
      exact ⟨rfl, rfl, rfl⟩
  | rejected rideId =>
      cases List.mem_singleton.mp h
      exact ⟨rfl, rfl, rfl⟩

/-- A statement of a handler that makes a sync due cancels the ride. -/
theorem RideEvent.cancels_of_sync {event : RideEvent} {e : Exec} {row : RideRow}
    {p : String × DriverStatus} (h : e ∈ event.writes) (hsync : e.sync row = some p) :
    ∃ id options, e = .transition id .cancelled options := by
  have hsilent {id : String} {tgt : RideStatus} {options : TransitionOptions}
      (he : e = .transition id tgt options) (hnone : syncStatus tgt = none) : False := by
    rw [he] at hsync
    cases (syncOf_eq_none hnone row).symm.trans hsync
  cases event with
  | requested input =>
      rcases List.mem_cons.mp h with rfl | h
      · cases hsync
      · exact (hsilent (List.mem_singleton.mp h) rfl).elim
  | reserved rideId driverId => exact (hsilent (List.mem_singleton.mp h) rfl).elim
  | cancelled rideId reason => exact ⟨_, _, List.mem_singleton.mp h⟩
  | rejected rideId => exact ⟨_, _, List.mem_singleton.mp h⟩

/-- The first statement of a handler that has only one. -/
theorem staged_of_singleton {staged : List Exec} {e e' : Exec} (h : staged ++ [e] <+: [e']) :
    staged = [] ∧ e = e' := by
  have hlen := h.length_le
  rw [List.length_append, List.length_singleton, List.length_singleton] at hlen
  have hnil : staged = [] := List.length_eq_zero_iff.mp (by omega)
  rw [hnil, List.nil_append] at h
  exact ⟨hnil, List.singleton_inj.mp (h.eq_of_length rfl)⟩

/-- A database call that makes a sync due: it moves a ride on that has the driver. -/
structure Incurred (op : Op) (g g' : Progress) (es : List Exec) (db db' : TripDb)
    (driverId : String) (status : DriverStatus) (id : String) (tgt : RideStatus)
    (row row' : RideRow) : Prop where
  ride : op.ride = some id
  write : ∃ options, .transition id tgt options ∈ es
  sync : syncStatus tgt = some status
  cancels : op.cancels = true → tgt = .cancelled
  found : db.findRide id = some row
  driver : row.driverId = some driverId
  after : db'.findRide id = some row'
  driver' : row'.driverId = some driverId
  unstaged : g.staged = []
  committed : g'.done = true → row'.status = tgt
  staged : g'.done = false →
    tgt = .cancelled ∧ ∃ options, .transition id .cancelled options ∈ g'.staged

/-- Only such a call makes a sync due. -/
theorem due_exec (hpre : op.Allows (.db c) g) (hx : db.exec c = .ok (v, db')) {driverId : String}
    {status : DriverStatus} (hdue : (g.afterValue c v).due = some (driverId, status)) :
    ∃ id tgt row row',
      Incurred op g (g.afterValue c v) c.writes db db' driverId status id tgt row row' := by
  have hidle (hsame : (g.afterValue c v).due = g.due) : False := by
    rw [hsame, hpre.idle.1] at hdue
    cases hdue
  have hkept {options : TransitionOptions} {row row' : RideRow} {tgt : RideStatus}
      {reason : Option (Option String)} {now : Nat} (hopt : options.driverId = none)
      (hv : row' = (options.data tgt reason).apply now row) : row'.driverId = row.driverId := by
    rw [hv]
    change (truthy options.driverId).or row.driverId = row.driverId
    rw [hopt]
    rfl
  cases c with
  | begin key => exact (hidle rfl).elim
  | commit tx => exact (hidle rfl).elim
  | findRide id => cases v <;> exact (hidle rfl).elim
  | getOtp id => exact (hidle rfl).elim
  | findActive driverId => exact (hidle rfl).elim
  | findByRider riderId limit => exact (hidle rfl).elim
  | findByDriver driverId limit => exact (hidle rfl).elim
  | transact e =>
      obtain ⟨hfree, he, -⟩ := hpre
      change e.sync v = some (driverId, status) at hdue
      obtain ⟨id, tgt, options, rfl, hride, -, hopt, -⟩ := he.transition
      obtain ⟨row₀, reason, hrow₀, -, hv, hfind, -⟩ := Exec.transition_ok hx
      obtain ⟨hdr, hst⟩ := syncOf_eq_some.mp hdue
      have hdr := (truthy_eq_some.mp hdr).1
      exact ⟨id, tgt, row₀, v, hride, ⟨options, .head _⟩, hst, he.cancelled, hrow₀,
        (hkept hopt hv).symm.trans hdr, by rw [hfind, if_pos rfl], hdr, hfree.staged,
        fun _ => by rw [hv]; rfl, nofun⟩
  | exec tx e =>
      obtain ⟨-, hopen, hstaged, event, eventId, hop, -, hbegin, -⟩ := hpre
      have hdb := TripDb.exec_of_not_commits rfl hx
      obtain ⟨row, hrow, heq⟩ := map_eq_ok.mp hx
      cases heq
      change e.sync v = some (driverId, status) at hdue
      have hmem : e ∈ event.writes := hbegin.mem (List.mem_append_right _ (.head _))
      obtain ⟨id, options, rfl⟩ := RideEvent.cancels_of_sync hmem hdue
      obtain ⟨hwrites, hride, hopt⟩ := RideEvent.writes_cancelled hmem
      rw [hwrites] at hbegin
      obtain ⟨hnil, -⟩ := staged_of_singleton hbegin
      -- the statement runs on the database as it is, and keeps the driver
      obtain ⟨db₁, db₂, happ, he⟩ := Tx.exec_ok.mp hrow
      rw [hnil] at happ
      cases happ
      obtain ⟨row₀, reason, hrow₀, -, hv, -⟩ := Exec.transition_ok he
      obtain ⟨hdr, hst⟩ := syncOf_eq_some.mp hdue
      have hdr₀ := (hkept hopt hv).symm.trans (truthy_eq_some.mp hdr).1
      refine ⟨id, .cancelled, row₀, row₀, (Op.ride_of_event hop).trans hride, ⟨options, .head _⟩,
        hst, fun _ => rfl, hrow₀, hdr₀, hrow₀, hdr₀, hstaged.trans hnil, fun hdone => ?_,
        fun _ => ⟨rfl, options, List.mem_append_right _ (.head _)⟩⟩
      cases hopen.symm.trans hdone

/-! ## Statuses -/

/-- A ride that is there keeps its row, or gets a status that is written. -/
theorem findRide_applyAll {es : List Exec} (h : applyAll es db = .ok db') {id : String}
    {row : RideRow} (hrow : db.findRide id = some row) :
    db'.findRide id = some row ∨ ∃ row' options, db'.findRide id = some row' ∧
      .transition id row'.status options ∈ es := by
  induction es generalizing db row with
  | nil =>
      cases h
      exact .inl hrow
  | cons e es ih =>
      obtain ⟨row₁, db₁, he, h⟩ := applyAll_cons.mp h
      have hlater {row₁ : RideRow} (hrow₁ : db₁.findRide id = some row₁)
          (hfirst : row₁ = row ∨ ∃ options, .transition id row₁.status options ∈ e :: es) :
          db'.findRide id = some row ∨ ∃ row' options, db'.findRide id = some row' ∧
            .transition id row'.status options ∈ e :: es := by
        rcases ih h hrow₁ with hsame | ⟨row', options, hrow', hmem⟩
        · rcases hfirst with rfl | ⟨options, hmem⟩
          · exact .inl hsame
          · exact .inr ⟨row₁, options, hsame, hmem⟩
        · exact .inr ⟨row', options, hrow', .tail _ hmem⟩
      cases e with
      | create input =>
          obtain ⟨hnone, -, -, -, hfind, -⟩ := Exec.create_ok he
          have hid : id ≠ input.id := by
            rintro rfl
            rw [hnone] at hrow
            cases hrow
          exact hlater ((hfind id).trans ((if_neg hid).trans hrow)) (.inl rfl)
      | transition id' tgt options =>
          obtain ⟨row₀, reason, hrow₀, -, hrow₁, hfind, -⟩ := Exec.transition_ok he
          by_cases hid : id = id'
          · subst hid
            refine hlater ((hfind id).trans (if_pos rfl)) (.inr ⟨options, ?_⟩)
            rw [hrow₁]
            exact .head _
          · exact hlater ((hfind id).trans ((if_neg hid).trans hrow)) (.inl rfl)

/-- The same for what a database call commits. -/
theorem findRide_commits {key : Option ProcessedEventRow} {es : List Exec}
    (hc : (Cmd.db c).commits = some (key, es)) (hx : db.exec c = .ok (v, db')) {id : String}
    {row : RideRow} (hrow : db.findRide id = some row) :
    db'.findRide id = some row ∨ ∃ row' options, db'.findRide id = some row' ∧
      .transition id row'.status options ∈ es := by
  obtain ⟨db₁, hdb₁, happ⟩ := applyCommit_rows (TripDb.exec_of_commits hc hx)
  rw [← hdb₁] at hrow
  exact findRide_applyAll happ hrow

/-! ## Handled events -/

theorem processed_applyAll {es : List Exec} (h : applyAll es db = .ok db') :
    db'.processedEvents = db.processedEvents := by
  induction es generalizing db with
  | nil =>
      cases h
      rfl
  | cons e es ih =>
      obtain ⟨row, db₁, he, h⟩ := applyAll_cons.mp h
      refine (ih h).trans ?_
      cases e with
      | create input =>
          obtain ⟨-, -, -, -, -, -, hpe, -⟩ := Exec.create_ok he
          exact hpe
      | transition id tgt options =>
          obtain ⟨row, reason, -, -, -, -, -, hpe, -⟩ := Exec.transition_ok he
          exact hpe

/-- Only the commit of an event makes a key taken. -/
theorem processed_exec (hpre : op.Allows (.db c) g) (hx : db.exec c = .ok (v, db'))
    {key : ProcessedEventRow} (hkey : db'.processed key = true) :
    db.processed key = true ∨ (g.afterValue c v).done = true ∧
      ∃ event eventId, op.event = some (event, eventId) ∧ key = ⟨eventId, consumerName⟩ := by
  unfold TripDb.processed at *
  cases c with
  | commit tx =>
      obtain ⟨-, -, -, event, eventId, hop, hk, -⟩ := hpre
      obtain ⟨db₂, hcommit, heq⟩ := map_eq_ok.mp hx
      cases heq
      obtain ⟨db₁, hpe, happ⟩ := Tx.commit_ok.mp hcommit
      rw [processed_applyAll happ] at hkey
      unfold TripDb.createProcessedEvent at hpe
      split at hpe
      · cases hpe
      · cases hpe
        rw [List.contains_iff_mem, List.mem_append, List.mem_singleton] at hkey
        rcases hkey with hmem | rfl
        · exact .inl (List.contains_iff_mem.mpr hmem)
        · exact .inr ⟨rfl, event, eventId, hop, hk⟩
  | transact e =>
      left
      have happ : applyAll [e] db = .ok db' := applyAll_cons.mpr ⟨v, db', hx, rfl⟩
      rwa [processed_applyAll happ] at hkey
  | _ =>
      left
      rwa [TripDb.exec_of_not_commits rfl hx] at hkey

/-- A transition is never refused with P2002. -/
theorem Exec.transition_error {id : String} {tgt : RideStatus} {options : TransitionOptions} :
    (Exec.transition id tgt options).apply db ≠ .error .uniqueConstraint := by
  intro h
  rcases bind_eq_error.mp h with hreason | ⟨reason, -, h⟩
  · unfold storedReason at hreason
    split at hreason <;> cases hreason
  · rcases bind_eq_error.mp h with hupdate | ⟨p, -, h⟩
    · unfold TripDb.updateRide at hupdate
      split at hupdate <;> cases hupdate
    · cases h

/-- While an event is handled that changes an existing ride, P2002 means that
its key is taken. -/
theorem processed_of_duplicate (hpre : op.Allows (.db c) g)
    (hx : db.exec c = .error .uniqueConstraint) {event : RideEvent} {eventId : Nat}
    (hop : op.event = some (event, eventId)) {id : String} {tgt : RideStatus}
    {options : TransitionOptions} (hwrites : event.writes = [.transition id tgt options]) :
    db.processed ⟨eventId, consumerName⟩ = true := by
  cases c with
  | begin key =>
      obtain ⟨-, event', eventId', hop', rfl⟩ := hpre
      rw [hop] at hop'
      cases hop'
      have h := map_eq_error.mp hx
      unfold TripDb.beginProcessed at h
      split at h
      next hkey => exact hkey
      next => cases h
  | exec tx e =>
      obtain ⟨-, -, -, event', eventId', hop', -, hbegin, -⟩ := hpre
      rw [hop] at hop'
      cases hop'
      rw [hwrites] at hbegin
      obtain ⟨hnil, rfl⟩ := staged_of_singleton hbegin
      have h := map_eq_error.mp hx
      unfold Tx.exec at h
      rw [hnil] at h
      rcases bind_eq_error.mp h with h | ⟨db₁, hdb₁, h⟩
      · cases h
      · rcases bind_eq_error.mp h with h | ⟨p, -, h⟩
        · exact absurd h Exec.transition_error
        · cases h
  | commit tx =>
      obtain ⟨-, -, -, event', eventId', hop', hkey, hstaged, -⟩ := hpre
      rw [hop] at hop'
      cases hop'
      rcases bind_eq_error.mp (map_eq_error.mp hx) with h | ⟨db₁, -, h⟩
      · unfold TripDb.createProcessedEvent at h
        split at h
        next hk => rwa [hkey] at hk
        next => cases h
      · rw [hstaged, hwrites] at h
        rcases bind_eq_error.mp h with h | ⟨p, -, h⟩
        · exact absurd h Exec.transition_error
        · cases h
  | transact e =>
      obtain ⟨-, -, -, -, -, hnone, -⟩ := Op.Transacts.transition hpre.2.1
      rw [hop] at hnone
      cases hnone
  | findRide id => cases hx
  | getOtp id => cases hx
  | findActive driverId => cases hx
  | findByRider riderId limit => cases hx
  | findByDriver driverId limit => cases hx

end Effects

end TripService

end RydTrip
