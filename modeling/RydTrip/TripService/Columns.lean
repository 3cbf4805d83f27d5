import RydTrip.TripService.Distance
import RydTrip.TripService.Sequential

/-!
# The columns of a ride follow its status

Every operation writes a few columns of its own through the one `transition` of
the repository.  `Columns` collects which of them are set, so what a ride has in
a status is a matter of the way to that status.  Operations are executed one at a
time here.

The code follows the status whatever is sent.  The fare and the distance do when
the distance is a number: `NaN` is stored as `NULL`.  The driver and the
cancellation reason do when they are named: an empty `driverId` and a reason that
is `null` or empty pass their guards and are not stored, and a reason that is
`{"set": null}` clears the column.
-/

namespace RydTrip

namespace TripService

open Process

/-! ## What an operation writes -/

/-- The options of a transition to the status. -/
structure Columns (tgt : RideStatus) (options : TransitionOptions) : Prop where
  otp : options.otp.isSome ↔ tgt = .driverArriving
  clearOtp : options.clearOtp = true ↔ tgt = .inProgress
  fare : options.fare.isSome ↔ tgt = .completed
  distanceKm : options.distanceKm.isSome ↔ tgt = .completed
  driverId : options.driverId.isSome ↔ tgt = .matched
  reason : tgt ≠ .cancelled → options.cancellationReason = .undefined

/-- An operation writes one transition with the columns of its status, or it
inserts a ride and moves it to MATCHING. -/
theorem Op.Writes.columns {op : Op} {key : Option ProcessedEventRow} {es : List Exec}
    (h : op.Writes key es) :
    (∃ id tgt options, es = [.transition id tgt options] ∧ Columns tgt options) ∨
      ∃ input, es = [.create input, .transition input.id .matching {}] := by
  rcases h.single with ⟨id, tgt, options, rfl, hsingle⟩ | ⟨input, -, -, rfl⟩
  · refine .inl ⟨id, tgt, options, rfl, ?_⟩
    cases hsingle <;> constructor <;> simp
  · exact .inr ⟨input, rfl⟩

/-! ## What a step does to a row -/

section Steps

variable {haversineKm : GeoPoint → GeoPoint → Option Rat} {s t : TripPool} {a : TripAction}
  {id : String} {row' : RideRow}

/-- The row of a new ride in MATCHING. -/
structure Fresh (row : RideRow) : Prop where
  status : row.status = .matching
  driverId : row.driverId = none
  cancellationReason : row.cancellationReason = none
  otp : row.otp = none
  fare : row.fare = none
  distanceKm : row.distanceKm = none

/-- The step commits a transition that leads from one row to the other. -/
structure Moves (s : TripPool) (a : TripAction) (id : String) (tgt : RideStatus)
    (options : TransitionOptions) (reason : Option (Option String)) (row row' : RideRow) :
    Prop where
  commits : ∃ op log key, CommitsAt s a op log key [.transition id tgt options]
  before : s.world.db.findRide id = some row
  allowed : canTransitionRideStatus row.status tgt = true
  columns : Columns tgt options
  stored : storedReason options.cancellationReason = .ok reason
  row : ∃ now, row' = (options.data tgt reason).apply now row

theorem fresh_of_create {db db' : TripDb} {input : CreateRideInput}
    (h : applyAll [.create input, .transition input.id .matching {}] db = .ok db')
    (hrow : db'.findRide input.id = some row') : Fresh row' := by
  obtain ⟨created, db₁, reason, now, hinsert, hreason, rfl⟩ := applyAll_create_row h hrow
  cases hreason
  unfold TripDb.createRide at hinsert
  split at hinsert
  · cases hinsert
  · cases hinsert
    exact ⟨rfl, rfl, rfl, rfl, rfl, rfl⟩

/-- A transition that commits in turn moves the ride that it names and no other. -/
theorem Sequential.moves {op : Op} {log : TripLog} {key : Option ProcessedEventRow}
    {tgt : RideStatus} {options : TransitionOptions} (hs : Sequential s) (hturn : InTurn s a)
    (hc : CommitsAt s a op log key [.transition id tgt options])
    (hstep : (machine haversineKm).Step s a t) :
    ∃ reason row row', Moves s a id tgt options reason row row' ∧
      ∀ id', t.world.db.findRide id' =
        if id' = id then some row' else s.world.db.findRide id' := by
  obtain ⟨row, hrow, hcan⟩ := hs.allowed hturn hc
  obtain ⟨db₁, hsame, happ⟩ := applyCommit_rows (hc.applied hstep)
  obtain ⟨row', db₂, he, hnil⟩ := applyAll_cons.mp happ
  cases hnil
  obtain ⟨row₀, reason, hrow₀, hreason, hrow', hfind, -⟩ := Exec.transition_ok he
  rw [hsame, hrow] at hrow₀
  cases hrow₀
  have hcolumns : Columns tgt options := by
    rcases (hs.commit.writes hc).1.columns with ⟨id', tgt', options', heq, hcolumns⟩ | ⟨input, heq⟩
    · cases heq
      exact hcolumns
    · cases heq
  refine ⟨reason, row, row', ⟨⟨op, log, key, hc⟩, hrow, hcan, hcolumns, hreason, _, hrow'⟩, ?_⟩
  intro id'
  rw [hfind, hsame]

/-- A row after a step in turn was there before, or is new, or has been moved. -/
theorem Sequential.row_cases (hs : Sequential s) (hturn : InTurn s a)
    (hstep : (machine haversineKm).Step s a t) (hrow' : t.world.db.findRide id = some row') :
    s.world.db.findRide id = some row' ∨ Fresh row' ∨
      ∃ tgt options reason row, Moves s a id tgt options reason row row' := by
  by_cases hcom : ∃ op log key es, CommitsAt s a op log key es
  · obtain ⟨op, log, key, es, hc⟩ := hcom
    rcases (hs.commit.writes hc).1.columns with ⟨id', tgt, options, rfl, -⟩ | ⟨input, rfl⟩
    · obtain ⟨reason, row, row₁, hmoves, hfind⟩ := hs.moves hturn hc hstep
      rw [hfind] at hrow'
      by_cases hid : id = id'
      · subst hid
        rw [if_pos rfl] at hrow'
        cases hrow'
        exact .inr (.inr ⟨tgt, options, reason, row, hmoves⟩)
      · rw [if_neg hid] at hrow'
        exact .inl hrow'
    · obtain ⟨db₁, hsame, happ⟩ := applyCommit_rows (hc.applied hstep)
      by_cases hid : id = input.id
      · subst hid
        exact .inr (.inl (fresh_of_create happ hrow'))
      · obtain ⟨-, -, hothers⟩ := applyAll_create happ
        rw [hothers id hid, hsame] at hrow'
        exact .inl hrow'
  · push Not at hcom
    rw [(sameTables_of_not_commits hstep hcom).findRide] at hrow'
    exact .inl hrow'

end Steps

/-! ## Code, fare and distance -/

/-- What a ride has in its status, the driver and the reason apart. -/
structure RideRow.ColumnsFollow (row : RideRow) : Prop where
  otp : row.status ≠ .cancelled →
    (row.otp.isSome ↔ row.status = .driverArriving ∨ row.status = .driverArrived)
  fare : row.fare.isSome ↔ row.status = .completed
  distanceKm : row.distanceKm.isSome ↔ row.status = .completed
  status : row.status ≠ .requested

/-- The part of it that no distance can upset. -/
structure RideRow.ColumnsBound (row : RideRow) : Prop where
  otp : row.status ≠ .cancelled →
    (row.otp.isSome ↔ row.status = .driverArriving ∨ row.status = .driverArrived)
  fare : row.fare.isSome → row.status = .completed
  distanceKm : row.distanceKm.isSome → row.status = .completed
  status : row.status ≠ .requested

/-- The rest is that a completed ride has a fare and a distance. -/
theorem RideRow.ColumnsBound.columnsFollow {row : RideRow} (h : row.ColumnsBound)
    (hfare : row.status = .completed → row.fare.isSome)
    (hdistanceKm : row.status = .completed → row.distanceKm.isSome) : row.ColumnsFollow :=
  ⟨h.otp, ⟨h.fare, hfare⟩, ⟨h.distanceKm, hdistanceKm⟩, h.status⟩

theorem Fresh.columnsBound {row : RideRow} (h : Fresh row) : row.ColumnsBound where
  otp := by
    intro _
    rw [h.otp, h.status]
    decide
  fare := by
    rw [h.fare]
    exact nofun
  distanceKm := by
    rw [h.distanceKm]
    exact nofun
  status := by
    rw [h.status]
    decide

theorem Fresh.columnsFollow {row : RideRow} (h : Fresh row) : row.ColumnsFollow := by
  have hcompleted : row.status ≠ .completed := by
    rw [h.status]
    decide
  exact h.columnsBound.columnsFollow (fun heq => absurd heq hcompleted)
    fun heq => absurd heq hcompleted

section Columns

variable {haversineKm : GeoPoint → GeoPoint → Option Rat} {s t : TripPool} {a : TripAction}
  {id : String} {tgt : RideStatus} {options : TransitionOptions} {reason : Option (Option String)}
  {row row' : RideRow} {op : Op} {log : TripLog} {key : Option ProcessedEventRow} {es : List Exec}

/-- A column that is written on the way to COMPLETED only. -/
theorem completed_of_isSome {α : Type} {src tgt : RideStatus} {old : Option α}
    {new : Option (Option α)} (hcan : canTransitionRideStatus src tgt = true)
    (hold : old.isSome → src = .completed) (hnew : new.isSome ↔ tgt = .completed)
    (h : (new.getD old).isSome) : tgt = .completed := by
  cases new with
  | some value => exact hnew.mp rfl
  | none =>
      have hsrc := hold h
      subst hsrc
      cases hcan

/-- Between two statuses of a ride whose code is not touched it is waited for in
both or in none of them. -/
theorem waits_iff_of_transition {src tgt : RideStatus}
    (hcan : canTransitionRideStatus src tgt = true) (hcancelled : tgt ≠ .cancelled)
    (harriving : tgt ≠ .driverArriving) (hstarted : tgt ≠ .inProgress) :
    src ≠ .cancelled ∧ ((src = .driverArriving ∨ src = .driverArrived) ↔
      (tgt = .driverArriving ∨ tgt = .driverArrived)) := by
  revert hcan
  cases src <;> cases tgt <;> first | contradiction | decide

/-- A transition keeps the code in step with the status. -/
theorem Moves.otp (h : Moves s a id tgt options reason row row') (hrow : row.ColumnsBound)
    (hcancelled : tgt ≠ .cancelled) :
    row'.otp.isSome ↔ tgt = .driverArriving ∨ tgt = .driverArrived := by
  obtain ⟨now, rfl⟩ := h.row
  show ((if options.clearOtp then some none else options.otp.map some).getD row.otp).isSome ↔ _
  by_cases hstarted : tgt = .inProgress
  · rw [if_pos (h.columns.clearOtp.mpr hstarted), Option.getD_some, hstarted]
    decide
  rw [if_neg (mt h.columns.clearOtp.mp hstarted)]
  by_cases harriving : tgt = .driverArriving
  · obtain ⟨code, hcode⟩ := Option.isSome_iff_exists.mp (h.columns.otp.mpr harriving)
    rw [hcode, harriving, Option.map_some, Option.getD_some]
    exact ⟨fun _ => .inl rfl, fun _ => rfl⟩
  · have hcode : options.otp = none := by
      rw [← Option.not_isSome_iff_eq_none, h.columns.otp]
      exact harriving
    obtain ⟨hlive, hwaits⟩ := waits_iff_of_transition h.allowed hcancelled harriving hstarted
    rw [hcode]
    exact (hrow.otp hlive).trans hwaits

/-- A transition sets no column before its status. -/
theorem Moves.columnsBound (h : Moves s a id tgt options reason row row')
    (hrow : row.ColumnsBound) : row'.ColumnsBound := by
  have hotp := h.otp hrow
  obtain ⟨now, rfl⟩ := h.row
  refine ⟨hotp, completed_of_isSome h.allowed hrow.fare h.columns.fare,
    completed_of_isSome h.allowed hrow.distanceKm h.columns.distanceKm, ?_⟩
  rintro rfl
  have hcan := h.allowed
  revert hcan
  cases row.status <;> decide

/-- No ride has a column before its status. -/
structure Followed (s : TripPool) : Prop where
  sequential : Sequential s
  rows : ∀ id row, s.world.db.findRide id = some row → row.ColumnsBound

theorem initial_followed : Followed (initial .empty) where
  sequential := initial_sequential .empty
  rows := by
    rintro id row ⟨⟩

theorem Followed.step (hs : Followed s) (hturn : InTurn s a)
    (hstep : (machine haversineKm).Step s a t) : Followed t where
  sequential := hs.sequential.step hturn hstep
  rows := by
    intro id row' hrow'
    rcases hs.sequential.row_cases hturn hstep hrow' with
      hsame | hfresh | ⟨tgt, options, reason, row, hmoves⟩
    · exact hs.rows id row' hsame
    · exact hfresh.columnsBound
    · exact hmoves.columnsBound (hs.rows id row hmoves.before)

/-! ### What a completion writes -/

/-- The statement of `complete` for the ride it has read. -/
def completeExec (haversineKm : GeoPoint → GeoPoint → Option Rat) (id : String) (row : RideRow) :
    Exec :=
  let distanceKm := TripsService.tripDistance haversineKm (toDomain row)
  .transition id .completed
    { fare := some (TripsService.fareFor distanceKm), distanceKm := some distanceKm }

/-- A completion writes the distance of the ride it has read. -/
def DistanceRead (haversineKm : GeoPoint → GeoPoint → Option Rat) (id : String) (es : List Exec)
    (log : TripLog) : Prop :=
  ∃ row, log = [⟨.db (.findRide id), .ok (some row)⟩] ∧ es = [completeExec haversineKm id row]

/-- So does every completion that is under way. -/
def CompletionsRead (haversineKm : GeoPoint → GeoPoint → Option Rat) (s : TripPool) : Prop :=
  ∀ i th, s.threads i = some th →
    Commits (fun _ es log => ∀ id, th.call = .complete id → DistanceRead haversineKm id es log)
      th.prog th.log

theorem commits_complete_read :
    Commits (fun _ es log => DistanceRead haversineKm id es log)
      (TripsService.complete haversineKm id) [] := by
  have hE : ∀ (e : TripError) (log : TripLog), True := fun _ _ => trivial
  refine Prog.wp_seq (Prog.wp_seq (Prog.wp_seq (spec_query trivial (fun row _ => ?_) hE)))
  cases row with
  | none => trivial
  | some row =>
      refine Prog.wp_seq (spec_guardTransition (fun _ => ?_) hE)
      refine Prog.wp_seq (spec_transact ⟨row, rfl, rfl⟩ (fun _ _ => ?_) hE)
      exact Prog.wp_seq (spec_syncRideDriver fun _ _ => trivial)

theorem CompletionsRead.step (hs : CompletionsRead haversineKm s)
    (hstep : (machine haversineKm).Step s a t) : CompletionsRead haversineKm t := by
  refine Machine.obeys_step (m := machine haversineKm)
    (P := fun op => CommitsWithin fun _ es log => ∀ id, op = .complete id →
      DistanceRead haversineKm id es log) ?_ ?_ hs hstep
  · rintro i op w p w' - ⟨⟩
    cases op with
    | complete id =>
        have hprogram : Commits (fun _ es log => DistanceRead haversineKm id es log)
            (TripsService.program haversineKm (.complete id)) [] :=
          Prog.Obeys.bind commits_complete_read fun _ _ => trivial
        refine hprogram.mono fun c log => CommitsWithin.mono fun key es log h => ?_
        rintro id' ⟨⟩
        exact h
    | _ =>
        exact (program_commits haversineKm _).mono fun c log =>
          CommitsWithin.mono fun key es log _ id h => by cases h
  · intro i o c r w' _ h
    exact replyKnown_of_exec (Option.some.inj h)

theorem CompletionsRead.read (hs : CompletionsRead haversineKm s)
    (h : CommitsAt s a (.complete id) log key es) : DistanceRead haversineKm id es log := by
  obtain ⟨i, o, c, k, v, db, -, hi, -, -, hc⟩ := h
  have hcmd := (hs i _ hi).1
  cases c with
  | commit tx =>
      cases hc
      exact hcmd id rfl
  | transact e =>
      cases hc
      exact hcmd id rfl
  | _ => cases hc

/-- In turn, a completion writes the distance of the ride in the table. -/
theorem CompletionsRead.exec_eq (hs : CompletionsRead haversineKm s) (hseq : Sequential s)
    (hturn : InTurn s a) (hc : CommitsAt s a (.complete id) log key es)
    (hrow : s.world.db.findRide id = some row) : es = [completeExec haversineKm id row] := by
  obtain ⟨row₀, rfl, rfl⟩ := hs.read hc
  obtain ⟨i, o, c, k, v, db, rfl, hi, -⟩ := hc
  have hread : some row₀ = s.world.db.findRide id := hseq.current i _ hi hturn _ (.head _)
  rw [hrow] at hread
  cases hread
  rfl

/-! ### Distances that are numbers -/

/-- Every ride has the columns of its status. -/
def ColumnsFollow (s : TripPool) : Prop :=
  ∀ id row, s.world.db.findRide id = some row → row.ColumnsFollow

/-- The distance of a ride that is completed in the step is a number. -/
def CommitsMeasured (haversineKm : GeoPoint → GeoPoint → Option Rat) (s : TripPool)
    (a : TripAction) (_ : TripPool) : Prop :=
  ∀ id log key es row, CommitsAt s a (.complete id) log key es →
    s.world.db.findRide id = some row → (haversineKm row.pickup row.destination).isSome

/-- A completion sets both columns if the distance is a number, and none of them
otherwise. -/
theorem Moves.columnsFollow_iff
    (h : Moves s a id .completed options reason row row')
    (hexec : .transition id .completed options = completeExec haversineKm id row)
    (hrow : row.ColumnsBound) :
    row'.ColumnsFollow ↔ (haversineKm row.pickup row.destination).isSome := by
  have hbound := h.columnsBound hrow
  obtain ⟨now, rfl⟩ := h.row
  cases hexec
  have hdistance (ride : Ride) : (TripsService.tripDistance haversineKm ride).isSome =
      (haversineKm ride.pickup ride.destination).isSome := Option.isSome_map
  have hfare (km : Option Rat) : (TripsService.fareFor km).isSome = km.isSome := Option.isSome_map
  constructor
  · intro hfollow
    exact (hdistance (toDomain row)).symm.trans (hfollow.distanceKm.mpr rfl)
  · intro hsome
    have hkm := (hdistance (toDomain row)).trans hsome
    exact hbound.columnsFollow (fun _ => (hfare _).trans hkm) fun _ => hkm

/-- What holds of every pool that is reached in turn. -/
structure Completing (haversineKm : GeoPoint → GeoPoint → Option Rat) (s : TripPool) : Prop where
  followed : Followed s
  read : CompletionsRead haversineKm s

theorem initial_completing : Completing haversineKm (initial .empty) where
  followed := initial_followed
  read := by
    rintro i th ⟨⟩

theorem Completing.step (hs : Completing haversineKm s) (hturn : InTurn s a)
    (hstep : (machine haversineKm).Step s a t) : Completing haversineKm t :=
  ⟨hs.followed.step hturn hstep, hs.read.step hstep⟩

theorem columnsFollow_iff (hs : Completing haversineKm s) (hfollow : ColumnsFollow s)
    (hturn : InTurn s a) (hstep : (machine haversineKm).Step s a t) :
    ColumnsFollow t ↔ CommitsMeasured haversineKm s a t := by
  have hseq := hs.followed.sequential
  constructor
  · intro hfollow' id log key es row hc hrow
    have hexec := hs.read.exec_eq hseq hturn hc hrow
    subst hexec
    obtain ⟨reason, row₀, row', hmoves, hfind⟩ := hseq.moves hturn hc hstep
    have hbefore := hmoves.before
    rw [hrow] at hbefore
    cases hbefore
    have hrow' := hfollow' id row' (by rw [hfind, if_pos rfl])
    exact (hmoves.columnsFollow_iff rfl (hs.followed.rows id row hrow)).mp hrow'
  · intro hmeasured id row' hrow'
    rcases hseq.row_cases hturn hstep hrow' with
      hsame | hfresh | ⟨tgt, options, reason, row, hmoves⟩
    · exact hfollow id row' hsame
    · exact hfresh.columnsFollow
    · have hrow := hs.followed.rows id row hmoves.before
      obtain ⟨op, log, key, hc⟩ := hmoves.commits
      by_cases hcompleted : tgt = .completed
      · subst hcompleted
        have hop := (hseq.commit.writes hc).1.completes
        subst hop
        have hexec := List.singleton_inj.mp (hs.read.exec_eq hseq hturn hc hmoves.before)
        exact (hmoves.columnsFollow_iff hexec hrow).mpr
          (hmeasured id log key _ row hc hmoves.before)
      · have hbound := hmoves.columnsBound hrow
        obtain ⟨now, rfl⟩ := hmoves.row
        exact hbound.columnsFollow (fun h => absurd h hcompleted) fun h => absurd h hcompleted

/-- With one operation at a time the code, the fare and the distance of every
ride follow its status in exactly the runs in which every ride that is completed
has a distance. -/
theorem columnsFollow_iff_commitsMeasured (math : JsMath) {acts : List TripAction}
    (hturn : (machine (TripsService.haversineKm math)).Along (fun s a _ => InTurn s a)
      (initial .empty) acts) :
    (machine (TripsService.haversineKm math)).Along (fun _ _ t => ColumnsFollow t)
        (initial .empty) acts ↔
      (machine (TripsService.haversineKm math)).Along
        (CommitsMeasured (TripsService.haversineKm math)) (initial .empty) acts := by
  have hfollow : ColumnsFollow (initial .empty) := by
    rintro id row ⟨⟩
  exact Machine.along_reached_iff_of initial_completing hfollow hturn
    (fun _ _ _ hs hturn hstep => hs.step hturn hstep)
    fun _ _ _ hs hfollow hturn hstep => columnsFollow_iff hs hfollow hturn hstep

end Columns

/-! ### A ride to its end -/

/-- A ride is requested, matched and accepted. -/
def acceptedInTurn (pickup destination : GeoPoint) : List TripAction :=
  [.spawn 0 (.handleRideRequested ⟨"r", "u", pickup, destination⟩ 0), .run 0 {}, .run 0 {},
    .run 0 {}, .run 0 {}, .spawn 1 (.handleDriverReserved "r" "d" 1), .run 1 {}, .run 1 {},
    .run 1 {}, .run 1 {}, .spawn 2 (.accept "r" ⟨8, by decide⟩), .run 2 {}, .run 2 {}]

/-- Then it is started and completed. -/
def completedInTurn (pickup destination : GeoPoint) : List TripAction :=
  acceptedInTurn pickup destination ++
    [.spawn 3 (.driverArrived "r"), .run 3 {}, .run 3 {}, .spawn 4 (.start "r" "0008" none),
      .run 4 {}, .run 4 {}, .run 4 {}, .run 4 {}, .spawn 5 (.complete "r"), .run 5 {}, .run 5 {},
      .run 5 {}]

theorem completedInTurn_inTurn (haversineKm : GeoPoint → GeoPoint → Option Rat)
    (pickup destination : GeoPoint) :
    (machine haversineKm).Along (fun s a _ => InTurn s a) (initial .empty)
      (completedInTurn pickup destination) :=
  Machine.along_inTurn (of_decide_eq_true rfl) (by rintro i th ⟨⟩)

/-- A ride that ends where it began. -/
theorem columnsFollow_iff_commitsMeasured_origin :
    (machine (TripsService.haversineKm engineMath)).Along (fun _ _ t => ColumnsFollow t)
      (initial .empty) (completedInTurn ⟨0, 0⟩ ⟨0, 0⟩) := by
  refine (columnsFollow_iff_commitsMeasured engineMath (completedInTurn_inTurn _ _ _)).mpr ?_
  have hkm : (TripsService.haversineKm engineMath ⟨0, 0⟩ ⟨0, 0⟩).isSome := by decide +kernel
  refine Machine.along_of_checks (p := fun s _ => s.world.db.rides.all fun row =>
    decide (row.pickup = ⟨0, 0⟩ ∧ row.destination = ⟨0, 0⟩)) ?_ rfl
  intro s a t hcheck id log key es row _ hrow
  have hpoints := List.all_eq_true.mp hcheck row (List.mem_of_find?_eq_some hrow)
  obtain ⟨hpickup, hdestination⟩ := of_decide_eq_true hpoints
  rw [hpickup, hdestination]
  exact hkm

/-- A ride between two points that are almost antipodal is completed without a
fare and a distance. -/
theorem not_columnsFollow_north_south :
    (machine (TripsService.haversineKm engineMath)).Along (fun s a _ => InTurn s a)
        (initial .empty) (completedInTurn northPoint southPoint) ∧
      ¬ (machine (TripsService.haversineKm engineMath)).Along (fun _ _ t => ColumnsFollow t)
        (initial .empty) (completedInTurn northPoint southPoint) := by
  refine ⟨completedInTurn_inTurn _ _ _, fun h => ?_⟩
  have hend : (((machine (TripsService.haversineKm engineMath)).run (initial .empty)
      (completedInTurn northPoint southPoint)).bind fun s =>
      (s.world.db.findRide "r").map fun row => (row.status, row.distanceKm)) =
      some (.completed, none) := by
    decide +kernel
  obtain ⟨s, hrun, hend⟩ := Option.bind_eq_some_iff.mp hend
  obtain ⟨row, hrow, hend⟩ := Option.map_eq_some_iff.mp hend
  obtain ⟨hstatus, hdistanceKm⟩ := Prod.mk.inj hend
  have hfollow : ColumnsFollow s := Machine.run_invariant (I := ColumnsFollow)
    (by rintro id row ⟨⟩) (fun _ _ _ _ hfollow _ => hfollow) hrun h
  have hsome := (hfollow "r" row hrow).distanceKm.mpr hstatus
  rw [hdistanceKm] at hsome
  cases hsome

/-! ## Driver and reason -/

/-- The reason is stored, or refused by the database. -/
def Given (reason : JsText) : Prop :=
  reason ≠ .falsy ∧ reason ≠ .text "" ∧ reason ≠ .update none

instance : DecidablePred Given := fun _ => by unfold Given; infer_instance

/-- The event names the driver or the reason it is about. -/
def RideEvent.Named : RideEvent → Prop
  | .cancelled _ reason => Given reason
  | .reserved _ driverId => driverId ≠ ""
  | _ => True

/-- So does the request or the event that an operation was started for. -/
def Op.Named : Op → Prop
  | .cancel _ reason => Given reason
  | op => ∀ event eventId, op.event = some (event, eventId) → event.Named

/-- The statement sets the driver of a match and the reason of a cancellation. -/
structure SetsParties (tgt : RideStatus) (options : TransitionOptions) : Prop where
  driver : tgt = .matched → truthy options.driverId ≠ none
  reason : tgt = .cancelled → ∀ reason, storedReason options.cancellationReason = .ok reason →
    (reason.getD none).isSome

theorem storedReason_isSome_iff (given : JsText) :
    (∀ reason, storedReason (TripsService.cancelReason given) = .ok reason →
      (reason.getD none).isSome) ↔ Given given := by
  have hok {x : Option (Option String)} :
      (∀ reason, (Except.ok x : Except PrismaError _) = .ok reason → (reason.getD none).isSome) ↔
        (x.getD none).isSome := by
    constructor
    · intro h
      exact h x rfl
    · rintro h reason ⟨⟩
      exact h
  cases given with
  | undefined => exact hok.trans ⟨fun _ => ⟨nofun, nofun, nofun⟩, fun _ => by decide⟩
  | falsy => exact hok.trans ⟨fun h => (by cases h), fun h => absurd rfl h.1⟩
  | text s =>
      show (∀ reason, Except.ok (if s = "" then none else some (some s)) = .ok reason → _) ↔ _
      by_cases hs : s = ""
      · rw [if_pos hs, hs]
        exact hok.trans ⟨fun h => (by cases h), fun h => absurd rfl h.2.1⟩
      · rw [if_neg hs]
        exact hok.trans ⟨fun _ => ⟨nofun, fun h => hs (JsText.text.inj h), nofun⟩, fun _ => rfl⟩
  | update set =>
      refine hok.trans ?_
      cases set with
      | none => exact ⟨fun h => (by cases h), fun h => absurd rfl h.2.2⟩
      | some s => exact ⟨fun _ => ⟨nofun, nofun, nofun⟩, fun _ => rfl⟩
  | other => exact ⟨fun _ => ⟨nofun, nofun, nofun⟩, fun _ => nofun⟩

theorem setsParties_cancelled (reason : JsText) :
    SetsParties .cancelled { cancellationReason := TripsService.cancelReason reason } ↔
      Given reason := by
  rw [← storedReason_isSome_iff]
  exact ⟨fun h => h.reason rfl, fun h => ⟨nofun, fun _ => h⟩⟩

theorem setsParties_matched (driverId : String) :
    SetsParties .matched { driverId := some driverId } ↔ driverId ≠ "" := by
  have hstored : truthy (some driverId) ≠ none ↔ driverId ≠ "" := by
    show (if driverId = "" then none else some driverId) ≠ none ↔ _
    by_cases hempty : driverId = ""
    · rw [if_pos hempty]
      exact ⟨fun h => absurd rfl h, fun h => absurd hempty h⟩
    · rw [if_neg hempty]
      exact ⟨fun _ => hempty, fun _ => nofun⟩
  rw [← hstored]
  exact ⟨fun h => h.driver rfl, fun h => ⟨fun _ => h, nofun⟩⟩

theorem setsParties_of_ne {tgt : RideStatus} {options : TransitionOptions}
    (hmatched : tgt ≠ .matched) (hcancelled : tgt ≠ .cancelled) : SetsParties tgt options :=
  ⟨fun h => absurd h hmatched, fun h => absurd h hcancelled⟩

theorem forall_transition_singleton {P : RideStatus → TransitionOptions → Prop} {id : String}
    {tgt : RideStatus} {options : TransitionOptions} :
    (∀ id' tgt' options', Exec.transition id' tgt' options' ∈ [.transition id tgt options] →
      P tgt' options') ↔ P tgt options := by
  constructor
  · intro h
    exact h id tgt options (.head _)
  · intro h id' tgt' options' hmem
    cases List.mem_singleton.mp hmem
    exact h

/-- What the statements of an event set is what the event names. -/
theorem RideEvent.named_iff (event : RideEvent) :
    event.Named ↔ ∀ id tgt options, .transition id tgt options ∈ event.writes →
      SetsParties tgt options := by
  cases event with
  | requested input =>
      refine ⟨fun _ id tgt options hmem => ?_, fun _ => trivial⟩
      rcases List.mem_cons.mp hmem with hmem | hmem
      · cases hmem
      · cases List.mem_singleton.mp hmem
        exact setsParties_of_ne (by decide) (by decide)
  | cancelled rideId reason =>
      exact (setsParties_cancelled reason).symm.trans forall_transition_singleton.symm
  | reserved rideId driverId =>
      exact (setsParties_matched driverId).symm.trans forall_transition_singleton.symm
  | rejected rideId =>
      refine ⟨fun _ => forall_transition_singleton.mpr ?_, fun _ => trivial⟩
      exact (setsParties_cancelled (.text _)).mpr (by decide)

/-- An operation sets the driver and the reason exactly if they were named. -/
theorem Op.Writes.named_iff {op : Op} {key : Option ProcessedEventRow} {es : List Exec}
    (h : op.Writes key es) :
    op.Named ↔ ∀ id tgt options, .transition id tgt options ∈ es → SetsParties tgt options := by
  cases key with
  | some key =>
      obtain ⟨event, eventId, hevent, -, rfl⟩ := h
      rw [← RideEvent.named_iff]
      have hnamed : op.Named ↔
          ∀ event' eventId', op.event = some (event', eventId') → event'.Named := by
        cases op <;> first | exact Iff.rfl | cases hevent
      rw [hnamed, hevent]
      constructor
      · intro hall
        exact hall event eventId rfl
      · rintro hevent _ _ ⟨⟩
        exact hevent
  | none =>
      obtain ⟨e, he, rfl⟩ := h
      cases op with
      | cancel id reason =>
          cases he
          exact (setsParties_cancelled reason).symm.trans forall_transition_singleton.symm
      | decline id =>
          cases he
          refine ⟨fun _ => forall_transition_singleton.mpr ?_, fun _ => by rintro _ _ ⟨⟩⟩
          exact (setsParties_cancelled (.text _)).mpr (by decide)
      | complete id =>
          obtain ⟨fare, distanceKm, rfl⟩ := he
          exact ⟨fun _ => forall_transition_singleton.mpr
            (setsParties_of_ne (by decide) (by decide)), fun _ => by rintro _ _ ⟨⟩⟩
      | accept id draw =>
          cases he
          exact ⟨fun _ => forall_transition_singleton.mpr
            (setsParties_of_ne (by decide) (by decide)), fun _ => by rintro _ _ ⟨⟩⟩
      | driverArrived id =>
          cases he
          exact ⟨fun _ => forall_transition_singleton.mpr
            (setsParties_of_ne (by decide) (by decide)), fun _ => by rintro _ _ ⟨⟩⟩
      | start id otp callerDriverId =>
          cases he
          exact ⟨fun _ => forall_transition_singleton.mpr
            (setsParties_of_ne (by decide) (by decide)), fun _ => by rintro _ _ ⟨⟩⟩
      | _ => cases he

/-- Who drives a ride and why it was cancelled, as far as its status says so. -/
structure RideRow.PartiesFollow (row : RideRow) : Prop where
  driver : row.status.Active ∨ row.status = .completed → row.driverId.isSome
  unassigned : row.status = .matching → row.driverId = none
  reason : row.cancellationReason.isSome ↔ row.status = .cancelled

theorem Fresh.partiesFollow {row : RideRow} (h : Fresh row) : row.PartiesFollow where
  driver := by
    rw [h.status]
    rintro (⟨⟨⟩⟩ | ⟨⟨⟩⟩)
  unassigned := fun _ => h.driverId
  reason := by
    rw [h.cancellationReason, h.status]
    decide

section Parties

variable {haversineKm : GeoPoint → GeoPoint → Option Rat} {s t : TripPool} {a : TripAction}
  {id : String} {tgt : RideStatus} {options : TransitionOptions} {reason : Option (Option String)}
  {row row' : RideRow}

/-- A ride that gets or keeps a driver is matched now, or had one already. -/
theorem active_of_transition {src tgt : RideStatus} (hcan : canTransitionRideStatus src tgt = true)
    (htgt : tgt.Active ∨ tgt = .completed) (hmatched : tgt ≠ .matched) : src.Active := by
  revert hcan htgt
  cases src <;> cases tgt <;> first | contradiction | decide

/-- The reason after a transition is the one that is stored by it. -/
theorem Moves.reason_eq (h : Moves s a id tgt options reason row row')
    (hrow : row.PartiesFollow) : row'.cancellationReason = reason.getD none := by
  obtain ⟨now, rfl⟩ := h.row
  have hnone : row.cancellationReason = none := by
    rw [← Option.not_isSome_iff_eq_none, hrow.reason]
    intro hcancelled
    have hcan := h.allowed
    rw [hcancelled] at hcan
    cases hcan
  show reason.getD row.cancellationReason = reason.getD none
  rw [hnone]

/-- The driver and the reason stay in step with the status if the statement sets
them, and only then. -/
theorem Moves.partiesFollow_iff (h : Moves s a id tgt options reason row row')
    (hrow : row.PartiesFollow) (hstatus : row.status ≠ .requested) :
    row'.PartiesFollow ↔ SetsParties tgt options := by
  have hreason := h.reason_eq hrow
  have hstored := h.stored
  obtain ⟨now, rfl⟩ := h.row
  have hcan := h.allowed
  constructor
  · intro hrow'
    refine ⟨?_, ?_⟩
    · rintro rfl
      have hmatching : row.status = .matching := by
        revert hcan
        cases row.status <;> decide
      have hdriver : ((truthy options.driverId).or row.driverId).isSome :=
        hrow'.driver (.inl trivial)
      rw [hrow.unassigned hmatching, Option.or_none] at hdriver
      intro hnone
      rw [hnone] at hdriver
      cases hdriver
    · rintro rfl
      have hsome := hrow'.reason.mpr rfl
      rw [hreason] at hsome
      rw [hstored]
      rintro reason' ⟨⟩
      exact hsome
  · intro hsets
    refine ⟨?_, ?_, ?_⟩
    · intro htgt
      show ((truthy options.driverId).or row.driverId).isSome
      rw [Option.isSome_or, Bool.or_eq_true]
      by_cases hmatched : tgt = .matched
      · exact .inl (Option.isSome_iff_ne_none.mpr (hsets.driver hmatched))
      · exact .inr (hrow.driver (.inl (active_of_transition hcan htgt hmatched)))
    · rintro rfl
      refine absurd ?_ hstatus
      revert hcan
      cases row.status <;> decide
    · rw [hreason]
      show (reason.getD none).isSome ↔ tgt = .cancelled
      constructor
      · intro hsome
        by_contra hne
        rw [h.columns.reason hne] at hstored
        cases hstored
        cases hsome
      · rintro rfl
        exact hsets.reason rfl reason hstored

/-- Every ride has the driver and the reason of its status. -/
def PartiesKnown (s : TripPool) : Prop :=
  ∀ id row, s.world.db.findRide id = some row → row.PartiesFollow

/-- What is committed in the step names the driver or the reason it is about. -/
def CommitsNamed (s : TripPool) (a : TripAction) (_ : TripPool) : Prop :=
  ∀ op log key es, CommitsAt s a op log key es → op.Named

theorem partiesKnown_iff (hs : Followed s) (hknown : PartiesKnown s) (hturn : InTurn s a)
    (hstep : (machine haversineKm).Step s a t) : PartiesKnown t ↔ CommitsNamed s a t := by
  constructor
  · intro hknown' op log key es hc
    have hwrites := (hs.sequential.commit.writes hc).1
    rw [hwrites.named_iff]
    intro id tgt options hmem
    rcases hwrites.columns with ⟨id', tgt', options', rfl, -⟩ | ⟨input, rfl⟩
    · cases List.mem_singleton.mp hmem
      obtain ⟨reason, row, row', hmoves, hfind⟩ := hs.sequential.moves hturn hc hstep
      have hrow' := hknown' id row' (by rw [hfind, if_pos rfl])
      exact (hmoves.partiesFollow_iff (hknown id row hmoves.before)
        (hs.rows id row hmoves.before).status).mp hrow'
    · rcases List.mem_cons.mp hmem with hmem | hmem
      · cases hmem
      · cases List.mem_singleton.mp hmem
        exact setsParties_of_ne (by decide) (by decide)
  · intro hnamed id row' hrow'
    rcases hs.sequential.row_cases hturn hstep hrow' with
      hsame | hfresh | ⟨tgt, options, reason, row, hmoves⟩
    · exact hknown id row' hsame
    · exact hfresh.partiesFollow
    · obtain ⟨op, log, key, hc⟩ := hmoves.commits
      have hsets := (hs.sequential.commit.writes hc).1.named_iff.mp (hnamed op log key _ hc)
      exact (hmoves.partiesFollow_iff (hknown id row hmoves.before)
        (hs.rows id row hmoves.before).status).mpr (hsets id tgt options (.head _))

variable (haversineKm) in
/-- With one operation at a time the driver and the reason of every ride follow
its status in exactly the runs in which every operation that commits names them. -/
theorem partiesKnown_iff_commitsNamed {acts : List TripAction}
    (hturn : (machine haversineKm).Along (fun s a _ => InTurn s a) (initial .empty) acts) :
    (machine haversineKm).Along (fun _ _ t => PartiesKnown t) (initial .empty) acts ↔
      (machine haversineKm).Along CommitsNamed (initial .empty) acts := by
  have hknown : PartiesKnown (initial .empty) := by
    rintro id row ⟨⟩
  exact Machine.along_reached_iff_of initial_followed hknown hturn
    (fun _ _ _ hs hturn hstep => hs.step hturn hstep)
    fun _ _ _ hs hknown hturn hstep => partiesKnown_iff hs hknown hturn hstep

/-- It is enough that every operation that is started names them. -/
theorem commitsNamed_of_spawns {acts : List TripAction}
    (hs : ∀ i th, s.threads i = some th → th.call.Named)
    (hacts : ∀ i op, .spawn i op ∈ acts → op.Named) :
    (machine haversineKm).Along CommitsNamed s acts := by
  refine (Machine.along_calls (P := fun _ op => op.Named) hs hacts).mono ?_
  rintro s a t hnamed op log key es ⟨i, o, c, k, v, db, -, hi, -⟩
  exact hnamed i _ hi

end Parties

theorem partiesKnown_iff_commitsNamed_accepted :
    (machine fun _ _ => some 0).Along (fun _ _ t => PartiesKnown t) (initial .empty)
      (acceptedInTurn ⟨0, 0⟩ ⟨1, 1⟩) := by
  have hturn : (machine fun _ _ => some 0).Along (fun s a _ => InTurn s a) (initial .empty)
      (acceptedInTurn ⟨0, 0⟩ ⟨1, 1⟩) :=
    Machine.along_inTurn (by decide) (by rintro i th ⟨⟩)
  refine (partiesKnown_iff_commitsNamed (fun _ _ => some 0) hturn).mpr
    (commitsNamed_of_spawns ?_ ?_)
  · rintro i th ⟨⟩
  · intro i op hmem
    simp only [acceptedInTurn, List.mem_cons, reduceCtorEq, false_or, Action.spawn.injEq,
      List.not_mem_nil, or_false] at hmem
    rcases hmem with ⟨-, rfl⟩ | ⟨-, rfl⟩ | ⟨-, rfl⟩
    all_goals rintro event eventId ⟨⟩
    · trivial
    · show "d" ≠ ""
      decide

/-- A ride is cancelled with the body `{"reason": null}`. -/
def cancelledWithNull : List TripAction :=
  [.spawn 0 (.handleRideRequested ⟨"r", "u", ⟨0, 0⟩, ⟨1, 1⟩⟩ 0), .run 0 {}, .run 0 {}, .run 0 {},
    .run 0 {}, .spawn 1 (.cancel "r" .falsy), .run 1 {}, .run 1 {}]

/-- The default reason is for a missing one, so a cancelled ride has none. -/
theorem not_partiesKnown_cancelledWithNull :
    (machine fun _ _ => some 0).Along (fun s a _ => InTurn s a) (initial .empty) cancelledWithNull ∧
      ¬ (machine fun _ _ => some 0).Along (fun _ _ t => PartiesKnown t) (initial .empty)
        cancelledWithNull := by
  refine ⟨Machine.along_inTurn (by decide) (by rintro i th ⟨⟩), fun h => ?_⟩
  have hend : (((machine fun _ _ => some 0).run (initial .empty) cancelledWithNull).bind fun s =>
      (s.world.db.findRide "r").map fun row => (row.status, row.cancellationReason)) =
      some (.cancelled, none) := rfl
  obtain ⟨s, hrun, hend⟩ := Option.bind_eq_some_iff.mp hend
  obtain ⟨row, hrow, hend⟩ := Option.map_eq_some_iff.mp hend
  obtain ⟨hstatus, hreason⟩ := Prod.mk.inj hend
  have hknown : PartiesKnown s := Machine.run_invariant (I := PartiesKnown)
    (by rintro id row ⟨⟩) (fun _ _ _ _ hknown _ => hknown) hrun h
  have hsome := (hknown "r" row hrow).reason.mpr hstatus
  rw [hreason] at hsome
  cases hsome

end TripService

end RydTrip
