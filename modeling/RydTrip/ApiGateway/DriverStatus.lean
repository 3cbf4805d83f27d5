import RydTrip.ApiGateway.Agreement
import RydTrip.ApiGateway.Trips
import RydTrip.DriverService.StatusSafety

/-!
# What drivers do to their own status

`PATCH /drivers/:id/status` of `drivers.controller.ts` behind the gateway.  The
route and the table of transitions serve dispatch-service, trip-service and
operators as well, and the gateway only makes sure that the row is the driver's
own.  `lifecycleKept_iff` says in which runs a driver stays out of the trip
lifecycle.
-/

namespace RydTrip

open Process

/-- The statuses between which the driver app toggles. -/
def DriverStatus.Toggle : DriverStatus → Prop
  | .offline | .available => True
  | _ => False

namespace ApiGateway

open Http Drivers

/-! ## DTO and controller -/

/-- What `UpdateDriverStatusDto` looks at in a body. -/
structure StatusBody where
  status : JsonField := .missing
  deriving DecidableEq, Repr

/-- `Object.values(DriverStatus)` -/
def driverStatuses : List DriverStatus := [.offline, .available, .reserved, .onTrip, .suspended]

def statusMessage : String :=
  "status must be one of the following values: " ++
    ", ".intercalate (driverStatuses.map DriverStatus.text)

/-- The status of `UpdateDriverStatusDto`, or what is wrong with the body. -/
def updateDriverStatusDto (body : StatusBody) : Except (List String) DriverStatus :=
  match body.status with
  | .text text =>
      match driverStatuses.find? fun status => status.text = text with
      | some status => .ok status
      | none => .error [statusMessage]
  | _ => .error [statusMessage]

def DriversController.updateStatus (id : String) (status : DriverStatus) :
    DriverProg DriverStatus :=
  DriversService.updateStatus id status

/-- A call of the controller. -/
structure StatusCall where
  id : String
  status : DriverStatus
  deriving DecidableEq, Repr

/-- The call of `DriversController.updateStatus` that a forwarded request ends
in, if any. -/
def Forwarded.statusCall? (forwarded : Forwarded StatusBody) : Option StatusCall :=
  if forwarded.target = .driver then
    match dispatch forwarded.method forwarded.path driverRoutes with
    | .found ⟨_, _, .updateDriverStatus⟩ [id] =>
        match updateDriverStatusDto (forwarded.body.getD {}) with
        | .ok status => some ⟨id, status⟩
        | .error _ => none
    | _ => none
  else none

def Request.statusCall? (jwt : JwtService) (req : Request StatusBody) (uuid : String) :
    Option StatusCall :=
  match forward jwt req uuid with
  | .error _ => none
  | .ok (_, forwarded) => forwarded.statusCall?

/-! ## The machine -/

/-- What reaches driver-service: a request to the gateway, or a PATCH that
dispatch-service or trip-service sends. -/
inductive StatusArrival where
  | request (req : Request StatusBody) (uuid : String)
  | internal (update : StatusUpdate)

/-- The change of status that is asked for. -/
def StatusArrival.update? (jwt : JwtService) : StatusArrival → Option StatusUpdate
  | .internal update => some update
  | .request req uuid => do
      let call ← req.statusCall? jwt uuid
      return ⟨call.id, call.status⟩

/-- What driver-service runs.  The other routes leave the status of a row as it
is. -/
def StatusArrival.program (jwt : JwtService) :
    StatusArrival → DriverProg (Option DriverStatus)
  | .internal update => do return some (← DriversService.updateStatus update.id update.targetStatus)
  | .request req uuid =>
      match req.statusCall? jwt uuid with
      | some call => do return some (← DriversController.updateStatus call.id call.status)
      | none => return none

/-- The rows of the drivers under such arrivals.  What else happens to a row
(a registration, or what operators do to the table) comes from the world. -/
def statusMachine (jwt : JwtService) :
    Machine DriverTable StatusArrival Cmd Reply DriverError (Option DriverStatus) Unit
      StatusUpdate where
  exec _ c rows := some (rows.exec c)
  start arrival rows := some (arrival.program jwt, rows)
  env update rows := some (Function.update rows update.id (some update.targetStatus))

abbrev StatusPool : Type :=
  Pool DriverTable StatusArrival Cmd Reply DriverError (Option DriverStatus)

abbrev StatusAction : Type := Action StatusArrival Unit StatusUpdate

/-- Drivers with any status, and nothing under way. -/
def atRest (rows : DriverTable) : StatusPool := ⟨rows, fun _ => none⟩

/-! ## What is wanted -/

/-- The step is one of a request with the driver's own token. -/
def OwnStep (jwt : JwtService) (id : String) (s : StatusPool) (a : StatusAction) : Prop :=
  ∃ i o req uuid p log, a = .run i o ∧ s.threads i = some ⟨.request req uuid, p, log⟩ ∧
    req.user? jwt = some ⟨id, .driver⟩

/-- The own requests of a driver move nobody in or out of the trip lifecycle. -/
def LifecycleKept (jwt : JwtService) (s : StatusPool) (a : StatusAction) (t : StatusPool) : Prop :=
  ∀ id src, OwnStep jwt id s a → s.world id = some src →
    ∃ tgt, t.world id = some tgt ∧ (src.Toggle → tgt.Toggle) ∧ (¬ src.Toggle → tgt = src)

/-! ## When it holds -/

/-- The row has been read, and the transition table allows the update. -/
def Passed (update : StatusUpdate) (log : DriverLog) : Prop :=
  ∃ seen, log = [⟨.findUnique update.id, some seen⟩] ∧
    canTransitionDriverStatus seen update.targetStatus = true

/-- An own request that has passed the transition table toggles, or asks for what
the driver is already. -/
def OnlyToggles (jwt : JwtService) (s : StatusPool) (a : StatusAction) (_ : StatusPool) : Prop :=
  ∀ i o req uuid p log id tgt src, a = .run i o →
    s.threads i = some ⟨.request req uuid, p, log⟩ → req.user? jwt = some ⟨id, .driver⟩ →
    (StatusArrival.request req uuid).update? jwt = some ⟨id, tgt⟩ → Passed ⟨id, tgt⟩ log →
    s.world id = some src → src.Toggle ∧ tgt.Toggle ∨ tgt = src

/-! ## What a call has read -/

/-- A write is the one that is asked for, and comes after a read that allows
it. -/
def ReadFirst (jwt : JwtService) (arrival : StatusArrival) : (c : Cmd) → DriverLog → Prop
  | .findUnique _, log => log = []
  | .update id tgt, log => arrival.update? jwt = some ⟨id, tgt⟩ ∧ Passed ⟨id, tgt⟩ log

/-- Whoever has passed the transition table is not done yet. -/
def Done (jwt : JwtService) (arrival : StatusArrival) (log : DriverLog) : Prop :=
  ∀ update, arrival.update? jwt = some update → ¬ Passed update log

/-- What is left of a program that reads, checks and writes. -/
def StatusChecked {α : Type} (jwt : JwtService) (arrival : StatusArrival) (p : DriverProg α)
    (log : DriverLog) : Prop :=
  p.wp (logSpec (ReadFirst jwt arrival) fun _ _ => True) (fun _ => Done jwt arrival)
    (fun _ => Done jwt arrival) log

section Programs

variable {jwt : JwtService} {arrival : StatusArrival} {α β : Type}

theorem StatusChecked.map {p : DriverProg α} {log : DriverLog} (f : α → β)
    (hp : StatusChecked jwt arrival p log) :
    StatusChecked jwt arrival (do return f (← p)) log := by
  unfold StatusChecked
  rw [Prog.wp_bind]
  exact hp

theorem updateStatus_checked {update : StatusUpdate}
    (harrival : arrival.update? jwt = some update) :
    StatusChecked jwt arrival (DriversService.updateStatus update.id update.targetStatus) [] := by
  unfold StatusChecked
  rw [DriversService.updateStatus_eq]
  refine ⟨rfl, fun row _ => ?_⟩
  cases row with
  | none =>
      intro update' hupdate hpassed
      rw [harrival] at hupdate
      cases hupdate
      obtain ⟨seen, hlog, -⟩ := hpassed
      cases hlog
  | some driver =>
      dsimp only
      split
      next hcan =>
        refine ⟨⟨harrival, driver, rfl, hcan⟩, fun row _ => ?_⟩
        have hdone (status : Option DriverStatus) : Done jwt arrival
            [⟨.update update.id update.targetStatus, status⟩,
              ⟨.findUnique update.id, some driver⟩] := by
          intro update' _ hpassed
          obtain ⟨seen, hlog, -⟩ := hpassed
          cases hlog
        cases row with
        | none => exact hdone none
        | some status => exact hdone (some status)
      next hcan =>
        intro update' hupdate hpassed
        rw [harrival] at hupdate
        cases hupdate
        obtain ⟨seen, hlog, hseen⟩ := hpassed
        cases hlog
        exact hcan hseen

theorem program_checked (jwt : JwtService) (arrival : StatusArrival) :
    StatusChecked jwt arrival (arrival.program jwt) [] := by
  cases arrival with
  | internal update => exact (updateStatus_checked rfl).map some
  | request req uuid =>
      cases hcall : req.statusCall? jwt uuid with
      | none =>
          have hnone : (StatusArrival.request req uuid).update? jwt = none := by
            simp only [StatusArrival.update?, hcall, Option.bind_eq_bind, Option.bind_none]
          simp only [StatusArrival.program, hcall]
          intro update hupdate
          rw [hnone] at hupdate
          cases hupdate
      | some call =>
          have hupdate : (StatusArrival.request req uuid).update? jwt =
              some ⟨call.id, call.status⟩ := by
            simp only [StatusArrival.update?, hcall, Option.bind_eq_bind, Option.bind_some]
            rfl
          simp only [StatusArrival.program, hcall]
          exact (updateStatus_checked hupdate).map some

end Programs

/-- Every call is to read, check and write. -/
def CallsChecked (jwt : JwtService) (s : StatusPool) : Prop :=
  ∀ i th, s.threads i = some th → StatusChecked jwt th.call th.prog th.log

section Tables

variable {rows : DriverTable} {id id' : String} {src tgt : DriverStatus}

theorem exec_update_self (h : rows id = some src) :
    (rows.exec (.update id tgt)).2 id = some tgt := by
  rw [DriverTable.exec, if_pos (Option.isSome_of_eq_some h)]
  exact Function.update_self id _ _

theorem exec_update_of_ne (h : id ≠ id') : (rows.exec (.update id' tgt)).2 id = rows id := by
  rw [DriverTable.exec]
  split
  · exact Function.update_of_ne h _ _
  · rfl

end Tables

section Steps

variable {jwt : JwtService} {s t : StatusPool} {a : StatusAction} {i : Nat}
  {arrival : StatusArrival} {p : DriverProg (Option DriverStatus)} {log : DriverLog}

theorem atRest_callsChecked (rows : DriverTable) : CallsChecked jwt (atRest rows) := by
  intro i th hi
  cases hi

theorem CallsChecked.step (hs : CallsChecked jwt s) (h : (statusMachine jwt).Step s a t) :
    CallsChecked jwt t := by
  refine Machine.wp_step (Q := fun arrival _ => Done jwt arrival)
    (E := fun arrival _ => Done jwt arrival) (fun i arrival w p w' _ hstart => ?_)
    (fun _ _ _ _ _ _ _ => trivial) hs h
  cases hstart
  exact program_checked jwt arrival

/-- Who has passed the transition table writes next. -/
theorem CallsChecked.writes (hs : CallsChecked jwt s) (hi : s.threads i = some ⟨arrival, p, log⟩)
    {id : String} {tgt : DriverStatus} (hupdate : arrival.update? jwt = some ⟨id, tgt⟩)
    (hpassed : Passed ⟨id, tgt⟩ log) : ∃ k, p = .call (.update id tgt) k := by
  have hchecked : StatusChecked jwt arrival p log := hs i _ hi
  cases p with
  | ret row => exact absurd hpassed (hchecked _ hupdate)
  | throw e => exact absurd hpassed (hchecked _ hupdate)
  | call c k =>
      cases c with
      | findUnique id' =>
          obtain ⟨seen, hlog, -⟩ := hpassed
          have hempty : log = [] := hchecked.1
          rw [hempty] at hlog
          cases hlog
      | update id' tgt' =>
          obtain ⟨hupdate', -⟩ := hchecked.1
          rw [hupdate] at hupdate'
          cases hupdate'
          exact ⟨k, rfl⟩

theorem CallsChecked.lifecycleKept (hs : CallsChecked jwt s)
    (h : (statusMachine jwt).Step s a t) (htoggles : OnlyToggles jwt s a t) :
    LifecycleKept jwt s a t := by
  rintro id src ⟨i, o, req, uuid, p, log, rfl, hi, hfrom⟩ hsrc
  have hsame (hworld : t.world id = some src) : ∃ tgt, t.world id = some tgt ∧
      (src.Toggle → tgt.Toggle) ∧ (¬ src.Toggle → tgt = src) :=
    ⟨src, hworld, fun htoggle => htoggle, fun _ => rfl⟩
  cases h with
  | @run _ _ call c k log' r w hi' hr =>
      rw [hi] at hi'
      cases hi'
      obtain rfl : (s.world.exec c).2 = w := congrArg Prod.snd (Option.some.inj hr)
      cases c with
      | findUnique id' => exact hsame hsrc
      | update id' tgt =>
          obtain ⟨hupdate, hpassed⟩ := (hs i _ hi).1
          by_cases hid : id = id'
          · subst hid
            refine ⟨tgt, exec_update_self hsrc, fun htoggle => ?_, fun hbusy => ?_⟩
            · rcases htoggles i o req uuid _ log id tgt src rfl hi hfrom hupdate hpassed hsrc with
                hboth | hsrctgt
              · exact hboth.2
              · rw [hsrctgt]
                exact htoggle
            · rcases htoggles i o req uuid _ log id tgt src rfl hi hfrom hupdate hpassed hsrc with
                hboth | hsrctgt
              · exact absurd hboth.1 hbusy
              · exact hsrctgt
          · exact hsame ((exec_update_of_ne hid).trans hsrc)

theorem CallsChecked.onlyToggles (hs : CallsChecked jwt s)
    (h : (statusMachine jwt).Step s a t) (hkept : LifecycleKept jwt s a t) :
    OnlyToggles jwt s a t := by
  rintro i o req uuid p log id tgt src rfl hi hfrom hupdate hpassed hsrc
  obtain ⟨tgt', htgt', htoggle, hbusy⟩ :=
    hkept id src ⟨i, o, req, uuid, p, log, rfl, hi, hfrom⟩ hsrc
  obtain ⟨k, rfl⟩ := hs.writes hi hupdate hpassed
  have hwritten : t.world id = some tgt := by
    cases h with
    | @run _ _ call c k' log' r w hi' hr =>
        rw [hi] at hi'
        cases hi'
        obtain rfl : (s.world.exec (.update id tgt)).2 = w := congrArg Prod.snd (Option.some.inj hr)
        exact exec_update_self hsrc
  rw [hwritten] at htgt'
  cases htgt'
  by_cases hsrctoggle : src.Toggle
  · exact .inl ⟨hsrctoggle, htoggle hsrctoggle⟩
  · exact .inr (hbusy hsrctoggle)

end Steps

/-! ## Runs -/

/-- Drivers keep out of the trip lifecycle in exactly the runs in which their
own requests toggle, or change nothing. -/
theorem lifecycleKept_iff (jwt : JwtService) (rows : DriverTable) (acts : List StatusAction) :
    (statusMachine jwt).Along (LifecycleKept jwt) (atRest rows) acts ↔
      (statusMachine jwt).Along (OnlyToggles jwt) (atRest rows) acts :=
  Machine.along_congr (atRest_callsChecked rows) (fun _ _ _ hs h => hs.step h)
    fun _ _ _ hs h => ⟨hs.onlyToggles h, hs.lifecycleKept h⟩

/-! ## A driver who drops a reservation -/

/-- `PATCH /drivers/driver-1/status` with the token of `driver-1`. -/
def ownPatch (status : String) : Request StatusBody where
  method := "PATCH"
  path := "drivers/driver-1/status".toList
  headers name := if name = "authorization" then some "Bearer t" else none
  limit := none
  body := { status := .text status }

def goAvailable : List StatusAction :=
  [.spawn 0 (.request (ownPatch "AVAILABLE") "c"), .run 0 (), .run 0 ()]

theorem not_lifecycleKept_reserved : ¬ ∀ jwt rows acts,
    (statusMachine jwt).Along (LifecycleKept jwt) (atRest rows) acts := by
  intro h
  have hkept := h (trusting ⟨"driver-1", .driver⟩ (by decide)) (fun _ => some .reserved) goAvailable
  have hsplit : goAvailable = goAvailable.take 2 ++ [.run 0 ()] := rfl
  rw [hsplit] at hkept
  have hlast := hkept.suffix rfl
  obtain ⟨tgt, htgt, -, hbusy⟩ := (hlast _ rfl).1 "driver-1" .reserved
    ⟨0, (), ownPatch "AVAILABLE", "c", _, _, rfl, rfl, rfl⟩ rfl
  have havailable : some DriverStatus.available = some tgt := htgt
  have hreserved := hbusy not_false
  rw [hreserved] at havailable
  cases havailable

end ApiGateway

end RydTrip
