import RydTrip.EventSchema
import RydTrip.Process.Prog

/-!
# The driver status in driver-service

`services/driver-service/src/drivers`: the state machine, `updateStatus` with the
two repository calls it makes, and what the `PATCH /drivers/:id/status` route
answers.  A driver row is its status here.  The profile columns are copied by
these functions and not read.
-/

namespace RydTrip

open Process

/-- `ALLOWED_TRANSITIONS`. -/
def DriverStatus.allowedTransitions : DriverStatus → List DriverStatus
  | .offline => [.available, .suspended]
  | .available => [.offline, .reserved, .suspended]
  | .reserved => [.available, .onTrip]
  | .onTrip => [.available]
  | .suspended => [.offline]

def canTransitionDriverStatus (src tgt : DriverStatus) : Bool :=
  src.allowedTransitions.contains tgt

/-- The message of `InvalidDriverTransitionError`. -/
def invalidDriverTransitionMessage (src tgt : DriverStatus) : String :=
  s!"Invalid driver status transition: {src.text} -> {tgt.text}"

namespace Drivers

/-! ## Commands -/

/-- One Prisma call of the repository. -/
inductive Cmd where
  | findUnique (id : String)
  | update (id : String) (status : DriverStatus)
  deriving DecidableEq, Repr

/-- The row it resolves with.  An update of a missing row is rejected. -/
@[reducible] def Reply : Cmd → Type
  | .findUnique _ => Option DriverStatus
  | .update .. => Option DriverStatus

/-- The exceptions of the driver service. -/
inductive DriverError where
  | notFound (message : String)
  | conflict (message : String)
  | recordNotFound
  deriving DecidableEq, Repr

/-- The asynchronous code of the driver service. -/
abbrev DriverProg (α : Type) : Type := Prog Cmd Reply DriverError α

/-! ## The service -/

namespace DriversRepository

def findById (id : String) : DriverProg (Option DriverStatus) :=
  Prog.perform (Cmd.findUnique id)

def updateStatus (id : String) (status : DriverStatus) : DriverProg DriverStatus := do
  let row : Option DriverStatus ← Prog.perform (Cmd.update id status)
  match row with
  | some status => return status
  | none => throw .recordNotFound

end DriversRepository

namespace DriversService

def findById (id : String) : DriverProg DriverStatus := do
  match ← DriversRepository.findById id with
  | some driver => return driver
  | none => throw (.notFound s!"Driver {id} not found")

def assertValidDriverTransition (src tgt : DriverStatus) : DriverProg Unit :=
  if canTransitionDriverStatus src tgt then pure ()
  else throw (.conflict (invalidDriverTransitionMessage src tgt))

def updateStatus (id : String) (targetStatus : DriverStatus) : DriverProg DriverStatus := do
  let driver ← findById id
  assertValidDriverTransition driver targetStatus
  DriversRepository.updateStatus id targetStatus

/-- One await after the other. -/
theorem updateStatus_eq (id : String) (targetStatus : DriverStatus) :
    updateStatus id targetStatus =
      .call (.findUnique id) fun (row : Option DriverStatus) =>
        match row with
        | none => .throw (.notFound s!"Driver {id} not found")
        | some driver =>
            if canTransitionDriverStatus driver targetStatus then
              DriversRepository.updateStatus id targetStatus
            else .throw (.conflict (invalidDriverTransitionMessage driver targetStatus)) := by
  unfold updateStatus findById assertValidDriverTransition DriversRepository.findById
  simp only [Prog.perform_bind, Prog.call_bind]
  congr
  funext row
  cases row with
  | none => rfl
  | some driver =>
      simp only [Prog.pure_eq, Prog.ret_bind]
      split
      · rfl
      · rfl

end DriversService

/-- What the caller of the route sees. -/
def respond : Except DriverError DriverStatus → PatchReply
  | .ok _ => .response 200
  | .error (.notFound _) => .response 404
  | .error (.conflict _) => .response 409
  | .error .recordNotFound => .response 500

end Drivers

end RydTrip
