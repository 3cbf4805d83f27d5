import RydTrip.Accounts.Table
import RydTrip.Process.Pool

/-!
# Registration, profiles and login

`RidersService` and `DriversService` with their repositories
(`services/rider-service/src/riders`, `services/driver-service/src/drivers`).
The two differ in their DTOs, in the columns of the profile and in the texts of
their errors, so there is one definition of each method over a `Service`, and
`riders` and `drivers` are its instances.  A DTO is what its class-validator
decorators accept.

bcrypt, the draw of a salt or an id, and the signature of a token come from
outside.
-/

namespace RydTrip

namespace Accounts

open Process

/-! ## DTOs -/

/-- A value under `@IsOptional()`, which `null` passes too. -/
inductive OptionalField (α : Type) where
  | undefined
  | null
  | value (a : α)

/-- `...(value !== undefined ? { column: value } : {})`, into a column that
takes no `null`. -/
def OptionalField.column {α : Type} : OptionalField α → Except PrismaError (Option α)
  | .undefined => .ok none
  | .null => .error .nullArgument
  | .value a => .ok (some a)

/-- `@MinLength(6)` -/
abbrev Password : Type := { s : String // 6 ≤ s.length }

/-- What both create DTOs ask of an account. -/
structure Credentials (v : EmailCheck) where
  phone : NonEmpty
  email : Email v
  password : Password

structure CreateRiderDto (v : EmailCheck) extends Credentials v where
  name : NonEmpty

structure UpdateRiderDto (v : EmailCheck) where
  name : OptionalField NonEmpty
  phone : OptionalField NonEmpty
  email : OptionalField (Email v)

/-- `VEHICLE_TYPES` -/
inductive VehicleType where
  | sedan | suv | hatchback | auto | bike
  deriving DecidableEq, Repr

structure CreateDriverDto (v : EmailCheck) extends Credentials v where
  name : NonEmpty
  vehicleType : VehicleType
  city : NonEmpty
  licenseNumber : NonEmpty
  vehicleRegistrationNumber : NonEmpty
  insurancePolicyNumber : NonEmpty
  permitNumber : Option String

structure UpdateDriverDto (v : EmailCheck) where
  name : OptionalField NonEmpty
  phone : OptionalField NonEmpty
  email : OptionalField (Email v)
  city : OptionalField NonEmpty

/-- `LoginRiderDto` and `LoginDriverDto`. -/
structure LoginDto where
  identifier : NonEmpty
  password : NonEmpty

structure RiderProfile where
  name : NonEmpty

structure DriverProfile where
  name : NonEmpty
  vehicleType : VehicleType
  city : NonEmpty
  licenseNumber : NonEmpty
  vehicleRegistrationNumber : NonEmpty
  insurancePolicyNumber : NonEmpty
  permitNumber : Option String

/-- What the two services differ in. -/
structure Service (v : EmailCheck) (π : Type) where
  /-- The role in the token, and the noun of the errors. -/
  role : String
  label : String
  CreateDto : Type
  UpdateDto : Type
  credentials : CreateDto → Credentials v
  profile : CreateDto → π
  /-- The `data` of an update, unless it holds a `null`. -/
  changes : UpdateDto → Except PrismaError (Changes v π)

def UpdateRiderDto.changes {v : EmailCheck} (dto : UpdateRiderDto v) :
    Except PrismaError (Changes v RiderProfile) := do
  let name ← dto.name.column
  let phone ← dto.phone.column
  let email ← dto.email.column
  return ⟨phone, email, fun p => { p with name := name.getD p.name }⟩

def UpdateDriverDto.changes {v : EmailCheck} (dto : UpdateDriverDto v) :
    Except PrismaError (Changes v DriverProfile) := do
  let name ← dto.name.column
  let phone ← dto.phone.column
  let email ← dto.email.column
  let city ← dto.city.column
  return ⟨phone, email, fun p => { p with name := name.getD p.name, city := city.getD p.city }⟩

def riders (v : EmailCheck) : Service v RiderProfile where
  role := "rider"
  label := "Rider"
  CreateDto := CreateRiderDto v
  UpdateDto := UpdateRiderDto v
  credentials dto := dto.toCredentials
  profile dto := ⟨dto.name⟩
  changes := UpdateRiderDto.changes

def drivers (v : EmailCheck) : Service v DriverProfile where
  role := "driver"
  label := "Driver"
  CreateDto := CreateDriverDto v
  UpdateDto := UpdateDriverDto v
  credentials dto := dto.toCredentials
  profile dto :=
    { name := dto.name, vehicleType := dto.vehicleType, city := dto.city
      licenseNumber := dto.licenseNumber
      vehicleRegistrationNumber := dto.vehicleRegistrationNumber
      insurancePolicyNumber := dto.insurancePolicyNumber, permitNumber := dto.permitNumber }
  changes := UpdateDriverDto.changes

variable {v : EmailCheck} {π : Type}

/-! ## Commands -/

/-- The `data` of a create. -/
structure AccountData (v : EmailCheck) (π : Type) where
  phone : NonEmpty
  email : Email v
  passwordHash : String
  profile : π

/-- What is signed. -/
structure Claims where
  sub : String
  role : String
  phone : String
  email : String
  deriving DecidableEq, Repr

/-- One await. -/
inductive Cmd (v : EmailCheck) (π : Type) where
  | hash (password : String)
  | create (data : AccountData v π)
  | findById (id : String)
  | update (id : String) (changes : Changes v π)
  | findFirst (identifier : String)
  | compare (password passwordHash : String)
  | sign (claims : Claims)

@[reducible] def Reply : Cmd v π → Type
  | .hash _ => String
  | .create _ => Except PrismaError (AccountRow v π)
  | .findById _ => Option (AccountRow v π)
  | .update .. => Except PrismaError (AccountRow v π)
  | .findFirst _ => Option (AccountRow v π)
  | .compare .. => Bool
  | .sign _ => String

inductive AccountError where
  | notFound (message : String)
  | conflict (message : String)
  | unauthorized (message : String)
  | prisma (err : PrismaError)
  deriving DecidableEq, Repr

abbrev AccountProg (v : EmailCheck) (π α : Type) : Type := Prog (Cmd v π) Reply AccountError α

/-- Await a statement. -/
def orThrow {α : Type} : Except PrismaError α → AccountProg v π α
  | .ok a => pure a
  | .error err => throw (.prisma err)

/-! ## The methods -/

/-- What a login resolves with, for either service. -/
structure AuthResult (v : EmailCheck) (π : Type) where
  accessToken : String
  account : AccountRow v π

namespace Service

variable (svc : Service v π)

/-- P2002 becomes a 409. -/
def conflictOf (err : AccountError) : AccountProg v π (AccountRow v π) :=
  match err with
  | .prisma (.uniqueConstraint target) =>
      throw (.conflict s!"A {svc.role} with this {target} is already registered")
  | err => throw err

def create (dto : svc.CreateDto) : AccountProg v π (AccountRow v π) := do
  let credentials := svc.credentials dto
  let passwordHash : String ← Prog.perform (Cmd.hash credentials.password.val)
  tryCatchThe AccountError
    (do
      let created : Except PrismaError (AccountRow v π) ← Prog.perform
        (Cmd.create ⟨credentials.phone, credentials.email, passwordHash, svc.profile dto⟩)
      orThrow created)
    svc.conflictOf

def findById (id : String) : AccountProg v π (AccountRow v π) := do
  let row : Option (AccountRow v π) ← Prog.perform (Cmd.findById id)
  match row with
  | some row => return row
  | none => throw (.notFound s!"{svc.label} {id} not found")

def updateProfile (id : String) (dto : svc.UpdateDto) : AccountProg v π (AccountRow v π) := do
  let _ ← svc.findById id
  tryCatchThe AccountError
    (do
      let changes ← orThrow (svc.changes dto)
      let updated : Except PrismaError (AccountRow v π) ← Prog.perform (Cmd.update id changes)
      orThrow updated)
    svc.conflictOf

def login (dto : LoginDto) : AccountProg v π (AuthResult v π) := do
  let row : Option (AccountRow v π) ← Prog.perform (Cmd.findFirst dto.identifier.val)
  match row with
  | none => throw (.unauthorized "Invalid credentials")
  | some row =>
      let same : Bool ← Prog.perform (Cmd.compare dto.password.val row.passwordHash)
      if !same then throw (.unauthorized "Invalid credentials")
      else
        let accessToken : String ← Prog.perform
          (Cmd.sign ⟨row.id, svc.role, row.phone.val, row.email.val⟩)
        return ⟨accessToken, row⟩

end Service

/-! ## The machine -/

/-- bcrypt: a password passes against every hash of its own. -/
structure Bcrypt where
  hash : (salt password : String) → String
  compare : (password passwordHash : String) → Bool
  compare_hash : ∀ salt password, compare password (hash salt password) = true

inductive Call (svc : Service v π) where
  | create (dto : svc.CreateDto)
  | findById (id : String)
  | updateProfile (id : String) (dto : svc.UpdateDto)
  | login (dto : LoginDto)

inductive Response (v : EmailCheck) (π : Type) where
  | account (row : AccountRow v π)
  | auth (result : AuthResult v π)

def Call.prog {svc : Service v π} : Call svc → AccountProg v π (Response v π)
  | .create dto => do return .account (← svc.create dto)
  | .findById id => do return .account (← svc.findById id)
  | .updateProfile id dto => do return .account (← svc.updateProfile id dto)
  | .login dto => do return .auth (← svc.login dto)

/-- The draws, and the row that `findFirst` prefers. -/
structure Oracle where
  salt : String := ""
  id : String := ""
  choice : Nat := 0
  token : String := ""

/-- The row of a create with a new id. -/
def AccountData.row (data : AccountData v π) (id : String) : AccountRow v π :=
  ⟨id, data.phone, data.email, data.passwordHash, data.profile⟩

def exec (bcrypt : Bcrypt) (o : Oracle) (table : AccountTable v π) :
    (c : Cmd v π) → Reply c × AccountTable v π
  | .hash password => (bcrypt.hash o.salt password, table)
  | .create data =>
      match table.create (data.row o.id) with
      | .ok table' => (.ok (data.row o.id), table')
      | .error err => (.error err, table)
  | .findById id => (table.findById id, table)
  | .update id changes =>
      match table.update id changes with
      | .ok (row, table') => (.ok row, table')
      | .error err => (.error err, table)
  | .findFirst identifier => (table.findFirst o.choice identifier, table)
  | .compare password passwordHash => (bcrypt.compare password passwordHash, table)
  | .sign _ => (o.token, table)

def machine (svc : Service v π) (bcrypt : Bcrypt) :
    Machine (AccountTable v π) (Call svc) (Cmd v π) Reply AccountError (Response v π) Oracle
      Empty where
  exec o c table := some (exec bcrypt o table c)
  start call table := some (call.prog, table)
  env a _ := nomatch a

abbrev AccountPool (svc : Service v π) : Type :=
  Pool (AccountTable v π) (Call svc) (Cmd v π) Reply AccountError (Response v π)

abbrev AccountAction (svc : Service v π) : Type := Action (Call svc) Oracle Empty

/-- No accounts. -/
def initial (svc : Service v π) : AccountPool svc := ⟨.empty, fun _ => none⟩

end Accounts

end RydTrip
