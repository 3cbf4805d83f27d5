import RydTrip.Accounts.Login

/-!
# What stands behind a token

A service signs the claims of an account in one place only, at the end of a
login.  By then the account has been found under an identifier of its own, and
a password has passed against its hash.  The hash is the one of the password
that the account was registered with, since an update does not write it.
-/

namespace RydTrip

namespace Accounts

open Process

variable {v : EmailCheck} {π : Type} {svc : Service v π} {bcrypt : Bcrypt}

/-! ## What a token is for -/

/-- The service has signed the token over the claims. -/
def Issued (s : AccountPool svc) (claims : Claims) (token : String) : Prop :=
  ∃ i th, s.threads i = some th ∧ ⟨.sign claims, token⟩ ∈ th.log

/-- The hash is the one of a password that the account was registered with. -/
def RegisteredHash (bcrypt : Bcrypt) (s : AccountPool svc) (id passwordHash : String) : Prop :=
  ∃ salt password, Registered s id password ∧ passwordHash = bcrypt.hash salt password.val

/-- Somebody has logged in to the account, with a password that passes against
the hash of the registered one. -/
def LoggedIn (bcrypt : Bcrypt) (s : AccountPool svc) (id : String) : Prop :=
  ∃ i th dto row, s.threads i = some th ∧ th.call = .login dto ∧
    ⟨.findFirst dto.identifier.val, some row⟩ ∈ th.log ∧ row.id = id ∧
    dto.identifier ∈ row.identifiers ∧ RegisteredHash bcrypt s id row.passwordHash ∧
    bcrypt.compare dto.password.val row.passwordHash = true

/-! ## The programs -/

/-- The log of a login that may sign. -/
def loginLog (dto : LoginDto) (row : AccountRow v π) : Log (Cmd v π) Reply :=
  [⟨.compare dto.password.val row.passwordHash, true⟩, ⟨.findFirst dto.identifier.val, some row⟩]

/-- Accounts are created by registrations, and claims are signed by logins. -/
def Vouches (call : Call svc) (c : Cmd v π) (log : Log (Cmd v π) Reply) : Prop :=
  (∀ data, c = .create data → ∃ dto, call = .create dto) ∧
    ∀ claims, c = .sign claims → ∃ dto row, call = .login dto ∧ log = loginLog dto row ∧
      claims = ⟨row.id, svc.role, row.phone.val, row.email.val⟩

/-- What replies say about logins. -/
def Matched (bcrypt : Bcrypt) : (c : Cmd v π) → Reply c → Prop
  | .findFirst identifier, some row => row.phone.val = identifier ∨ row.email.val = identifier
  | .compare password passwordHash, r => r = bcrypt.compare password passwordHash
  | _, _ => True

variable (bcrypt) in
theorem exec_matched (o : Oracle) (c : Cmd v π) (table : AccountTable v π) :
    Matched bcrypt c (exec bcrypt o table c).1 := by
  cases c with
  | findFirst identifier =>
      change Matched bcrypt (.findFirst identifier) (table.findFirst o.choice identifier)
      cases hfound : table.findFirst o.choice identifier with
      | none => trivial
      | some row =>
          have hmem := List.mem_of_getElem? hfound
          have hmatch : decide (row.phone.val = identifier ∨ row.email.val = identifier) = true :=
            (List.mem_filter.mp hmem).2
          change row.phone.val = identifier ∨ row.email.val = identifier
          exact of_decide_eq_true hmatch
  | compare password passwordHash => rfl
  | _ => trivial

theorem vouches_of_ne {call : Call svc} {c : Cmd v π} {log : Log (Cmd v π) Reply}
    (hcreate : ∀ data, c ≠ .create data) (hsign : ∀ claims, c ≠ .sign claims) :
    Vouches call c log :=
  ⟨fun data h => absurd h (hcreate data), fun claims h => absurd h (hsign claims)⟩

theorem create_vouches (dto : svc.CreateDto) :
    (svc.create dto).Obeys (Vouches (.create dto)) (Matched bcrypt) [] := by
  refine ⟨vouches_of_ne nofun nofun, fun passwordHash _ => ?_⟩
  refine Prog.Obeys.tryCatch ⟨⟨fun _ _ => ⟨dto, rfl⟩, nofun⟩, fun r _ => ?_⟩ conflictOf_obeys
  cases r with
  | ok row => exact obeys_ret _
  | error err => exact obeys_throw _

theorem findById_vouches {call : Call svc} {id : String} (log : Log (Cmd v π) Reply) :
    (svc.findById id).Obeys (Vouches call) (Matched bcrypt) log := by
  refine ⟨vouches_of_ne nofun nofun, fun row _ => ?_⟩
  cases row with
  | none => exact obeys_throw _
  | some row => exact obeys_ret _

theorem updateProfile_vouches {call : Call svc} {id : String} {dto : svc.UpdateDto} :
    (svc.updateProfile id dto).Obeys (Vouches call) (Matched bcrypt) [] := by
  refine Prog.Obeys.bind (findById_vouches []) fun _ log => ?_
  refine Prog.Obeys.tryCatch ?_ conflictOf_obeys
  cases svc.changes dto with
  | error err => exact obeys_throw _
  | ok changes =>
      refine ⟨vouches_of_ne nofun nofun, fun r _ => ?_⟩
      cases r with
      | ok row => exact obeys_ret _
      | error err => exact obeys_throw _

theorem login_vouches (dto : LoginDto) :
    (svc.login dto).Obeys (Vouches (.login dto : Call svc)) (Matched bcrypt) [] := by
  refine ⟨vouches_of_ne nofun nofun, fun row _ => ?_⟩
  cases row with
  | none => exact obeys_throw _
  | some row =>
      refine ⟨vouches_of_ne nofun nofun, fun same _ => ?_⟩
      cases same with
      | false => exact obeys_throw _
      | true => exact ⟨⟨nofun, fun claims h => ⟨dto, row, rfl, rfl, Cmd.sign.inj h.symm⟩⟩,
          fun _ _ => obeys_ret _⟩

theorem prog_vouches (call : Call svc) :
    call.prog.Obeys (Vouches call) (Matched bcrypt) [] := by
  cases call with
  | create dto => exact (create_vouches dto).bind fun _ _ => obeys_ret _
  | findById id => exact (findById_vouches []).bind fun _ _ => obeys_ret _
  | updateProfile id dto => exact updateProfile_vouches.bind fun _ _ => obeys_ret _
  | login dto => exact (login_vouches dto).bind fun _ _ => obeys_ret _

/-! ## Registrations -/

/-- The row is one that a registration has created, whatever has been written
to it since. -/
def Originates (s : AccountPool svc) (row : AccountRow v π) : Prop :=
  ∃ i th dto data created, s.threads i = some th ∧ th.call = .create dto ∧
    ⟨.create data, .ok created⟩ ∈ th.log ∧ created.id = row.id ∧
    created.passwordHash = row.passwordHash

/-- What holds of every pool reached. -/
structure TokenInv (bcrypt : Bcrypt) (s : AccountPool svc) : Prop where
  obeys : ∀ i th, s.threads i = some th →
    th.prog.Obeys (Vouches th.call) (Matched bcrypt) th.log
  recorded : ∀ i th, s.threads i = some th →
    Recorded (Vouches th.call) (Matched bcrypt) th.log
  rows : ∀ row ∈ s.world.rows, Originates s row
  found : ∀ i th identifier row, s.threads i = some th →
    ⟨.findFirst identifier, some row⟩ ∈ th.log → Originates s row

theorem initial_tokenInv : TokenInv bcrypt (initial svc) :=
  ⟨nofun, nofun, nofun, nofun⟩

section Steps

variable {s t : AccountPool svc} {a : AccountAction svc}

/-- Logs only grow. -/
theorem Originates.step {row : AccountRow v π} (h : Originates s row)
    (hstep : (machine svc bcrypt).Step s a t) : Originates t row := by
  obtain ⟨j, th, dto, data, created, hj, hcall, hmem, hrest⟩ := h
  cases hstep with
  | spawn hi hp =>
      refine ⟨j, th, dto, data, created, (Function.update_of_ne ?_ _ _).trans hj, hcall, hmem,
        hrest⟩
      rintro rfl
      rw [hi] at hj
      cases hj
  | @run i o call c k log r w hi hx =>
      by_cases hji : j = i
      · subst hji
        cases hi.symm.trans hj
        exact ⟨j, _, dto, data, created, Function.update_self .., hcall, .tail _ hmem, hrest⟩
      · exact ⟨j, th, dto, data, created, (Function.update_of_ne hji _ _).trans hj, hcall, hmem,
          hrest⟩
  | @env e w hw => cases e

/-- A row that is found is in the table. -/
theorem mem_of_findFirst {o : Oracle} {table table' : AccountTable v π} {identifier : String}
    {row : AccountRow v π}
    (h : exec bcrypt o table (.findFirst identifier) = (some row, table')) : row ∈ table.rows := by
  have hfound : table.findFirst o.choice identifier = some row := congrArg Prod.fst h
  exact (List.mem_filter.mp (List.mem_of_getElem? hfound)).1

/-- A row is new, or an old one with its id and its hash. -/
theorem exec_origin {o : Oracle} {c : Cmd v π} {r : Reply c} {table table' : AccountTable v π}
    {row : AccountRow v π} (h : exec bcrypt o table c = (r, table')) (hrow : row ∈ table'.rows) :
    (∃ old ∈ table.rows, old.id = row.id ∧ old.passwordHash = row.passwordHash) ∨
      ∃ data, (⟨c, r⟩ : Σ c : Cmd v π, Reply c) = ⟨.create data, .ok row⟩ := by
  cases c with
  | create data =>
      cases hcreate : table.create (data.row o.id) with
      | ok table'' =>
          simp only [exec, hcreate] at h
          cases h
          rw [(AccountTable.create_ok hcreate).1] at hrow
          rcases List.mem_append.mp hrow with hrow | hrow
          · exact .inl ⟨row, hrow, rfl, rfl⟩
          · cases List.mem_singleton.mp hrow
            exact .inr ⟨data, rfl⟩
      | error err =>
          simp only [exec, hcreate] at h
          cases h
          exact .inl ⟨row, hrow, rfl, rfl⟩
  | update id changes =>
      left
      cases hupdate : table.update id changes with
      | ok p =>
          obtain ⟨updated, table''⟩ := p
          simp only [exec, hupdate] at h
          cases h
          obtain ⟨old, -, -, -, hrows⟩ := AccountTable.update_ok hupdate
          rw [hrows] at hrow
          obtain ⟨old, hold, rfl⟩ := List.mem_map.mp hrow
          refine ⟨old, hold, ?_⟩
          split
          · exact ⟨rfl, rfl⟩
          · exact ⟨rfl, rfl⟩
      | error err =>
          simp only [exec, hupdate] at h
          cases h
          exact ⟨row, hrow, rfl, rfl⟩
  | _ =>
      cases h
      exact .inl ⟨row, hrow, rfl, rfl⟩

theorem TokenInv.step (hs : TokenInv bcrypt s) (hstep : (machine svc bcrypt).Step s a t) :
    TokenInv bcrypt t := by
  have hpost : ∀ i o (c : Cmd v π) r w', a = .run i o →
      (machine svc bcrypt).exec o c s.world = some (r, w') → Matched bcrypt c r := by
    intro i o c r w' _ hx
    have hx : exec bcrypt o s.world c = (r, w') := Option.some.inj hx
    have hmatched := exec_matched bcrypt o c s.world
    rw [hx] at hmatched
    exact hmatched
  refine ⟨?_, ?_, fun row hrow => ?_, ?_⟩
  · refine Machine.obeys_step (P := Vouches) ?_ hpost hs.obeys hstep
    intro i call w p w' _ hp
    cases hp
    exact prog_vouches call
  · exact Machine.recorded_step (Q := fun _ _ _ => True) (E := fun _ _ _ => True) hpost hs.obeys
      hs.recorded hstep
  · have hold {old : AccountRow v π} (hold : old ∈ s.world.rows) (hid : old.id = row.id)
        (hhash : old.passwordHash = row.passwordHash) : Originates t row := by
      obtain ⟨i, th, dto, data, created, hi, hcall, hmem, hid', hhash'⟩ :=
        (hs.rows old hold).step hstep
      exact ⟨i, th, dto, data, created, hi, hcall, hmem, hid'.trans hid, hhash'.trans hhash⟩
    cases hstep' : hstep with
    | spawn hi hp =>
        cases hp
        exact hold hrow rfl rfl
    | @env e w hw => cases e
    | @run i o call c k log r w hi hx =>
        rcases exec_origin (Option.some.inj hx) hrow with ⟨old, hmem, hid, hhash⟩ | ⟨data, heq⟩
        · exact hold hmem hid hhash
        · cases heq
          obtain ⟨dto, hcall⟩ := (hs.obeys i _ hi).1.1 data rfl
          exact ⟨i, _, dto, data, row, Function.update_self .., hcall, .head _, rfl, rfl⟩
  · intro j th identifier row hj
    refine Machine.threads_step
      (P := fun _ th => ⟨.findFirst identifier, some row⟩ ∈ th.log → Originates t row)
      ?_ ?_ (fun i th hi hmem => (hs.found i th identifier row hi hmem).step hstep) hstep j th hj
    · intro i call p _ _ hmem
      cases hmem
    · intro i o call c k log r _ hi hx hmem
      rcases List.mem_cons.mp hmem with heq | hmem
      · cases heq
        exact (hs.rows row (mem_of_findFirst (Option.some.inj hx))).step hstep
      · exact (hs.found i _ identifier row hi hmem).step hstep

end Steps

/-! ## Tokens -/

/-- The hash of a row is the one of a registered password. -/
theorem Originates.registeredHash {s : AccountPool svc} {row : AccountRow v π}
    (h : Originates s row) (hs : LoginInv bcrypt s) :
    RegisteredHash bcrypt s row.id row.passwordHash := by
  obtain ⟨i, th, dto, data, created, hi, hcall, hmem, hid, hhash⟩ := h
  obtain ⟨older, hhashes, htold, -⟩ := (hs.recorded i th hi).of_mem hmem
  obtain ⟨salt, hsalt⟩ := hhashes dto data hcall rfl
  have htold : created.passwordHash = data.passwordHash := htold
  exact ⟨salt, _, ⟨i, th, dto, data, created, hi, hcall, hmem, hid, rfl⟩,
    hhash.symm.trans (htold.trans hsalt)⟩

/-- Behind every token there is a login to its account. -/
theorem TokenInv.loggedIn {s : AccountPool svc} {claims : Claims} {token : String}
    (hs : TokenInv bcrypt s) (hlogin : LoginInv bcrypt s) (h : Issued s claims token) :
    claims.role = svc.role ∧ LoggedIn bcrypt s claims.sub := by
  obtain ⟨i, th, hi, hmem⟩ := h
  obtain ⟨older, hsuffix, ⟨-, hsign⟩, holder⟩ := (hs.recorded i th hi).of_mem_suffix hmem
  obtain ⟨dto, row, hcall, rfl, rfl⟩ := hsign claims rfl
  obtain ⟨-, hcompare, -, hmatch, -⟩ := holder
  have hfound : ⟨.findFirst dto.identifier.val, some row⟩ ∈ th.log :=
    hsuffix.mem (List.mem_cons_of_mem _ (List.mem_singleton_self _))
  refine ⟨rfl, i, th, dto, row, hi, hcall, hfound, rfl, ?_,
    (hs.found i th _ row hi hfound).registeredHash hlogin, hcompare.symm⟩
  unfold AccountRow.identifiers
  rw [List.mem_cons, List.mem_singleton]
  rcases hmatch with hphone | hemail
  · exact .inl (Subtype.ext hphone.symm)
  · exact .inr (Subtype.ext hemail.symm)

end Accounts

end RydTrip
