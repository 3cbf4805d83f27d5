import RydTrip.Accounts.Service

/-!
# Unambiguous logins

Phone and email are unique each by itself, and a login asks for either at once.
A phone is any non-empty string, so it may be the email of another account, and
then a login by it can find either.  `loginSafe_iff_writesApart` says that this
is all that can go wrong.
-/

namespace RydTrip

namespace Accounts

open Process

variable {v : EmailCheck} {π : Type} {svc : Service v π} {bcrypt : Bcrypt}

/-! ## What is wanted -/

/-- The account was registered with the password. -/
def Registered (s : AccountPool svc) (id : String) (password : Password) : Prop :=
  ∃ i th dto data created, s.threads i = some th ∧ th.call = .create dto ∧
    ⟨.create data, .ok created⟩ ∈ th.log ∧ created.id = id ∧
    (svc.credentials dto).password = password

/-- What the account can log in with. -/
def AccountRow.identifiers (row : AccountRow v π) : List NonEmpty :=
  [row.phone, ⟨row.email.val, row.email.ne_empty⟩]

theorem Password.ne_empty (password : Password) : password.val ≠ "" := by
  intro h
  have hlen := password.property
  rw [h] at hlen
  exact absurd hlen (by decide)

/-- The login with an identifier and a password. -/
def loginDto (identifier : NonEmpty) (password : Password) : LoginDto :=
  ⟨identifier, ⟨password.val, password.ne_empty⟩⟩

/-- Every account is the only one its identifiers find, and it can log in with
either of them and its own password. -/
def LoginSafe (bcrypt : Bcrypt) (s : AccountPool svc) : Prop :=
  s.world.Unambiguous ∧
    ∀ row ∈ s.world.rows, ∀ identifier ∈ row.identifiers, ∀ password,
      Registered s row.id password → ∀ o,
        (svc.login (loginDto identifier password)).eval (fun c w => exec bcrypt o w c) s.world =
          (.ok ⟨o.token, row⟩, s.world)

/-- The phone of one is the email of the other. -/
def Crosses (a b : AccountRow v π) : Prop :=
  a.phone.val = b.email.val ∨ a.email.val = b.phone.val

/-- The step issues a statement that puts `row` beside `others`. -/
def Writes (s : AccountPool svc) (a : AccountAction svc) (row : AccountRow v π)
    (others : List (AccountRow v π)) : Prop :=
  ∃ i o call c k log, a = .run i o ∧ s.threads i = some ⟨call, .call c k, log⟩ ∧
    ((∃ data, c = .create data ∧ row = data.row o.id ∧ others = s.world.rows) ∨
      ∃ id changes old, c = .update id changes ∧ s.world.findById id = some old ∧
        row = changes.apply old ∧ others = s.world.others id)

/-- A row that the unique constraints accept crosses no other. -/
def WritesApart (s : AccountPool svc) (a : AccountAction svc) (_ : AccountPool svc) : Prop :=
  ∀ row others, Writes s a row others → (∀ other ∈ others, Apart other row) →
    ∀ other ∈ others, ¬ Crosses row other

/-! ## What a step does to the table -/

section Steps

variable {s t : AccountPool svc} {a : AccountAction svc}

/-- What a thread writes is in its next command. -/
theorem writes_of_run {i : Nat} {o : Oracle} {call : Call svc} {c : Cmd v π}
    {k : Reply c → AccountProg v π (Response v π)} {log : Log (Cmd v π) Reply}
    {row : AccountRow v π} {others : List (AccountRow v π)}
    (hi : s.threads i = some ⟨call, .call c k, log⟩)
    (h : Writes s (.run i o) row others) :
    (∃ data, c = .create data ∧ row = data.row o.id ∧ others = s.world.rows) ∨
      ∃ id changes old, c = .update id changes ∧ s.world.findById id = some old ∧
        row = changes.apply old ∧ others = s.world.others id := by
  obtain ⟨i', o', call', c', k', log', ⟨⟩, hi', hc⟩ := h
  rw [hi] at hi'
  cases hi'
  exact hc

/-- A step writes one row that the constraints accept, or it leaves the table
as it was. -/
theorem table_step (hstep : (machine svc bcrypt).Step s a t) :
    (∃ row others, Writes s a row others ∧ (∀ other ∈ others, Apart other row) ∧
        (∀ other ∈ others, other ∈ s.world.rows) ∧
        ∀ r, r ∈ t.world.rows ↔ r = row ∨ r ∈ others) ∨
      (t.world = s.world ∧ ∀ row others, Writes s a row others →
        ¬ ∀ other ∈ others, Apart other row) := by
  have hquiet (hworld : t.world = s.world)
      (h : ∀ row others, ¬ Writes s a row others) : t.world = s.world ∧
        ∀ row others, Writes s a row others → ¬ ∀ other ∈ others, Apart other row :=
    ⟨hworld, fun row others hw => absurd hw (h row others)⟩
  cases hstep with
  | spawn hi hp =>
      cases hp
      refine .inr (hquiet rfl ?_)
      rintro row others ⟨i, o, call, c, k, log, ⟨⟩, -⟩
  | @env e w hw => cases e
  | @run i o call c k log r w hi hx =>
      have hx : exec bcrypt o s.world c = (r, w) := Option.some.inj hx
      cases c with
      | create data =>
          cases hcreate : s.world.create (data.row o.id) with
          | ok table' =>
              simp only [exec, hcreate] at hx
              cases hx
              obtain ⟨hrows, hapart⟩ := AccountTable.create_ok hcreate
              refine .inl ⟨data.row o.id, s.world.rows,
                ⟨i, o, call, _, k, log, rfl, hi, .inl ⟨data, rfl, rfl, rfl⟩⟩, hapart,
                fun _ h => h, fun r => ?_⟩
              rw [hrows, List.mem_append, List.mem_singleton, or_comm]
          | error err =>
              simp only [exec, hcreate] at hx
              cases hx
              refine .inr ⟨rfl, fun row others hw hapart => ?_⟩
              rcases writes_of_run hi hw with ⟨data', ⟨⟩, rfl, rfl⟩ | ⟨id, changes, old, ⟨⟩, -⟩
              exact AccountTable.create_error hcreate hapart
      | update id changes =>
          cases hupdate : s.world.update id changes with
          | ok p =>
              obtain ⟨row', table'⟩ := p
              simp only [exec, hupdate] at hx
              cases hx
              obtain ⟨old, hold, rfl, hapart, hrows⟩ := AccountTable.update_ok hupdate
              refine .inl ⟨changes.apply old, s.world.others id,
                ⟨i, o, call, _, k, log, rfl, hi, .inr ⟨id, changes, old, rfl, hold, rfl, rfl⟩⟩,
                hapart, fun _ h => (List.mem_filter.mp h).1, fun r => ?_⟩
              rw [hrows]
              exact AccountTable.mem_update hold
          | error err =>
              simp only [exec, hupdate] at hx
              cases hx
              refine .inr ⟨rfl, fun row others hw hapart => ?_⟩
              rcases writes_of_run hi hw with
                ⟨data', ⟨⟩, -⟩ | ⟨id', changes', old, ⟨⟩, hold, rfl, rfl⟩
              exact AccountTable.update_error hold hupdate hapart
      | _ =>
          cases hx
          refine .inr (hquiet rfl fun row others hw => ?_)
          rcases writes_of_run hi hw with ⟨data, ⟨⟩, -⟩ | ⟨id, changes, old, ⟨⟩, -⟩

/-- A step writes at most one row. -/
theorem writes_unique {row row' : AccountRow v π} {others others' : List (AccountRow v π)}
    (h : Writes s a row others) (h' : Writes s a row' others') : row = row' ∧ others = others' := by
  obtain ⟨i, o, call, c, k, log, rfl, hi, hc⟩ := h
  rcases hc with ⟨data, rfl, rfl, rfl⟩ | ⟨id, changes, old, rfl, hold, rfl, rfl⟩
  · rcases writes_of_run hi h' with ⟨data', ⟨⟩, rfl, rfl⟩ | ⟨id', changes', old', ⟨⟩, -⟩
    exact ⟨rfl, rfl⟩
  · rcases writes_of_run hi h' with ⟨data', ⟨⟩, -⟩ | ⟨id', changes', old', ⟨⟩, hold', rfl, rfl⟩
    rw [hold] at hold'
    cases hold'
    exact ⟨rfl, rfl⟩

/-- The table stays free of crossings exactly if the row that is written is. -/
theorem noCross_step (hstep : (machine svc bcrypt).Step s a t) (hs : s.world.NoCross) :
    t.world.NoCross ↔ WritesApart s a t := by
  rcases table_step hstep with ⟨row, others, hw, hapart, hothers, hrows⟩ | ⟨hsame, hnone⟩
  · constructor
    · intro h row' others' hw' hapart' other hmem hcross
      obtain ⟨rfl, rfl⟩ := writes_unique hw hw'
      have hrow : row ∈ t.world.rows := (hrows row).mpr (.inl rfl)
      have hother : other ∈ t.world.rows := (hrows other).mpr (.inr hmem)
      have hne : other ≠ row := by
        rintro rfl
        exact (hapart other hmem).id rfl
      rcases hcross with hcross | hcross
      · exact hne (h row hrow other hother hcross).symm
      · exact hne (h other hother row hrow hcross.symm)
    · intro h x hx y hy hxy
      have hfree := h row others hw hapart
      rcases (hrows x).mp hx with rfl | hx
      · rcases (hrows y).mp hy with rfl | hy
        · rfl
        · exact absurd (.inl hxy) (hfree y hy)
      · rcases (hrows y).mp hy with rfl | hy
        · exact absurd (.inr hxy.symm) (hfree x hx)
        · exact hs x (hothers x hx) y (hothers y hy) hxy
  · rw [hsame]
    exact ⟨fun _ row others hw hapart => absurd hapart (hnone row others hw), fun _ => hs⟩

end Steps

/-! ## Registered passwords -/

/-- A registration stores a hash of its own password. -/
def Hashes (bcrypt : Bcrypt) (call : Call svc) (c : Cmd v π) (_ : Log (Cmd v π) Reply) : Prop :=
  ∀ dto data, call = .create dto → c = .create data →
    ∃ salt, data.passwordHash = bcrypt.hash salt (svc.credentials dto).password.val

/-- What replies say about hashes. -/
def Told (bcrypt : Bcrypt) : (c : Cmd v π) → Reply c → Prop
  | .hash password, r => ∃ salt, r = bcrypt.hash salt password
  | .create data, .ok created => created.passwordHash = data.passwordHash
  | _, _ => True

variable (bcrypt) in
theorem exec_told (o : Oracle) (c : Cmd v π) (table : AccountTable v π) :
    Told bcrypt c (exec bcrypt o table c).1 := by
  cases c with
  | hash password => exact ⟨o.salt, rfl⟩
  | create data =>
      cases hcreate : table.create (data.row o.id) with
      | ok table' =>
          simp only [exec, hcreate]
          rfl
      | error err =>
          simp only [exec, hcreate]
          trivial
  | _ => trivial

theorem conflictOf_obeys {pre : (c : Cmd v π) → Log (Cmd v π) Reply → Prop}
    {post : (c : Cmd v π) → Reply c → Prop} (err : AccountError)
    (log : Log (Cmd v π) Reply) : (svc.conflictOf err).Obeys pre post log := by
  unfold Service.conflictOf
  split
  · exact obeys_throw _
  · exact obeys_throw _

theorem create_obeys (dto : svc.CreateDto) :
    (svc.create dto).Obeys (Hashes bcrypt (.create dto)) (Told bcrypt) [] := by
  refine ⟨fun _ _ _ h => ?_, fun passwordHash hhash => ?_⟩
  · cases h
  refine Prog.Obeys.tryCatch ⟨fun dto' data hcall hc => ?_, fun r _ => ?_⟩ conflictOf_obeys
  · cases hcall
    cases hc
    exact hhash
  · cases r with
    | ok row => exact obeys_ret _
    | error err => exact obeys_throw _

/-- Every call starts as a program that does. -/
theorem prog_obeys (call : Call svc) :
    call.prog.Obeys (Hashes bcrypt call) (Told bcrypt) [] := by
  have hother (h : ∀ dto, call ≠ .create dto) :
      call.prog.Obeys (Hashes bcrypt call) (Told bcrypt) [] :=
    Prog.wp_logSpec_of_forall (fun _ _ dto _ hcall => absurd hcall (h dto))
      (fun _ _ => trivial) fun _ _ => trivial
  cases call with
  | create dto => exact (create_obeys dto).bind fun _ _ => obeys_ret _
  | findById id => exact hother nofun
  | updateProfile id dto => exact hother nofun
  | login dto => exact hother nofun

variable (bcrypt) in
/-- A row keeps its id and its hash. -/
theorem exec_keeps (o : Oracle) (c : Cmd v π) {table : AccountTable v π} {row : AccountRow v π}
    (h : row ∈ table.rows) :
    ∃ row' ∈ (exec bcrypt o table c).2.rows, row'.id = row.id ∧
      row'.passwordHash = row.passwordHash := by
  cases c with
  | create data =>
      cases hcreate : table.create (data.row o.id) with
      | ok table' =>
          simp only [exec, hcreate]
          refine ⟨row, ?_, rfl, rfl⟩
          rw [(AccountTable.create_ok hcreate).1]
          exact List.mem_append_left _ h
      | error err =>
          simp only [exec, hcreate]
          exact ⟨row, h, rfl, rfl⟩
  | update id changes =>
      cases hupdate : table.update id changes with
      | ok p =>
          obtain ⟨updated, table'⟩ := p
          simp only [exec, hupdate]
          obtain ⟨old, -, -, -, hrows⟩ := AccountTable.update_ok hupdate
          refine ⟨if row.id = id then changes.apply row else row, ?_, ?_⟩
          · rw [hrows]
            exact List.mem_map_of_mem h
          · split
            · exact ⟨rfl, rfl⟩
            · exact ⟨rfl, rfl⟩
      | error err =>
          simp only [exec, hupdate]
          exact ⟨row, h, rfl, rfl⟩
  | _ => exact ⟨row, h, rfl, rfl⟩

/-- What holds of every pool reached. -/
structure LoginInv (bcrypt : Bcrypt) (s : AccountPool svc) : Prop where
  obeys : ∀ i th, s.threads i = some th →
    th.prog.Obeys (Hashes bcrypt th.call) (Told bcrypt) th.log
  recorded : ∀ i th, s.threads i = some th →
    Recorded (Hashes bcrypt th.call) (Told bcrypt) th.log
  kept : ∀ i th data created, s.threads i = some th → ⟨.create data, .ok created⟩ ∈ th.log →
    ∃ row ∈ s.world.rows, row.id = created.id ∧ row.passwordHash = created.passwordHash

theorem initial_loginInv : LoginInv bcrypt (initial svc) :=
  ⟨nofun, nofun, nofun⟩

/-- A successful create leaves its row. -/
theorem exec_created {o : Oracle} {data : AccountData v π} {created : AccountRow v π}
    {table : AccountTable v π} (h : (exec bcrypt o table (.create data)).1 = .ok created) :
    created ∈ (exec bcrypt o table (.create data)).2.rows := by
  cases hcreate : table.create (data.row o.id) with
  | ok table' =>
      simp only [exec, hcreate] at h ⊢
      cases h
      rw [(AccountTable.create_ok hcreate).1]
      exact List.mem_append_right _ (.head _)
  | error err =>
      simp only [exec, hcreate] at h
      cases h

theorem LoginInv.step {s t : AccountPool svc} {a : AccountAction svc} (hs : LoginInv bcrypt s)
    (hstep : (machine svc bcrypt).Step s a t) : LoginInv bcrypt t := by
  have hpost : ∀ i o (c : Cmd v π) r w', a = .run i o →
      (machine svc bcrypt).exec o c s.world = some (r, w') → Told bcrypt c r := by
    intro i o c r w' _ hx
    have hx : exec bcrypt o s.world c = (r, w') := Option.some.inj hx
    have htold := exec_told bcrypt o c s.world
    rw [hx] at htold
    exact htold
  constructor
  · refine Machine.obeys_step (P := Hashes bcrypt) ?_ hpost hs.obeys hstep
    intro i call w p w' _ hp
    cases hp
    exact prog_obeys call
  · exact Machine.recorded_step (Q := fun _ _ _ => True) (E := fun _ _ _ => True) hpost hs.obeys
      hs.recorded hstep
  · intro j th data created hj hmem
    cases hstep with
    | spawn hi hp =>
        cases hp
        rcases update_eq_some hj with ⟨-, rfl⟩ | ⟨-, hj⟩
        · cases hmem
        · exact hs.kept j th data created hj hmem
    | @env e w hw => cases e
    | @run i o call c k log r w hi hx =>
        have hx : exec bcrypt o s.world c = (r, w) := Option.some.inj hx
        have hold (h : ∃ row ∈ s.world.rows, row.id = created.id ∧
            row.passwordHash = created.passwordHash) : ∃ row ∈ w.rows, row.id = created.id ∧
              row.passwordHash = created.passwordHash := by
          obtain ⟨row, hrow, hid, hhash⟩ := h
          obtain ⟨row', hrow', hid', hhash'⟩ := exec_keeps bcrypt o c hrow
          rw [hx] at hrow'
          exact ⟨row', hrow', hid'.trans hid, hhash'.trans hhash⟩
        rcases update_eq_some hj with ⟨-, rfl⟩ | ⟨-, hj⟩
        · rcases List.mem_cons.mp hmem with heq | hmem
          · cases heq
            have hrow := exec_created (congrArg Prod.fst hx)
            rw [hx] at hrow
            exact ⟨created, hrow, rfl, rfl⟩
          · exact hold (hs.kept i _ data created hi hmem)
        · exact hold (hs.kept j th data created hj hmem)

/-! ## Logging in -/

/-- A login that finds the row and compares its hash. -/
theorem login_eval {s : AccountPool svc} {row : AccountRow v π} {identifier : NonEmpty}
    {password : Password} {o : Oracle}
    (hfind : s.world.findFirst o.choice identifier.val = some row)
    (hcompare : bcrypt.compare password.val row.passwordHash = true) :
    (svc.login (loginDto identifier password)).eval (fun c w => exec bcrypt o w c) s.world =
      (.ok ⟨o.token, row⟩, s.world) := by
  simp only [Service.login, Prog.perform_bind, Prog.eval_call, exec, loginDto, hfind, hcompare]
  rfl

/-- The password of a registered account passes against the hash of its row. -/
theorem LoginInv.compare_registered {s : AccountPool svc} (hs : LoginInv bcrypt s)
    {row : AccountRow v π} (hrow : row ∈ s.world.rows) {password : Password}
    (hreg : Registered s row.id password) :
    bcrypt.compare password.val row.passwordHash = true := by
  obtain ⟨i, th, dto, data, created, hi, hcall, hmem, hid, rfl⟩ := hreg
  obtain ⟨row', hrow', hid', hhash'⟩ := hs.kept i th data created hi hmem
  obtain ⟨older, hhashes, htold, -⟩ := (hs.recorded i th hi).of_mem hmem
  obtain ⟨salt, hsalt⟩ := hhashes dto data hcall rfl
  have heq : row' = row := s.world.eq_of_id_eq hrow' hrow (hid'.trans hid)
  have htold : created.passwordHash = data.passwordHash := htold
  rw [← heq, hhash', htold, hsalt]
  exact bcrypt.compare_hash salt _

/-- Logins are safe exactly while no phone is the email of another account. -/
theorem LoginInv.loginSafe_iff {s : AccountPool svc} (hs : LoginInv bcrypt s) :
    LoginSafe bcrypt s ↔ s.world.NoCross := by
  rw [← AccountTable.unambiguous_iff_noCross]
  refine ⟨And.left, fun h => ⟨h, fun row hrow identifier hid password hreg o => ?_⟩⟩
  refine login_eval (h row hrow identifier.val ?_ o.choice) (hs.compare_registered hrow hreg)
  rcases List.mem_cons.mp hid with rfl | hid
  · exact .inl rfl
  · rw [List.mem_singleton.mp hid]
    exact .inr rfl

theorem initial_noCross : (initial svc).world.NoCross := nofun

/-- Logins stay safe throughout a run exactly if every row that is written is
free of crossings. -/
theorem loginSafe_iff_writesApart (acts : List (AccountAction svc)) :
    (machine svc bcrypt).Along (fun _ _ t => LoginSafe bcrypt t) (initial svc) acts ↔
      (machine svc bcrypt).Along WritesApart (initial svc) acts := by
  refine Machine.along_reached_iff (I := LoginInv bcrypt) initial_loginInv
    (initial_loginInv.loginSafe_iff.mpr initial_noCross) (fun t a u ht hstep => ht.step hstep) ?_
  intro t a u ht hJ hstep
  rw [(ht.step hstep).loginSafe_iff]
  exact noCross_step hstep (ht.loginSafe_iff.mp hJ)

/-! ## A phone that is an email -/

/-- An at sign between other characters. -/
def atSign : EmailCheck where
  isEmail s := s.toList.drop 1 |>.dropLast.contains '@'
  isEmail_empty := by decide

/-- Hashes that start with the salt. -/
def saltFirst : Bcrypt where
  hash salt password := salt ++ password
  compare password passwordHash := password.toList.isSuffixOf passwordHash.toList
  compare_hash salt password := by simp

def ashasPassword : Password := ⟨"asha-pw", by decide⟩

def asha : CreateRiderDto atSign where
  phone := ⟨"+911234567890", by decide⟩
  email := ⟨"asha@example.com", by decide⟩
  password := ashasPassword
  name := ⟨"Asha", by decide⟩

/-- Her phone is the email of `asha`. -/
def bina : CreateRiderDto atSign where
  phone := ⟨"asha@example.com", by decide⟩
  email := ⟨"bina@example.com", by decide⟩
  password := ⟨"bina-pw", by decide⟩
  name := ⟨"Bina", by decide⟩

def registerBoth : List (AccountAction (riders atSign)) :=
  [.spawn 0 (.create asha), .run 0 { salt := "s1" }, .run 0 { id := "rider-1" },
    .spawn 1 (.create bina), .run 1 { salt := "s2" }, .run 1 { id := "rider-2" }]

/-- Both registrations are accepted, and then the email of the first account
can find the second. -/
theorem not_loginSafe_registerBoth :
    ¬ ∀ acts s, (machine (riders atSign) saltFirst).run (initial _) acts = some s →
      LoginSafe saltFirst s := by
  intro h
  have hrun : (machine (riders atSign) saltFirst).run (initial _) registerBoth = some _ := rfl
  have hsafe := (h _ _ hrun).1 _ (.head _) "asha@example.com" (.inr rfl) 1
  have hid := congrArg (Option.map AccountRow.id) hsafe
  exact absurd hid (by decide)

end Accounts

end RydTrip
