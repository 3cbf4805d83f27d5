import RydTrip.Accounts.Tokens
import RydTrip.ApiGateway.Policies

/-!
# Who a forwarded request comes from

The gateway takes the user of a request from its token, and forwards him in
headers that the services believe.  Tokens are signed by rider-service and
driver-service.  So behind every user who is forwarded there is a login to his
account, with the password it was registered with as far as bcrypt can tell,
and a route that belongs to an account is forwarded for that account only.

That clients cannot make tokens is an assumption about the signature.  Nothing
in the services signs for an operator.
-/

namespace RydTrip

namespace ApiGateway

open Http Process
open Accounts (EmailCheck AccountPool AccountAction AccountRow Issued LoggedIn Bcrypt LoginInv
  TokenInv)

/-- What signs the tokens that the gateway verifies.  The stamp is what else
goes into one, such as the time. -/
structure Signer (jwt : JwtService) where
  sign : (stamp : String) → Accounts.Claims → String
  /-- A token that verifies says what was signed. -/
  verify_sign : ∀ stamp claims user, jwt.verify (sign stamp claims) = some user →
    user.sub = claims.sub ∧ user.role.text = claims.role

variable {v : EmailCheck} {π β : Type} {svc : Accounts.Service v π} {bcrypt : Bcrypt}
  {jwt : JwtService} {signer : Signer jwt}

/-! ## Signing -/

variable (signer) in
/-- What the step signs, it signs with the signer. -/
def Signs (s : AccountPool svc) (a : AccountAction svc) (_ : AccountPool svc) : Prop :=
  ∀ i o call claims k log, a = .run i o →
    s.threads i = some ⟨call, .call (.sign claims) k, log⟩ →
    ∃ stamp, o.token = signer.sign stamp claims

variable (signer) in
/-- All tokens are signatures. -/
def Signed (s : AccountPool svc) : Prop :=
  ∀ i th claims token, s.threads i = some th → ⟨.sign claims, token⟩ ∈ th.log →
    ∃ stamp, token = signer.sign stamp claims

theorem Signed.step {s t : AccountPool svc} {a : AccountAction svc} (hs : Signed signer s)
    (hsigns : Signs signer s a t) (hstep : (Accounts.machine svc bcrypt).Step s a t) :
    Signed signer t := by
  intro j th claims token hj
  refine Machine.threads_step
    (P := fun _ th => ⟨.sign claims, token⟩ ∈ th.log → ∃ stamp, token = signer.sign stamp claims)
    ?_ ?_ (fun i th hi => hs i th claims token hi) hstep j th hj
  · intro i call p _ _ hmem
    cases hmem
  · intro i o call c k log r ha hi hx hmem
    rcases List.mem_cons.mp hmem with heq | hmem
    · cases heq
      have htoken : o.token = token := congrArg Prod.fst (Option.some.inj hx)
      exact htoken ▸ hsigns i o call claims k log ha hi
    · exact hs i _ claims token hi hmem

/-- What a service has signed. -/
theorem Signed.loggedIn {s : AccountPool svc} (hs : Signed signer s) (htoken : TokenInv bcrypt s)
    (hlogin : LoginInv bcrypt s) {token : String} {claims : Accounts.Claims}
    (hissued : Issued s claims token) {user : AuthenticatedUser}
    (huser : jwt.verify token = some user) :
    user.role.text = svc.role ∧ LoggedIn bcrypt s user.sub := by
  obtain ⟨hrole, hlogged⟩ := htoken.loggedIn hlogin hissued
  obtain ⟨i, th, hi, hmem⟩ := hissued
  obtain ⟨stamp, rfl⟩ := hs i th claims token hi hmem
  obtain ⟨hsub, hrole'⟩ := signer.verify_sign stamp claims user huser
  exact ⟨hrole'.trans hrole, hsub ▸ hlogged⟩

/-- What holds of a service after a run that signs with the signer. -/
theorem run_signed {acts : List (AccountAction svc)} {s : AccountPool svc}
    (hrun : (Accounts.machine svc bcrypt).run (Accounts.initial svc) acts = some s)
    (hsigns : (Accounts.machine svc bcrypt).Along (Signs signer) (Accounts.initial svc) acts) :
    TokenInv bcrypt s ∧ LoginInv bcrypt s ∧ Signed signer s := by
  refine Machine.run_invariant
    (I := fun s => TokenInv bcrypt s ∧ LoginInv bcrypt s ∧ Signed signer s)
    ⟨Accounts.initial_tokenInv, Accounts.initial_loginInv, nofun⟩ ?_ hrun hsigns
  intro s a t hs ha hstep
  exact ⟨hs.1.step hstep, hs.2.1.step hstep, hs.2.2.step ha hstep⟩

/-! ## The gateway -/

/-- A user comes from a token that was verified, and he has passed the policy
check. -/
theorem token_of_canActivate {req : Request β} {user : AuthenticatedUser}
    (h : canActivate jwt req = .ok (some user)) :
    ∃ token, bearerToken (req.headers "authorization") = some token ∧
      jwt.verify token = some user ∧
      checkPolicy req.method (rawSegments req.path) user = .ok () := by
  unfold canActivate at h
  dsimp only at h
  split at h
  · cases h
  · split at h
    · cases h
    · split at h
      · cases h
      · split at h
        · cases h
        next token htoken =>
          split at h
          · cases h
          next user' huser =>
            obtain ⟨⟨⟩, hcheck, heq⟩ := bind_eq_ok.mp h
            cases heq
            exact ⟨token, htoken, huser, hcheck⟩

/-- Roles differ in their texts. -/
theorem role_of_text {a b : Role} (h : a.text = b.text) : a = b := by
  revert h
  cases a <;> cases b <;> decide

/-- A user who is forwarded has logged in to his account, and he only reaches
what is his. -/
theorem forwarded_user_loggedIn {bcryptR bcryptD : Bcrypt}
    {actsR : List (AccountAction (Accounts.riders v))} {r : AccountPool (Accounts.riders v)}
    {actsD : List (AccountAction (Accounts.drivers v))} {d : AccountPool (Accounts.drivers v)}
    (hrunR : (Accounts.machine _ bcryptR).run (Accounts.initial _) actsR = some r)
    (hsignsR : (Accounts.machine _ bcryptR).Along (Signs signer) (Accounts.initial _) actsR)
    (hrunD : (Accounts.machine _ bcryptD).run (Accounts.initial _) actsD = some d)
    (hsignsD : (Accounts.machine _ bcryptD).Along (Signs signer) (Accounts.initial _) actsD)
    {req : Request β} (hunforged : ∀ token, bearerToken (req.headers "authorization") = some token →
      (jwt.verify token).isSome → ∃ claims, Issued r claims token ∨ Issued d claims token)
    {uuid : String} {route : ProxyRoute} {forwarded : Forwarded β} {user : AuthenticatedUser}
    (h : forward jwt req uuid = .ok (route, forwarded)) (huser : forwarded.user = some user) :
    (user.role = .rider ∧ LoggedIn bcryptR r user.sub ∨
        user.role = .driver ∧ LoggedIn bcryptD d user.sub) ∧
      ∀ policy ∈ rolePolicies, ∀ captures group,
        policy.matches req.method (rawSegments req.path) = some captures →
        policy.ownIdGroup = some group → capture captures group = some user.sub.toList := by
  obtain ⟨htokenR, hloginR, hsignedR⟩ := run_signed hrunR hsignsR
  obtain ⟨htokenD, hloginD, hsignedD⟩ := run_signed hrunD hsignsD
  have hactivate := (forward_ok h).1
  rw [huser] at hactivate
  obtain ⟨token, hbearer, hverify, hcheck⟩ := token_of_canActivate hactivate
  have hwho : user.role = .rider ∧ LoggedIn bcryptR r user.sub ∨
      user.role = .driver ∧ LoggedIn bcryptD d user.sub := by
    obtain ⟨claims, hissued | hissued⟩ := hunforged token hbearer (by rw [hverify]; rfl)
    · obtain ⟨hrole, hlogged⟩ := hsignedR.loggedIn htokenR hloginR hissued hverify
      exact .inl ⟨role_of_text (b := .rider) hrole, hlogged⟩
    · obtain ⟨hrole, hlogged⟩ := hsignedD.loggedIn htokenD hloginD hissued hverify
      exact .inr ⟨role_of_text (b := .driver) hrole, hlogged⟩
  refine ⟨hwho, fun policy hpolicy captures group hmatch hgroup => ?_⟩
  have hmeets := ((checkPolicy_ok (findPolicy_eq hpolicy hmatch)).mp hcheck).2 group hgroup
  rcases hwho with ⟨hrole, -⟩ | ⟨hrole, -⟩
  · exact hmeets (by rw [hrole]; exact nofun)
  · exact hmeets (by rw [hrole]; exact nofun)

/-! ## A login and a request -/

section Example

open Accounts (atSign saltFirst asha)

/-- Two tokens: one for the account `rider-1`, and one that does not verify. -/
def oneToken : JwtService where
  verify token := if token = "token" then some ⟨"rider-1", .rider⟩ else none
  isPlain_sub token user h := by
    split at h
    · cases h
      decide
    · cases h

def oneSigner : Signer oneToken where
  sign _ claims := if claims.sub = "rider-1" ∧ claims.role = "rider" then "token" else ""
  verify_sign stamp claims user h := by
    by_cases hclaims : claims.sub = "rider-1" ∧ claims.role = "rider"
    · rw [if_pos hclaims] at h
      cases h
      exact ⟨hclaims.1.symm, hclaims.2.symm⟩
    · rw [if_neg hclaims] at h
      cases h

/-- Asha registers and logs in. -/
def registerAndLogin : List (AccountAction (Accounts.riders atSign)) :=
  [.spawn 0 (.create asha), .run 0 { salt := "s1" }, .run 0 { id := "rider-1" },
    .spawn 1 (.login (Accounts.loginDto ⟨asha.email, asha.email.ne_empty⟩ asha.password)),
    .run 1 {}, .run 1 {}, .run 1 { token := "token" }]

/-- Asha asks for her account. -/
def ownAccount : Request Unit where
  method := "GET"
  path := "riders/rider-1".toList
  headers name := if name = "authorization" then some "Bearer token" else none
  limit := none
  body := ()

/-- The token of the step is a signature of the claims it is for. -/
def signs (s : AccountPool svc) : AccountAction svc → Bool
  | .run i o =>
      match s.threads i with
      | some ⟨_, .call (.sign claims) _, _⟩ => o.token == oneSigner.sign "" claims
      | _ => true
  | _ => true

theorem signs_of_check {s t : AccountPool svc} {a : AccountAction svc} (h : signs s a = true) :
    Signs oneSigner s a t := by
  rintro i o call claims k log rfl hi
  simp only [signs, hi] at h
  exact ⟨"", beq_iff_eq.mp h⟩

theorem forwarded_user_loggedIn_ownAccount :
    ∃ r route forwarded, (Accounts.machine _ saltFirst).run (Accounts.initial _) registerAndLogin =
        some r ∧ forward oneToken ownAccount "" = .ok (route, forwarded) ∧
      forwarded.user = some ⟨"rider-1", .rider⟩ ∧ LoggedIn saltFirst r "rider-1" := by
  have hrun : (Accounts.machine (Accounts.riders atSign) saltFirst).run (Accounts.initial _)
    registerAndLogin = some _ := rfl
  have hsigns : (Accounts.machine (Accounts.riders atSign) saltFirst).Along (Signs oneSigner)
    (Accounts.initial _) registerAndLogin :=
    Machine.along_of_checks (p := signs) (fun _ _ _ h => signs_of_check h) rfl
  have hrunD : (Accounts.machine (Accounts.drivers atSign) saltFirst).run (Accounts.initial _)
    [] = some (Accounts.initial _) := rfl
  have hsignsD : (Accounts.machine (Accounts.drivers atSign) saltFirst).Along (Signs oneSigner)
    (Accounts.initial _) [] := trivial
  have hforward : forward oneToken ownAccount "" = .ok (_, _) := rfl
  refine ⟨_, _, _, hrun, hforward, rfl, ?_⟩
  have hmain := forwarded_user_loggedIn hrun hsigns hrunD hsignsD (fun token htoken _ => ?_)
    hforward rfl
  · rcases hmain.1 with ⟨-, hlogged⟩ | ⟨hrole, -⟩
    · exact hlogged
    · cases hrole
  · have heq : bearerToken (ownAccount.headers "authorization") = some "token" := by decide
    cases heq.symm.trans htoken
    exact ⟨_, .inl ⟨1, _, rfl, .head _⟩⟩

end Example

end ApiGateway

end RydTrip
