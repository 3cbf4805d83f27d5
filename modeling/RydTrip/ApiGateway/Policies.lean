import RydTrip.ApiGateway.Guard

/-!
# Every policy is enforced

The guard looks at the first policy whose method and pattern fit.  No two
policies fit one request, so it has looked at all of them, and their order does
not matter.  The exemption of `/health` covers no path that has a route.

Nothing is assumed of the tokens here: a token may verify as any user.
-/

namespace RydTrip

namespace ApiGateway

open Http Process

variable {β : Type}

/-! ## The guard over any policies -/

/-- The check of the policy that was found. -/
def checkFound (user : AuthenticatedUser) :
    Option (RolePolicy × List Segment) → Except HttpException Unit
  | none => .ok ()
  | some (policy, captures) =>
      if !policy.roles.contains user.role then
        .error (.forbidden s!"Role '{user.role.text}' is not permitted to call this route")
      else
        match policy.ownIdGroup with
        | none => .ok ()
        | some group =>
            if user.role ≠ .operator ∧ capture captures group ≠ some user.sub.toList then
              .error (.forbidden s!"Cannot act on another {user.role.text}'s resource")
            else .ok ()

/-- `canActivate` with a list in place of `ROLE_POLICIES`. -/
def canActivateWith (policies : List RolePolicy) (verify : String → Option AuthenticatedUser)
    (req : Request β) : Except HttpException (Option AuthenticatedUser) :=
  let path := rawSegments req.path
  if "health".toList.isPrefixOf (path.headD []) then .ok none
  else if (matchRoute path getProxyRoutes).isNone then .ok none
  else if isPublicRoute req.method path then .ok none
  else
    match bearerToken (req.headers "authorization") with
    | none => .error (.unauthorized "Missing bearer token")
    | some token =>
        match verify token with
        | none => .error (.unauthorized "Invalid or expired token")
        | some user => do
            checkFound user (findPolicyIn req.method path policies)
            return some user

theorem checkPolicy_eq (method : String) (path : List Segment) (user : AuthenticatedUser) :
    checkPolicy method path user = checkFound user (findPolicyIn method path rolePolicies) := by
  unfold checkPolicy checkFound findPolicy
  rfl

/-- The guard of the gateway is the one over its own policies. -/
theorem canActivate_eq_with (jwt : JwtService) (req : Request β) :
    canActivate jwt req = canActivateWith rolePolicies jwt.verify req := by
  have hcheck : checkPolicy = fun method path user =>
      checkFound user (findPolicyIn method path rolePolicies) := by
    funext method path user
    exact checkPolicy_eq method path user
  unfold canActivate
  rw [hcheck]
  rfl

/-! ## The order of the policies -/

theorem findPolicyIn_eq_none {policies : List RolePolicy} {method : String} {path : List Segment}
    (h : findPolicyIn method path policies = none) {policy : RolePolicy}
    (hmem : policy ∈ policies) :
    policy.matches method path = none := by
  induction policies with
  | nil => cases hmem
  | cons q policies ih =>
      rw [findPolicyIn] at h
      split at h
      next captures hq => cases h
      next hq =>
        rcases List.mem_cons.mp hmem with rfl | hmem
        · exact hq
        · exact ih h hmem

/-- The order of the policies does not matter. -/
theorem findPolicyIn_perm {policies : List RolePolicy} (hperm : policies.Perm rolePolicies)
    (method : String) (path : List Segment) :
    findPolicyIn method path policies = findPolicyIn method path rolePolicies := by
  cases hfind : findPolicyIn method path policies with
  | some found =>
      obtain ⟨policy, captures⟩ := found
      obtain ⟨hmem, hmatch⟩ := findPolicyIn_matches hfind
      exact (findPolicyIn_eq (fun _ hq => hq) (hperm.mem_iff.mp hmem) hmatch).symm
  | none =>
      cases hfind' : findPolicyIn method path rolePolicies with
      | none => rfl
      | some found =>
          obtain ⟨policy, captures⟩ := found
          obtain ⟨hmem, hmatch⟩ := findPolicyIn_matches hfind'
          rw [findPolicyIn_eq_none hfind (hperm.mem_iff.mpr hmem)] at hmatch
          cases hmatch

/-! ## Enforcement -/

/-- The user meets every policy that fits the request. -/
def MeetsPolicies (user : AuthenticatedUser) (method : String) (path : List Segment) : Prop :=
  ∀ policy ∈ rolePolicies, ∀ captures, policy.matches method path = some captures →
    user.role ∈ policy.roles ∧ ∀ group, policy.ownIdGroup = some group →
      user.role ≠ .operator → capture captures group = some user.sub.toList

theorem meetsPolicies_of_checkFound {user : AuthenticatedUser} {method : String}
    {path : List Segment} (h : checkFound user (findPolicyIn method path rolePolicies) = .ok ()) :
    MeetsPolicies user method path := by
  intro policy hmem captures hmatch
  rw [← checkPolicy_eq] at h
  exact (checkPolicy_ok (findPolicy_eq hmem hmatch)).mp h

/-- A request that is let through and has a route is public, or it carries a
token of a user who meets every policy that fits.  It is not let through as a
health check, and the order of the policies does not matter. -/
theorem canActivate_enforces (verify : String → Option AuthenticatedUser) (req : Request β) :
    (∀ found, canActivateWith rolePolicies verify req = .ok found →
      (matchRoute (rawSegments req.path) getProxyRoutes).isSome = true →
      "health".toList.isPrefixOf ((rawSegments req.path).headD []) = false ∧
        (isPublicRoute req.method (rawSegments req.path) = true ∨
          ∃ token user, bearerToken (req.headers "authorization") = some token ∧
            verify token = some user ∧ found = some user ∧
            MeetsPolicies user req.method (rawSegments req.path))) ∧
      ∀ policies, policies.Perm rolePolicies →
        canActivateWith policies verify req = canActivateWith rolePolicies verify req := by
  refine ⟨fun found h hroute => ?_, fun policies hperm => ?_⟩
  · obtain ⟨proxied, hproxied⟩ := Option.isSome_iff_exists.mp hroute
    have hhealth := not_health_of_matchRoute hproxied
    refine ⟨hhealth, ?_⟩
    cases hpublic : isPublicRoute req.method (rawSegments req.path) with
    | true => exact .inl rfl
    | false =>
        right
        simp only [canActivateWith, hhealth, hproxied, hpublic, Option.isNone_some,
          Bool.false_eq_true, if_false] at h
        cases htoken : bearerToken (req.headers "authorization") with
        | none =>
            rw [htoken] at h
            cases h
        | some token =>
            rw [htoken] at h
            dsimp only at h
            cases huser : verify token with
            | none =>
                rw [huser] at h
                cases h
            | some user =>
                rw [huser] at h
                obtain ⟨u, hcheck, hfound⟩ := bind_eq_ok.mp h
                cases hfound
                exact ⟨token, user, rfl, huser, rfl, meetsPolicies_of_checkFound hcheck⟩
  · unfold canActivateWith
    simp only [findPolicyIn_perm hperm]

end ApiGateway

end RydTrip
