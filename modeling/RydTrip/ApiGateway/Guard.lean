import RydTrip.ApiGateway.Routes
import RydTrip.Process.Prog

/-!
# The gateway

`services/api-gateway/src/auth/jwt-auth.guard.ts` and
`services/api-gateway/src/proxy/proxy.controller.ts`.  A request that the guard
lets through and that has a route is forwarded, and all that goes with it of
what the client sent is the method, the URL, the correlation id and the body.

What verifies a token comes from outside.  Tokens are signed at login over the
id of an account, a UUID, so the `sub` of one that verifies is plain.
-/

namespace RydTrip

namespace ApiGateway

open Http Process

/-! ## Requests -/

inductive Role where
  | rider | driver | operator
  deriving DecidableEq, Repr

def Role.text : Role → String
  | .rider => "rider"
  | .driver => "driver"
  | .operator => "operator"

structure AuthenticatedUser where
  sub : String
  role : Role
  deriving DecidableEq, Repr

structure JwtService where
  /-- `verifyAsync` -/
  verify : String → Option AuthenticatedUser
  isPlain_sub : ∀ token user, verify token = some user → isPlain user.sub.toList = true

/-- A request as the gateway has parsed it.  `path` is what follows the first
slash, header names are in lower case, and of the query there is the `limit`,
which is all that the services below read of it. -/
structure Request (β : Type) where
  method : String
  path : List Char
  headers : String → Option String
  limit : Option Int
  body : β

/-! ## The guard -/

/-- `PUBLIC_ROUTES` -/
def publicRoutes : List (String × List String) :=
  [("POST", ["riders"]), ("POST", ["riders", "login"]), ("POST", ["drivers"]),
    ("POST", ["drivers", "login"]), ("GET", ["drivers", "nearby"]),
    ("GET", ["drivers", "any-online"])]

/-- `PUBLIC_PATTERNS` -/
def publicPatterns : List (String × Pattern) :=
  [("GET", [.lit "drivers", .any, .lit "vehicle"])]

def isPublicRoute (method : String) (path : List Segment) : Bool :=
  (publicRoutes.any fun route => route.1 = method && route.2.map String.toList = path) ||
    publicPatterns.any fun route => route.1 = method && (route.2.match? exact path).isSome

structure RolePolicy where
  method : String
  pattern : Pattern
  roles : List Role
  /-- The capture group that has to equal the `sub`. -/
  ownIdGroup : Option Nat := none
  deriving DecidableEq, Repr

/-- `ROLE_POLICIES` -/
def rolePolicies : List RolePolicy :=
  [{ method := "GET", pattern := [.lit "riders", .any], roles := [.rider, .operator]
     ownIdGroup := some 1 },
    { method := "PATCH", pattern := [.lit "riders", .any], roles := [.rider, .operator]
      ownIdGroup := some 1 },
    { method := "GET", pattern := [.lit "riders", .any, .lit "contact"]
      roles := [.driver, .operator] },
    { method := "POST", pattern := [.lit "rides"], roles := [.rider, .operator] },
    { method := "POST", pattern := [.lit "rides", .any, .lit "cancel"]
      roles := [.rider, .operator] },
    { method := "GET", pattern := [.lit "drivers", .any], roles := [.driver, .operator]
      ownIdGroup := some 1 },
    { method := "GET", pattern := [.lit "drivers", .any, .lit "contact"]
      roles := [.rider, .operator] },
    { method := "PATCH", pattern := [.lit "drivers", .any, .lit "status"]
      roles := [.driver, .operator], ownIdGroup := some 1 },
    { method := "PATCH", pattern := [.lit "drivers", .any], roles := [.driver, .operator]
      ownIdGroup := some 1 },
    { method := "POST", pattern := [.lit "drivers", .any, .lit "location"]
      roles := [.driver, .operator], ownIdGroup := some 1 },
    { method := "GET", pattern := [.lit "trips", .lit "driver", .any, .lit "active"]
      roles := [.driver, .operator], ownIdGroup := some 1 },
    { method := "GET", pattern := [.lit "trips", .lit "rider", .any, .lit "history"]
      roles := [.rider, .operator], ownIdGroup := some 1 },
    { method := "GET", pattern := [.lit "trips", .lit "driver", .any, .lit "history"]
      roles := [.driver, .operator], ownIdGroup := some 1 },
    { method := "GET", pattern := [.lit "trips", .any], roles := [.rider, .driver, .operator] },
    { method := "GET", pattern := [.lit "trips", .any, .lit "otp"], roles := [.rider, .operator] },
    { method := "POST"
      pattern := [.lit "trips", .any,
        .oneOf ["accept", "decline", "driver-arrived", "start", "complete"]]
      roles := [.driver, .operator] },
    { method := "POST", pattern := [.lit "trips", .any, .lit "cancel"]
      roles := [.rider, .driver, .operator] }]

/-- The policy applies to the request, with these captures. -/
def RolePolicy.matches (policy : RolePolicy) (method : String) (path : List Segment) :
    Option (List Segment) :=
  if policy.method = method then policy.pattern.match? exact path else none

def findPolicyIn (method : String) (path : List Segment) :
    List RolePolicy → Option (RolePolicy × List Segment)
  | [] => none
  | policy :: policies =>
      match policy.matches method path with
      | some captures => some (policy, captures)
      | none => findPolicyIn method path policies

def findPolicy (method : String) (path : List Segment) : Option (RolePolicy × List Segment) :=
  findPolicyIn method path rolePolicies

inductive HttpException where
  | unauthorized (message : String)
  | forbidden (message : String)
  deriving DecidableEq, Repr

/-- `match[policy.ownIdGroup]` -/
def capture (captures : List Segment) (group : Nat) : Option Segment := captures[group - 1]?

/-- What is checked once the token is verified. -/
def checkPolicy (method : String) (path : List Segment) (user : AuthenticatedUser) :
    Except HttpException Unit :=
  match findPolicy method path with
  | none => .ok ()
  | some (policy, captures) =>
      if !policy.roles.contains user.role then
        .error (.forbidden s!"Role '{user.role.text}' is not permitted to call this route")
      else
        match policy.ownIdGroup with
        | none => .ok ()
        | some group =>
            if user.role ≠ .operator ∧ capture captures group ≠ some user.sub.toList then
              .error (.forbidden s!"Cannot act on another {user.role.text}'s resource")
            else .ok ()

/-- The token of an `authorization` header, if it is not empty. -/
def bearerToken (header : Option String) : Option String := do
  let header ← header
  if "Bearer ".toList.isPrefixOf header.toList then
    let token := header.toList.drop "Bearer ".length
    if token.isEmpty then none else some (String.ofList token)
  else none

variable {β : Type}

/-- The user whose token comes with the request. -/
def Request.user? (jwt : JwtService) (req : Request β) : Option AuthenticatedUser :=
  (bearerToken (req.headers "authorization")).bind jwt.verify

/-- Lets the request through, with the user whose token was verified if one was
asked for. -/
def canActivate (jwt : JwtService) (req : Request β) :
    Except HttpException (Option AuthenticatedUser) :=
  let path := rawSegments req.path
  if "health".toList.isPrefixOf (path.headD []) then .ok none
  else if (matchRoute path getProxyRoutes).isNone then .ok none
  else if isPublicRoute req.method path then .ok none
  else
    match bearerToken (req.headers "authorization") with
    | none => .error (.unauthorized "Missing bearer token")
    | some token =>
        match jwt.verify token with
        | none => .error (.unauthorized "Invalid or expired token")
        | some user => do
            checkPolicy req.method path user
            return some user

/-! ## The proxy -/

/-- What is sent to the service. -/
structure Forwarded (β : Type) where
  target : Service
  method : String
  /-- The segments of the URL that `fetch` builds. -/
  path : List Segment
  limit : Option Int
  correlationId : String
  /-- `x-user-id` and `x-user-role` -/
  user : Option AuthenticatedUser
  body : Option β

/-- How the gateway answers by itself. -/
inductive OwnReply where
  | denied (err : HttpException)
  | notFound (message : String)
  | badGateway (message : String)
  deriving DecidableEq, Repr

def notFoundReply (req : Request β) : OwnReply :=
  .notFound s!"No route configured for /{String.ofList req.path}"

/-- The text of a prefix. -/
def ProxyRoute.text (route : ProxyRoute) : String :=
  String.join (route.pathPrefix.map fun segment => "/" ++ segment)

def badGatewayReply (route : ProxyRoute) : OwnReply :=
  .badGateway s!"Upstream service for {route.text} is unreachable"

/-- Methods that `fetch` refuses to send. -/
def forbiddenMethods : List String := ["CONNECT", "TRACE", "TRACK"]

/-- Guard and proxy, up to the request to the service.  `uuid` is the draw of a
correlation id. -/
def forward (jwt : JwtService) (req : Request β) (uuid : String) :
    Except OwnReply (ProxyRoute × Forwarded β) :=
  match canActivate jwt req with
  | .error err => .error (.denied err)
  | .ok user =>
      match matchRoute (rawSegments req.path) getProxyRoutes with
      | none => .error (notFoundReply req)
      | some route =>
          if forbiddenMethods.contains req.method then .error (badGatewayReply route)
          else
            .ok (route,
              { target := route.target, method := req.method, path := normalize req.path
                limit := req.limit
                correlationId := (req.headers "x-correlation-id").getD uuid, user := user
                body := if ["GET", "HEAD"].contains req.method then none else some req.body })

/-! ## What the policies have in common -/

/-- No two policies of one method match the same path. -/
theorem rolePolicies_apart {p q : RolePolicy} (hp : p ∈ rolePolicies) (hq : q ∈ rolePolicies)
    (h : p.method = q.method) : p = q ∨ p.pattern.apart q.pattern = true := by
  have hall : ∀ p ∈ rolePolicies, ∀ q ∈ rolePolicies, p.method = q.method →
      p = q ∨ p.pattern.apart q.pattern = true := by decide
  exact hall p hp q hq h

theorem rolePolicies_texts {policy : RolePolicy} (h : policy ∈ rolePolicies) :
    ∀ text ∈ Pattern.texts policy.pattern, isLower text = true ∧ isPlain text.toList = true := by
  revert policy
  decide

/-- The pattern of an owned resource has its id as the only capture. -/
theorem rolePolicies_group {policy : RolePolicy} (h : policy ∈ rolePolicies) {group : Nat}
    (hgroup : policy.ownIdGroup = some group) : group = 1 ∧ policy.pattern.count .any = 1 := by
  have hall : ∀ policy ∈ rolePolicies, policy.ownIdGroup = none ∨
      policy.ownIdGroup = some 1 ∧ policy.pattern.count .any = 1 := by decide
  rcases hall policy h with hnone | ⟨hone, hcount⟩
  · rw [hnone] at hgroup
    cases hgroup
  · rw [hone] at hgroup
    cases hgroup
    exact ⟨rfl, hcount⟩

theorem rolePolicies_method {policy : RolePolicy} (h : policy ∈ rolePolicies) :
    policy.method ≠ "HEAD" := by
  revert policy
  decide

/-- Every policy lets operators in, and somebody else. -/
theorem rolePolicies_roles {policy : RolePolicy} (h : policy ∈ rolePolicies) :
    .operator ∈ policy.roles ∧ (.rider ∈ policy.roles ∨ .driver ∈ policy.roles) := by
  revert policy
  decide

theorem RolePolicy.matches_eq_some {policy : RolePolicy} {method : String} {path : List Segment}
    {captures : List Segment} : policy.matches method path = some captures ↔
      policy.method = method ∧ policy.pattern.match? exact path = some captures := by
  unfold RolePolicy.matches
  split
  next h => rw [and_iff_right h]
  next h => exact ⟨nofun, fun h' => absurd h'.1 h⟩

/-- A match, as a router sees it. -/
theorem RolePolicy.match?_nocase {policy : RolePolicy} (h : policy ∈ rolePolicies)
    {method : String} {path captures : List Segment}
    (hmatch : policy.matches method path = some captures) :
    policy.pattern.match? nocase path = some captures :=
  Http.match?_nocase (matches_eq_some.mp hmatch).2 fun text htext =>
    (rolePolicies_texts h text htext).1

/-- Two policies of one method that match a path, each as a router sees it, are
the same. -/
theorem policy_unique {p q : RolePolicy} (hp : p ∈ rolePolicies) (hq : q ∈ rolePolicies)
    (hmethod : p.method = q.method) {path captures captures' : List Segment}
    (hpath : p.pattern.match? nocase path = some captures)
    (hpath' : q.pattern.match? nocase path = some captures') : p = q := by
  rcases rolePolicies_apart hp hq hmethod with heq | hapart
  · exact heq
  · exact absurd hpath' (not_match?_of_apart hapart hpath)

/-- The policy that is found is the one that matches, in whatever order the
policies are. -/
theorem findPolicyIn_eq {policies : List RolePolicy} (hsub : ∀ q ∈ policies, q ∈ rolePolicies)
    {policy : RolePolicy} (h : policy ∈ policies) {method : String} {path captures : List Segment}
    (hmatch : policy.matches method path = some captures) :
    findPolicyIn method path policies = some (policy, captures) := by
  induction policies with
  | nil => cases h
  | cons q policies ih =>
      rw [findPolicyIn]
      split
      next captures' hq =>
        have hmethod : q.method = policy.method :=
          (RolePolicy.matches_eq_some.mp hq).1.trans (RolePolicy.matches_eq_some.mp hmatch).1.symm
        have heq : q = policy := policy_unique (hsub q (.head _)) (hsub policy h) hmethod
          (RolePolicy.match?_nocase (hsub q (.head _)) hq)
          (RolePolicy.match?_nocase (hsub policy h) hmatch)
        rw [heq] at hq ⊢
        rw [hmatch] at hq
        cases hq
        rfl
      next hq =>
        rcases List.mem_cons.mp h with rfl | h
        · rw [hmatch] at hq
          cases hq
        · exact ih (fun q' hq' => hsub q' (.tail _ hq')) h

theorem findPolicy_eq {policy : RolePolicy} (h : policy ∈ rolePolicies) {method : String}
    {path captures : List Segment} (hmatch : policy.matches method path = some captures) :
    findPolicy method path = some (policy, captures) :=
  findPolicyIn_eq (fun _ hq => hq) h hmatch

theorem findPolicyIn_matches {policies : List RolePolicy} {policy : RolePolicy} {method : String}
    {path captures : List Segment}
    (h : findPolicyIn method path policies = some (policy, captures)) :
    policy ∈ policies ∧ policy.matches method path = some captures := by
  induction policies with
  | nil => cases h
  | cons q policies ih =>
      rw [findPolicyIn] at h
      split at h
      next captures' hq =>
        cases h
        exact ⟨.head _, hq⟩
      next hq => exact ⟨.tail _ (ih h).1, (ih h).2⟩

/-- The policy that is found matches. -/
theorem findPolicy_matches {policy : RolePolicy} {method : String} {path captures : List Segment}
    (h : findPolicy method path = some (policy, captures)) :
    policy ∈ rolePolicies ∧ policy.matches method path = some captures :=
  findPolicyIn_matches h

/-! ## What the guard asks for -/

/-- The first segments of the routes. -/
def routedHeads : List String := ["drivers", "riders", "rides", "trips"]

theorem not_health_of_mem {first : String} (h : first ∈ routedHeads) :
    "health".toList.isPrefixOf first.toList = false := by
  revert first
  decide

/-- A path with a route starts with one of them. -/
theorem head?_of_matchRoute {path : List Segment} {proxied : ProxyRoute}
    (h : matchRoute path getProxyRoutes = some proxied) :
    ∃ first ∈ routedHeads, path.head? = some first.toList := by
  rcases Option.or_eq_some_iff.mp h with hfind | ⟨-, hfind⟩
  · have htest := List.find?_some (p := fun route : ProxyRoute => route.test path) hfind
    have hall : ∀ route ∈ getProxyRoutes, ∀ pattern, route.pattern = some pattern →
        pattern = driverLocationPattern := by
      intro route hroute pattern hpattern
      have hroutes : ∀ route ∈ getProxyRoutes,
          route.pattern = none ∨ route.pattern = some driverLocationPattern := by decide
      rcases hroutes route hroute with hnone | hsome
      · rw [hnone] at hpattern
        cases hpattern
      · rw [hsome] at hpattern
        cases hpattern
        rfl
    unfold ProxyRoute.test at htest
    cases hpattern : proxied.pattern with
    | none =>
        rw [hpattern] at htest
        cases htest
    | some pattern =>
        rw [hpattern, hall proxied (List.mem_of_find?_eq_some hfind) pattern hpattern] at htest
        obtain ⟨captures, hcaptures⟩ := Option.isSome_iff_exists.mp htest
        obtain ⟨s, rest, rfl⟩ := exists_of_match?_cons hcaptures
        have hs : s = "drivers".toList := of_decide_eq_true (match?_cons.mp hcaptures).1
        exact ⟨"drivers", .head _, by rw [hs]; rfl⟩
  · have hpre := List.find?_some (p := fun route : ProxyRoute => route.hasPrefix path) hfind
    obtain ⟨rest, rfl⟩ := List.isPrefixOf_iff_prefix.mp hpre
    have hall : ∀ route ∈ getProxyRoutes, ∃ first ∈ routedHeads,
        route.pathPrefix.head? = some first := by decide
    obtain ⟨first, hfirst, hhead⟩ := hall proxied (List.mem_of_find?_eq_some hfind)
    refine ⟨first, hfirst, ?_⟩
    rw [List.head?_append, List.head?_map, hhead]
    rfl

theorem not_health_of_matchRoute {path : List Segment} {proxied : ProxyRoute}
    (h : matchRoute path getProxyRoutes = some proxied) :
    "health".toList.isPrefixOf (path.headD []) = false := by
  obtain ⟨first, hfirst, hhead⟩ := head?_of_matchRoute h
  rw [List.headD_eq_head?_getD, hhead, Option.getD_some]
  exact not_health_of_mem hfirst

section Guard

variable {jwt : JwtService} {req : Request β} {proxied : ProxyRoute}

theorem canActivate_public
    (hroute : matchRoute (rawSegments req.path) getProxyRoutes = some proxied)
    (hpublic : isPublicRoute req.method (rawSegments req.path) = true) :
    canActivate jwt req = .ok none := by
  simp only [canActivate, not_health_of_matchRoute hroute, hroute, hpublic, Option.isNone_some,
    Bool.false_eq_true, if_false, if_true]

/-- Where a token is asked for, what is left to do after verifying it is the
policy check. -/
theorem canActivate_private
    (hroute : matchRoute (rawSegments req.path) getProxyRoutes = some proxied)
    (hpublic : isPublicRoute req.method (rawSegments req.path) = false) {token : String}
    (htoken : bearerToken (req.headers "authorization") = some token) {user : AuthenticatedUser}
    (huser : jwt.verify token = some user) :
    canActivate jwt req =
      (checkPolicy req.method (rawSegments req.path) user).map fun _ => some user := by
  simp only [canActivate, not_health_of_matchRoute hroute, hroute, hpublic, Option.isNone_some,
    Bool.false_eq_true, if_false, htoken, huser]
  cases checkPolicy req.method (rawSegments req.path) user with
  | error err => rfl
  | ok u => rfl

/-- Whoever is let through without a public route has shown a token. -/
theorem verified_of_canActivate
    (hroute : matchRoute (rawSegments req.path) getProxyRoutes = some proxied)
    (hpublic : isPublicRoute req.method (rawSegments req.path) = false)
    {found : Option AuthenticatedUser} (h : canActivate jwt req = .ok found) :
    ∃ user, (bearerToken (req.headers "authorization")).bind jwt.verify = some user ∧
      found = some user := by
  cases htoken : bearerToken (req.headers "authorization") with
  | none =>
      simp only [canActivate, not_health_of_matchRoute hroute, hroute, hpublic, Option.isNone_some,
        Bool.false_eq_true, if_false, htoken] at h
      cases h
  | some token =>
      cases huser : jwt.verify token with
      | none =>
          simp only [canActivate, not_health_of_matchRoute hroute, hroute, hpublic,
            Option.isNone_some, Bool.false_eq_true, if_false, htoken, huser] at h
          cases h
      | some user =>
          rw [canActivate_private hroute hpublic htoken huser] at h
          obtain ⟨-, -, rfl⟩ := map_eq_ok.mp h
          exact ⟨user, huser, rfl⟩

/-- What the policy check has made sure of. -/
theorem checkPolicy_ok {method : String} {path : List Segment} {user : AuthenticatedUser}
    {policy : RolePolicy} {captures : List Segment}
    (hfind : findPolicy method path = some (policy, captures)) :
    checkPolicy method path user = .ok () ↔
      user.role ∈ policy.roles ∧ ∀ group, policy.ownIdGroup = some group →
        user.role ≠ .operator → capture captures group = some user.sub.toList := by
  unfold checkPolicy
  rw [hfind]
  by_cases hrole : user.role ∈ policy.roles
  · simp only [List.contains_iff_mem.mpr hrole, Bool.not_true, Bool.false_eq_true, if_false]
    cases policy.ownIdGroup with
    | none => exact ⟨fun _ => ⟨hrole, nofun⟩, fun _ => rfl⟩
    | some group =>
        dsimp only
        split
        next hbad =>
          refine ⟨fun h => ?_, fun h => absurd (h.2 group rfl hbad.1) hbad.2⟩
          cases h
        next hgood =>
          refine ⟨fun _ => ⟨hrole, fun group' hgroup hop => ?_⟩, fun _ => rfl⟩
          cases hgroup
          by_contra hne
          exact hgood ⟨hop, hne⟩
  · simp only [List.contains_eq_mem, hrole, decide_false, Bool.not_false, if_true, false_and,
      iff_false]
    nofun

/-- A request that is let through without a word about its user. -/
theorem checkPolicy_none {method : String} {path : List Segment} {user : AuthenticatedUser}
    (hfind : findPolicy method path = none) : checkPolicy method path user = .ok () := by
  unfold checkPolicy
  rw [hfind]

end Guard

/-! ## What a forwarded request carries -/

/-- A forwarded request has the user that the guard verified. -/
theorem forward_ok {jwt : JwtService} {req : Request β} {uuid : String} {route : ProxyRoute}
    {forwarded : Forwarded β} (h : forward jwt req uuid = .ok (route, forwarded)) :
    canActivate jwt req = .ok forwarded.user ∧
      matchRoute (rawSegments req.path) getProxyRoutes = some route ∧
      forwarded.target = route.target ∧ forwarded.method = req.method ∧
      forwarded.path = normalize req.path := by
  unfold forward at h
  split at h
  · cases h
  next user huser =>
    split at h
    · cases h
    next route' hroute =>
      split at h
      · cases h
      · cases h
        exact ⟨huser, hroute, rfl, rfl, rfl⟩

end ApiGateway

end RydTrip
