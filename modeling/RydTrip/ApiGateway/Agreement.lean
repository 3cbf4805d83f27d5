import RydTrip.ApiGateway.Guard
import RydTrip.Process.Prog

/-!
# Role policies and upstream routing

A policy of the gateway is meant for a handler behind it, but what it matches is
the raw path.  The service sees the path that `fetch` has normalised, and its
router ignores case and a trailing slash and answers HEAD for GET.  A path that
the two read differently falls into another policy or into none.
`policyAgrees_iff` says for which requests that matters.
-/

namespace RydTrip

namespace ApiGateway

open Http Process

/-! ## What is wanted -/

/-- The policy for a route. -/
def entryOf (route : Route Handler) : Option RolePolicy :=
  rolePolicies.find? fun policy =>
    policy.method = route.method && policy.pattern.covers route.pattern

/-- The role is right, and so is the id that the handler receives. -/
def RolePolicy.Admits (entry : RolePolicy) (user : AuthenticatedUser) (params : List String) :
    Prop :=
  user.role ∈ entry.roles ∧
    ∀ group, entry.ownIdGroup = some group → params[group - 1]? = some user.sub

/-- Whoever reaches a handler with a policy through the gateway is one the policy
admits. -/
def PolicyAgrees (method : String) (path : List Char) : Prop :=
  ∀ (jwt : JwtService) (req : Request Unit) (uuid token : String) (user : AuthenticatedUser),
    req.method = method → req.path = path →
    bearerToken (req.headers "authorization") = some token → jwt.verify token = some user →
    user.role ≠ .operator →
    ∀ proxied forwarded route params entry, forward jwt req uuid = .ok (proxied, forwarded) →
      dispatch forwarded.method forwarded.path (upstreamRoutes forwarded.target) =
        .found route params →
      entryOf route = some entry → entry.Admits user params

/-! ## When it holds -/

/-- What the service that the raw path selects does with the request. -/
def upstream (method : String) (path : List Char) : Dispatch Handler :=
  match matchRoute (rawSegments path) getProxyRoutes with
  | none => .notFound
  | some proxied => dispatch method (normalize path) (upstreamRoutes proxied.target)

/-- The policy keeps out no rider and no driver. -/
def RolePolicy.Open (entry : RolePolicy) : Prop :=
  entry.ownIdGroup = none ∧ ∀ role, role ≠ .operator → role ∈ entry.roles

/-- The policy asks for the own id, or for no other roles than `entry`, which
does not. -/
def RolePolicy.AsStrictAs (policy entry : RolePolicy) : Prop :=
  policy.ownIdGroup.isSome ∨
    entry.ownIdGroup = none ∧ ∀ role ∈ policy.roles, role ∈ entry.roles

/-- The raw path itself matches a policy that is as strict as that of the handler
it reaches, unless that one keeps nobody out. -/
def Covered (method : String) (path : List Char) : Prop :=
  ∀ route params entry, upstream method path = .found route params →
    entryOf route = some entry →
      entry.Open ∨
        isPublicRoute method (rawSegments path) = false ∧
          ∃ policy ∈ rolePolicies, (policy.matches method (rawSegments path)).isSome ∧
            policy.AsStrictAs entry

/-! ## Getting past the guard -/

theorem entryOf_spec {route : Route Handler} {entry : RolePolicy}
    (h : entryOf route = some entry) :
    entry ∈ rolePolicies ∧ entry.method = route.method ∧
      entry.pattern.covers route.pattern = true := by
  have hfits := List.find?_some h
  rw [Bool.and_eq_true, decide_eq_true_iff] at hfits
  exact ⟨List.mem_of_find?_eq_some h, hfits⟩

/-! ## Covered requests -/

section Covered

variable {method : String} {path : List Char}

theorem upstream_found {route : Route Handler} {params : List String}
    (h : upstream method path = .found route params) :
    ∃ proxied, matchRoute (rawSegments path) getProxyRoutes = some proxied ∧
      dispatch method (normalize path) (upstreamRoutes proxied.target) = .found route params := by
  unfold upstream at h
  split at h
  · cases h
  next proxied hproxied => exact ⟨proxied, hproxied, h⟩

theorem match?_length {same : Segment → String → Bool} {pattern : Pattern}
    {segments captures : List Segment} (h : pattern.match? same segments = some captures) :
    captures.length = pattern.count .any := by
  induction pattern generalizing segments captures with
  | nil => rw [(match?_nil.mp h).2, List.length_nil, List.count_nil]
  | cons piece pattern ih =>
      obtain ⟨s, segments, rfl⟩ := exists_of_match?_cons h
      obtain ⟨-, rest, hrest, rfl⟩ := match?_cons.mp h
      rw [List.length_append, ih hrest, List.count_cons, Nat.add_comm]
      cases piece with
      | lit text => rfl
      | any => rfl
      | oneOf texts => rfl

/-- A plain id that a policy captures is what the handler of that policy
receives. -/
theorem entry_eq_of_own {policy entry : RolePolicy} {route : Route Handler}
    {params : List String} {user : AuthenticatedUser} {captures : List Segment} {group : Nat}
    (hplain : isPlain user.sub.toList = true) (hpolicy : policy ∈ rolePolicies)
    (hmatch : policy.matches method (rawSegments path) = some captures)
    (hgroup : policy.ownIdGroup = some group)
    (hcapture : capture captures group = some user.sub.toList)
    (hroute : upstream method path = .found route params)
    (hentry : entryOf route = some entry) : entry = policy ∧ params = [user.sub] := by
  obtain ⟨rfl, hcount⟩ := rolePolicies_group hpolicy hgroup
  obtain ⟨hmethod, hraw⟩ := RolePolicy.matches_eq_some.mp hmatch
  have hlength := match?_length hraw
  rw [hcount, List.length_eq_one_iff] at hlength
  obtain ⟨s, rfl⟩ := hlength
  have hs : s = user.sub.toList := Option.some.inj hcapture
  subst hs
  have hcaptures : ∀ c ∈ [user.sub.toList], isPlain c = true := by
    intro c hc
    rw [List.mem_singleton.mp hc]
    exact hplain
  have hsegments := isPlain_of_match? hraw
    (fun text htext => (rolePolicies_texts hpolicy text htext).2) hcaptures
  obtain ⟨proxied, -, hdispatch⟩ := upstream_found hroute
  rw [normalize_eq_of_plain hsegments] at hdispatch
  obtain ⟨-, hanswers, captures', hmatch', hparams⟩ := dispatch_found hdispatch
  rw [dropSlash_of_plain hsegments] at hmatch'
  obtain ⟨hmem, hmethod', hcovers⟩ := entryOf_spec hentry
  have hentrymatch := match?_of_covers hcovers hmatch'
  have hmethods : entry.method = policy.method := by
    rw [hmethod', hmethod]
    rcases Bool.or_eq_true_iff.mp hanswers with hsame | hhead
    · exact (of_decide_eq_true hsame).symm
    · have hhead : method = "HEAD" := of_decide_eq_true (Bool.and_eq_true_iff.mp hhead).1
      exact absurd (hmethod.trans hhead) (rolePolicies_method hpolicy)
  have hpolicymatch := RolePolicy.match?_nocase hpolicy hmatch
  have heq := policy_unique hmem hpolicy hmethods hentrymatch hpolicymatch
  rw [heq, hpolicymatch] at hentrymatch
  cases hentrymatch
  rw [mapM_decode_of_plain hcaptures] at hparams
  refine ⟨heq, ?_⟩
  rw [← Option.some.inj hparams, List.map_singleton, String.ofList_toList]

theorem Covered.agrees (h : Covered method path) : PolicyAgrees method path := by
  intro jwt req uuid token user hmethod hpath htoken huser hop proxied forwarded route params entry
    hforward hdispatch hentry
  obtain ⟨hactive, hroute, htarget, hfmethod, hfpath⟩ := forward_ok hforward
  rw [htarget, hfmethod, hfpath, hmethod, hpath] at hdispatch
  rw [hpath] at hroute
  have hup : upstream method path = .found route params := by
    simp only [upstream, hroute]
    exact hdispatch
  rcases h route params entry hup hentry with hopen | ⟨hpublic, policy, hpolicy, hmatch, hstrict⟩
  · refine ⟨hopen.2 user.role hop, fun group hgroup => ?_⟩
    rw [hopen.1] at hgroup
    cases hgroup
  · obtain ⟨captures, hmatch⟩ := Option.isSome_iff_exists.mp hmatch
    subst hmethod
    subst hpath
    rw [canActivate_private hroute hpublic htoken huser] at hactive
    obtain ⟨⟨⟩, hcheck, -⟩ := map_eq_ok.mp hactive
    obtain ⟨hrole, hown⟩ := (checkPolicy_ok (findPolicy_eq hpolicy hmatch)).mp hcheck
    rcases hstrict with hsome | ⟨hnone, hroles⟩
    · obtain ⟨group, hgroup⟩ := Option.isSome_iff_exists.mp hsome
      obtain ⟨rfl, rfl⟩ := entry_eq_of_own (jwt.isPlain_sub token user huser) hpolicy hmatch hgroup
        (hown group hgroup hop) hup hentry
      refine ⟨hrole, fun group' hgroup' => ?_⟩
      obtain ⟨rfl, -⟩ := rolePolicies_group hpolicy hgroup'
      rfl
    · refine ⟨hroles user.role hrole, fun group hgroup => ?_⟩
      rw [hnone] at hgroup
      cases hgroup

end Covered

/-! ## Requests that are not covered -/

/-- A service that takes every token for the user's. -/
def trusting (user : AuthenticatedUser) (h : isPlain user.sub.toList = true) : JwtService where
  verify _ := some user
  isPlain_sub _ _ hverify := Option.some.inj hverify ▸ h

/-- A request with the token `t`. -/
def withToken (method : String) (path : List Char) : Request Unit where
  method := method
  path := path
  headers name := if name = "authorization" then some "Bearer t" else none
  limit := none
  body := ()

section Uncovered

variable {method : String} {path : List Char} {route : Route Handler} {params : List String}
  {entry : RolePolicy}

theorem upstreamRoutes_method {target : Service} (h : route ∈ upstreamRoutes target) :
    route.method ∈ ["GET", "POST", "PATCH"] := by
  have hall : ∀ target ∈ [Service.location, .rider, .driver, .trip],
      ∀ route ∈ upstreamRoutes target, route.method ∈ ["GET", "POST", "PATCH"] := by decide
  exact hall target (by cases target <;> decide) route h

/-- `fetch` sends every method that a handler answers. -/
theorem not_forbidden_of_found (h : upstream method path = .found route params) :
    forbiddenMethods.contains method = false := by
  obtain ⟨proxied, -, hdispatch⟩ := upstream_found h
  obtain ⟨hmem, hanswers, -⟩ := dispatch_found hdispatch
  have hmethods : ∀ method ∈ ["HEAD", "GET", "POST", "PATCH"],
      forbiddenMethods.contains method = false := by decide
  rcases Bool.or_eq_true_iff.mp hanswers with hsame | hhead
  · rw [of_decide_eq_true hsame]
    exact hmethods _ (.tail _ (upstreamRoutes_method hmem))
  · rw [of_decide_eq_true (Bool.and_eq_true_iff.mp hhead).1]
    exact hmethods _ (.head _)

/-- A user who gets past the guard has to be one whom the entry admits. -/
theorem PolicyAgrees.admits (h : PolicyAgrees method path)
    (hup : upstream method path = .found route params) (hentry : entryOf route = some entry)
    {user : AuthenticatedUser} (hplain : isPlain user.sub.toList = true)
    (hop : user.role ≠ .operator)
    (hpast : isPublicRoute method (rawSegments path) = true ∨
      isPublicRoute method (rawSegments path) = false ∧
        checkPolicy method (rawSegments path) user = .ok ()) : entry.Admits user params := by
  obtain ⟨proxied, hroute, hdispatch⟩ := upstream_found hup
  have hactive :
      ∃ found, canActivate (trusting user hplain) (withToken method path) = .ok found := by
    rcases hpast with hpublic | ⟨hpublic, hcheck⟩
    · exact ⟨none, canActivate_public hroute hpublic⟩
    · have htoken : bearerToken ((withToken method path).headers "authorization") = some "t" := rfl
      have hverify : (trusting user hplain).verify "t" = some user := rfl
      refine ⟨some user, (canActivate_private hroute hpublic htoken hverify).trans ?_⟩
      simp only [withToken, hcheck]
      rfl
  obtain ⟨found, hactive⟩ := hactive
  have hforward : ∃ forwarded,
      forward (trusting user hplain) (withToken method path) "" = .ok (proxied, forwarded) := by
    simp only [forward, hactive]
    simp only [withToken, hroute, not_forbidden_of_found hup, Bool.false_eq_true, if_false]
    exact ⟨_, rfl⟩
  obtain ⟨forwarded, hforward⟩ := hforward
  obtain ⟨-, -, htarget, hfmethod, hfpath⟩ := forward_ok hforward
  refine h (trusting user hplain) (withToken method path) "" "t" user rfl rfl rfl rfl hop proxied
    forwarded route params entry hforward ?_ hentry
  rw [htarget, hfmethod, hfpath]
  exact hdispatch

/-- Two plain ids, so that one of them is not the parameter. -/
theorem exists_other_sub (param : Option String) :
    ∃ sub : String, isPlain sub.toList = true ∧ param ≠ some sub := by
  by_cases h : param = some "a"
  · refine ⟨"b", by decide, ?_⟩
    rw [h]
    decide
  · exact ⟨"a", by decide, h⟩

theorem PolicyAgrees.covered (h : PolicyAgrees method path) : Covered method path := by
  intro route params entry hup hentry
  -- whoever gets past the guard with a role is admitted under every plain id
  have hadmits (role : Role) (hop : role ≠ .operator)
      (hpast : ∀ sub, isPublicRoute method (rawSegments path) = true ∨
        isPublicRoute method (rawSegments path) = false ∧
          checkPolicy method (rawSegments path) ⟨sub, role⟩ = .ok ()) :
      entry.ownIdGroup = none ∧ role ∈ entry.roles := by
    have hsub (sub : String) (hplain : isPlain sub.toList = true) :
        entry.Admits ⟨sub, role⟩ params := h.admits hup hentry hplain hop (hpast sub)
    constructor
    · cases hgroup : entry.ownIdGroup with
      | none => rfl
      | some group =>
          obtain ⟨sub, hplain, hne⟩ := exists_other_sub params[group - 1]?
          exact absurd ((hsub sub hplain).2 group hgroup) hne
    · exact (hsub "a" (by decide)).1
  cases hpublic : isPublicRoute method (rawSegments path) with
  | true =>
      have hall (role : Role) (hop : role ≠ .operator) := hadmits role hop fun _ => .inl hpublic
      exact .inl ⟨(hall .rider nofun).1, fun role hop => (hall role hop).2⟩
  | false =>
      cases hfind : findPolicy method (rawSegments path) with
      | none =>
          have hall (role : Role) (hop : role ≠ .operator) := hadmits role hop fun _ =>
            .inr ⟨hpublic, checkPolicy_none hfind⟩
          exact .inl ⟨(hall .rider nofun).1, fun role hop => (hall role hop).2⟩
      | some found =>
          obtain ⟨policy, captures⟩ := found
          obtain ⟨hpolicy, hmatch⟩ := findPolicy_matches hfind
          refine .inr ⟨rfl, policy, hpolicy, Option.isSome_of_eq_some hmatch, ?_⟩
          cases hgroup : policy.ownIdGroup with
          | some group =>
              left
              rw [hgroup]
              rfl
          | none =>
              have hall (role : Role) (hop : role ≠ .operator) (hrole : role ∈ policy.roles) :=
                hadmits role hop fun sub => .inr ⟨hpublic, (checkPolicy_ok hfind).mpr
                  ⟨hrole, fun group hsome => by rw [hgroup] at hsome; cases hsome⟩⟩
              obtain ⟨-, hsomeone⟩ := rolePolicies_roles hpolicy
              refine .inr ⟨?_, fun role hrole => ?_⟩
              · rcases hsomeone with hrider | hdriver
                · exact (hall .rider nofun hrider).1
                · exact (hall .driver nofun hdriver).1
              · by_cases hop : role = .operator
                · rw [hop]
                  exact (rolePolicies_roles (entryOf_spec hentry).1).1
                · exact (hall role hop hrole).2

end Uncovered

/-- Gateway and service agree on a request exactly if it is covered. -/
theorem policyAgrees_iff (method : String) (path : List Char) :
    PolicyAgrees method path ↔ Covered method path :=
  ⟨PolicyAgrees.covered, Covered.agrees⟩

/-- The profile of a driver, read with a trailing slash and the token of somebody
else. -/
theorem not_policyAgrees_trailingSlash : ¬ ∀ method path, PolicyAgrees method path := by
  intro h
  have hadmits := h "GET" "drivers/driver-2/".toList (trusting ⟨"rider-1", .rider⟩ (by decide))
    (withToken "GET" "drivers/driver-2/".toList) "" "t" ⟨"rider-1", .rider⟩ rfl rfl rfl rfl nofun
    _ _ ⟨"GET", [.lit "drivers", .any], .findDriver⟩ ["driver-2"] _ rfl rfl rfl
  exact absurd hadmits.1 (by decide)

end ApiGateway

end RydTrip
