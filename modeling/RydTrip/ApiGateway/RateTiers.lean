import RydTrip.ApiGateway.Guard
import RydTrip.ApiGateway.RateLimit

/-!
# The tight tier of the rate limiter

The routes that need no token are listed twice: for the guard that asks for
tokens, as texts and one pattern, and for the rate limiter, as patterns.  The two
lists accept the same requests.  So whoever gets to a service without a token has
been counted against one of the tight limits, and the counters of the default
tier are left to requests with a token.
-/

namespace RydTrip

namespace ApiGateway

open Http Process

/-! ## The two tables -/

theorem isSome_match?_cons {same : Segment → String → Bool} {piece : Piece} {pattern : Pattern}
    {s : Segment} {segments : List Segment} :
    (Pattern.match? same (piece :: pattern) (s :: segments)).isSome =
      (piece.fits same s && (Pattern.match? same pattern segments).isSome) := by
  rw [Pattern.match?]
  split
  next h => rw [Option.isSome_map, h, Bool.true_and]
  next h => rw [Bool.eq_false_iff.mpr h, Bool.false_and, Option.isSome_none]

/-- A text is the pattern of its own segments. -/
theorem isSome_match?_lit (texts : List String) (path : List Segment) :
    (Pattern.match? exact (texts.map .lit) path).isSome =
      decide (texts.map String.toList = path) := by
  induction texts generalizing path with
  | nil =>
      cases path with
      | nil => rfl
      | cons s path => rfl
  | cons text texts ih =>
      cases path with
      | nil => rfl
      | cons s path =>
          rw [List.map_cons, isSome_match?_cons, ih, List.map_cons]
          have hfits : (Piece.lit text).fits exact s = decide (s = text.toList) := rfl
          rw [hfits, ← Bool.decide_and]
          refine decide_eq_decide.mpr ?_
          rw [List.cons.injEq, eq_comm]

/-- `PUBLIC_ROUTES` and `PUBLIC_PATTERNS` as one list of patterns. -/
def publicTable : List (String × Pattern) :=
  publicRoutes.map (fun route => (route.1, route.2.map .lit)) ++ publicPatterns

theorem isPublicRoute_eq (method : String) (path : List Segment) :
    isPublicRoute method path = publicTable.any fun route =>
      route.1 = method && (route.2.match? exact path).isSome := by
  unfold isPublicRoute publicTable
  rw [List.any_append, List.any_map]
  congr 2
  funext route
  exact congrArg (decide (route.1 = method) && ·) (isSome_match?_lit route.2 path).symm

/-- The rate limiter has the same list. -/
theorem rateLimitPolicies_table :
    rateLimitPolicies.map (fun policy => (policy.method, policy.pattern)) = publicTable := rfl

theorem rateLimitPolicies_tight {policy : RateLimitPolicy} (h : policy ∈ rateLimitPolicies) :
    policy.toRateLimit.label ≠ defaultPolicy.label := by
  revert policy
  decide

/-- The first explicit policy is found exactly for a public route. -/
theorem findRateLimitPolicy_cases (method : String) (path : List Segment) :
    (isPublicRoute method path = true ∧
        ∃ policy ∈ rateLimitPolicies, findRateLimitPolicy method path = policy.toRateLimit) ∨
      (isPublicRoute method path = false ∧ findRateLimitPolicy method path = defaultPolicy) := by
  have hany : isPublicRoute method path = rateLimitPolicies.any fun policy =>
      policy.method = method && (policy.pattern.match? exact path).isSome := by
    rw [isPublicRoute_eq, ← rateLimitPolicies_table, List.any_map]
    rfl
  unfold findRateLimitPolicy
  cases hfind : rateLimitPolicies.find? fun policy =>
      policy.method = method && (policy.pattern.match? exact path).isSome with
  | some policy =>
      left
      have hmem := List.mem_of_find?_eq_some hfind
      have hmatch := List.find?_some (p := fun policy : RateLimitPolicy =>
        policy.method = method && (policy.pattern.match? exact path).isSome) hfind
      exact ⟨hany.trans (List.any_eq_true.mpr ⟨policy, hmem, hmatch⟩), policy, hmem, rfl⟩
  | none =>
      right
      refine ⟨hany.trans (List.any_eq_false.mpr fun policy hmem => ?_), rfl⟩
      exact List.find?_eq_none.mp hfind policy hmem

/-! ## Requests without a token -/

variable {β : Type}

/-- A public route has no token verified, and what is let through without one is
public. -/
theorem public_of_forward {jwt : JwtService} {req : Request β} {uuid : String}
    {route : ProxyRoute} {fwd : Forwarded β} (h : forward jwt req uuid = .ok (route, fwd))
    (htoken : req.user? jwt = none ∨ fwd.user = none) :
    isPublicRoute req.method (rawSegments req.path) = true ∧
      "health".toList.isPrefixOf ((rawSegments req.path).headD []) = false := by
  unfold forward at h
  cases hguard : canActivate jwt req with
  | error err =>
      rw [hguard] at h
      cases h
  | ok user =>
      rw [hguard] at h
      cases hroute : matchRoute (rawSegments req.path) getProxyRoutes with
      | none =>
          simp only [hroute] at h
          cases h
      | some proxied =>
          refine ⟨?_, not_health_of_matchRoute hroute⟩
          cases hpublic : isPublicRoute req.method (rawSegments req.path) with
          | true => rfl
          | false =>
              obtain ⟨verified, huser, rfl⟩ := verified_of_canActivate hroute hpublic hguard
              simp only [hroute] at h
              split at h
              · cases h
              · cases h
                rcases htoken with hnone | hnone
                · cases huser.symm.trans hnone
                · cases hnone

/-- The routes that are open are the ones with an explicit rate limit.  A request
that gets to a service without a token is counted, and not by the default tier,
whatever the counters say. -/
theorem openRoutes_tight (jwt : JwtService) :
    (∀ method path, isPublicRoute method path = true ↔
      findRateLimitPolicy method path ∈ rateLimitPolicies.map (·.toRateLimit) ∧
        findRateLimitPolicy method path ≠ defaultPolicy) ∧
      ∀ (req : Request β) uuid route fwd, forward jwt req uuid = .ok (route, fwd) →
        (req.user? jwt = none ∨ fwd.user = none) →
        ∀ (guard : RateLimitGuard) ip now,
          let caller : Caller := ⟨req.method, req.path, ip⟩
          caller.exempt = false ∧ caller.policy ≠ defaultPolicy ∧
            ∀ ip', (guard.canActivate caller now).2.hits (hitKey defaultPolicy.label ip') =
              guard.hits (hitKey defaultPolicy.label ip') := by
  refine ⟨fun method path => ?_, fun req uuid route fwd h htoken guard ip now => ?_⟩
  · rcases findRateLimitPolicy_cases method path with
      ⟨hpublic, policy, hmem, hfind⟩ | ⟨hpublic, hfind⟩
    · refine ⟨fun _ => ⟨hfind ▸ List.mem_map_of_mem hmem, fun heq => ?_⟩, fun _ => hpublic⟩
      exact rateLimitPolicies_tight hmem (congrArg RateLimit.label (hfind.symm.trans heq))
    · rw [hpublic]
      exact ⟨fun h => absurd h Bool.false_ne_true, fun h => absurd hfind h.2⟩
  · obtain ⟨hpublic, hhealth⟩ := public_of_forward h htoken
    intro caller
    have hexempt : caller.exempt = false := hhealth
    have hlabel : caller.policy.label ≠ defaultPolicy.label := by
      rcases findRateLimitPolicy_cases req.method (rawSegments req.path) with
        ⟨-, policy, hmem, hfind⟩ | ⟨hnot, -⟩
      · intro heq
        exact rateLimitPolicies_tight hmem ((congrArg RateLimit.label hfind).symm.trans heq)
      · cases hpublic.symm.trans hnot
    refine ⟨hexempt, fun heq => hlabel (congrArg RateLimit.label heq), fun ip' => ?_⟩
    have hdefault : defaultPolicy ∈ rateLimits := by decide
    rw [canActivate_counted hexempt]
    refine FixedWindow.Table.hit_of_ne fun heq => hlabel ?_
    exact (hitKey_inj caller.policy_mem hdefault heq).1

end ApiGateway

end RydTrip
