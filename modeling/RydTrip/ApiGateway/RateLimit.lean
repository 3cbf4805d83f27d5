import RydTrip.ApiGateway.Routes
import RydTrip.FixedWindow

/-!
# The rate limiter of the gateway

`services/api-gateway/src/rate-limit/rate-limit.guard.ts`.  The guard keeps a
fixed-window counter for each label and caller.  Policies with one label share
the counter, and they have the same limit and window.
-/

namespace RydTrip

namespace ApiGateway

open Http FixedWindow

/-! ## Policies -/

structure RateLimit where
  limit : Nat
  windowMs : Nat
  label : String
  deriving DecidableEq, Repr

structure RateLimitPolicy extends RateLimit where
  method : String
  pattern : Pattern
  deriving DecidableEq, Repr

def authLimit : RateLimit := ⟨10, 60000, "auth"⟩

def publicReadLimit : RateLimit := ⟨20, 60000, "public-read"⟩

/-- `RATE_LIMIT_POLICIES` -/
def rateLimitPolicies : List RateLimitPolicy :=
  [⟨authLimit, "POST", [.lit "riders"]⟩,
    ⟨authLimit, "POST", [.lit "riders", .lit "login"]⟩,
    ⟨authLimit, "POST", [.lit "drivers"]⟩,
    ⟨authLimit, "POST", [.lit "drivers", .lit "login"]⟩,
    ⟨publicReadLimit, "GET", [.lit "drivers", .lit "nearby"]⟩,
    ⟨publicReadLimit, "GET", [.lit "drivers", .lit "any-online"]⟩,
    ⟨publicReadLimit, "GET", [.lit "drivers", .any, .lit "vehicle"]⟩]

/-- `DEFAULT_POLICY` -/
def defaultPolicy : RateLimit := ⟨100, 60000, "default"⟩

def findRateLimitPolicy (method : String) (path : List Segment) : RateLimit :=
  match rateLimitPolicies.find? fun policy =>
    policy.method = method && (policy.pattern.match? exact path).isSome with
  | some policy => policy.toRateLimit
  | none => defaultPolicy

/-! ## The guard -/

/-- What the guard reads of a request.  `path` is what follows the first slash. -/
structure Caller where
  method : String
  path : List Char
  ip : Option String
  deriving DecidableEq, Repr

/-- The entries of `hits`. -/
structure RateLimitGuard where
  hits : Table String

inductive Verdict where
  | accepted
  /-- 429, with the `Retry-After` header. -/
  | tooManyRequests (retryAfterSeconds : Nat)
  deriving DecidableEq, Repr

namespace Caller

def exempt (req : Caller) : Bool := "health".toList.isPrefixOf ((rawSegments req.path).headD [])

def policy (req : Caller) : RateLimit := findRateLimitPolicy req.method (rawSegments req.path)

def address (req : Caller) : String := req.ip.getD "unknown"

end Caller

def hitKey (label ip : String) : String := label ++ ":" ++ ip

/-- `Math.ceil(ms / 1000)` -/
def ceilSeconds (ms : Nat) : Nat := (ms + 999) / 1000

namespace RateLimitGuard

def new : RateLimitGuard := ⟨fun _ => none⟩

def set (guard : RateLimitGuard) (key : String) (entry : Window) : RateLimitGuard :=
  ⟨Function.update guard.hits key (some entry)⟩

def canActivate (guard : RateLimitGuard) (req : Caller) (now : Nat) : Verdict × RateLimitGuard :=
  if req.exempt then (.accepted, guard)
  else
    let policy := req.policy
    let key := hitKey policy.label req.address
    match guard.hits key with
    | none => (.accepted, guard.set key ⟨1, now + policy.windowMs⟩)
    | some existing =>
        if existing.resetAt ≤ now then (.accepted, guard.set key ⟨1, now + policy.windowMs⟩)
        else if policy.limit ≤ existing.count then
          (.tooManyRequests (ceilSeconds (existing.resetAt - now)), guard)
        else (.accepted, guard.set key { existing with count := existing.count + 1 })

/-- What the timer of the constructor does. -/
def sweep (guard : RateLimitGuard) (now : Nat) : RateLimitGuard :=
  ⟨fun key => (guard.hits key).filter fun value => !decide (value.resetAt ≤ now)⟩

end RateLimitGuard

/-! ## Runs -/

inductive GuardEvent where
  | request (req : Caller) (now : Nat)
  | sweep (now : Nat)
  deriving DecidableEq, Repr

namespace GuardEvent

def time : GuardEvent → Nat
  | .request _ now => now
  | .sweep now => now

def isRequest : GuardEvent → Bool
  | .request .. => true
  | .sweep _ => false

end GuardEvent

/-- A request that has been decided. -/
structure Decision where
  req : Caller
  time : Nat
  verdict : Verdict
  deriving DecidableEq, Repr

namespace RateLimitGuard

def after (guard : RateLimitGuard) : GuardEvent → RateLimitGuard
  | .request req now => (guard.canActivate req now).2
  | .sweep now => guard.sweep now

def afterAll (guard : RateLimitGuard) (events : List GuardEvent) : RateLimitGuard :=
  events.foldl after guard

def decisions : RateLimitGuard → List GuardEvent → List Decision
  | _, [] => []
  | guard, .request req now :: events =>
      ⟨req, now, (guard.canActivate req now).1⟩ :: decisions (guard.canActivate req now).2 events
  | guard, .sweep now :: events => decisions (guard.sweep now) events

end RateLimitGuard

/-- The clock does not go back. -/
def ClockInOrder : Nat → List GuardEvent → Prop
  | _, [] => True
  | now, event :: events => now ≤ event.time ∧ ClockInOrder event.time events

/-- The guard counts the request under this label and address. -/
def Caller.CountsFor (req : Caller) (label ip : String) : Prop :=
  req.exempt = false ∧ req.policy.label = label ∧ req.address = ip

instance (req : Caller) (label ip : String) : Decidable (req.CountsFor label ip) :=
  inferInstanceAs (Decidable (_ ∧ _ ∧ _))

/-- How many requests of the label and address are accepted from `lo` on and
before `hi`. -/
def acceptedBetween (label ip : String) (lo hi : Nat) (ds : List Decision) : Nat :=
  ds.countP fun d =>
    decide (d.verdict = .accepted) && decide (d.req.CountsFor label ip) && decide (lo ≤ d.time) &&
      decide (d.time < hi)

/-! ## Keys -/

/-- The policies, each with its label once. -/
def rateLimits : List RateLimit := [authLimit, publicReadLimit, defaultPolicy]

theorem findRateLimitPolicy_mem (method : String) (path : List Segment) :
    findRateLimitPolicy method path ∈ rateLimits := by
  unfold findRateLimitPolicy
  split
  next policy hfind =>
    have hall : ∀ policy ∈ rateLimitPolicies, policy.toRateLimit ∈ rateLimits := by decide
    exact hall policy (List.mem_of_find?_eq_some hfind)
  next => decide

/-- Policies with one label are held to the same limit. -/
theorem rateLimits_label {p q : RateLimit} (hp : p ∈ rateLimits) (hq : q ∈ rateLimits)
    (h : p.label = q.label) : p = q := by
  have hall : ∀ p ∈ rateLimits, ∀ q ∈ rateLimits, p.label = q.label → p = q := by decide
  exact hall p hp q hq h

theorem rateLimits_pos {p : RateLimit} (hp : p ∈ rateLimits) : 1 ≤ p.limit ∧ 1 ≤ p.windowMs := by
  revert p
  decide

theorem append_cons_inj {c : Char} {l l' r r' : List Char} (hl : c ∉ l) (hl' : c ∉ l')
    (h : l ++ c :: r = l' ++ c :: r') : l = l' ∧ r = r' := by
  induction l generalizing l' with
  | nil =>
      cases l' with
      | nil => exact ⟨rfl, (List.cons.inj h).2⟩
      | cons x l' =>
          obtain ⟨rfl, -⟩ := List.cons.inj h
          exact absurd (.head _) hl'
  | cons x l ih =>
      cases l' with
      | nil =>
          obtain ⟨rfl, -⟩ := List.cons.inj h
          exact absurd (.head _) hl
      | cons y l' =>
          obtain ⟨rfl, htail⟩ := List.cons.inj h
          obtain ⟨rfl, hr⟩ := ih (fun hmem => hl (.tail _ hmem))
            (fun hmem => hl' (.tail _ hmem)) htail
          exact ⟨rfl, hr⟩

/-- A key determines the label and the address. -/
theorem hitKey_inj {p q : RateLimit} (hp : p ∈ rateLimits) (hq : q ∈ rateLimits) {ip ip' : String}
    (h : hitKey p.label ip = hitKey q.label ip') : p.label = q.label ∧ ip = ip' := by
  have hcolon : ∀ p ∈ rateLimits, ':' ∉ p.label.toList := by decide
  have hlist := congrArg String.toList h
  simp only [hitKey, String.toList_append, List.append_assoc] at hlist
  have hinj : p.label.toList = q.label.toList ∧ ip.toList = ip'.toList :=
    append_cons_inj (hcolon p hp) (hcolon q hq) hlist
  exact ⟨String.toList_inj.mp hinj.1, String.toList_inj.mp hinj.2⟩

/-! ## The guard is a fixed-window counter -/

/-- The hit of a request that is counted. -/
def Caller.hit (req : Caller) (now : Nat) : Hit String :=
  ⟨hitKey req.policy.label req.address, req.policy.limit, req.policy.windowMs, now⟩

def Verdict.ofServed (now : Nat) (served : Bool × Window) : Verdict :=
  if served.1 then .accepted else .tooManyRequests (ceilSeconds (served.2.resetAt - now))

theorem Caller.policy_mem (req : Caller) : req.policy ∈ rateLimits := findRateLimitPolicy_mem _ _

section Counter

variable {guard guard' : RateLimitGuard} {req : Caller} {now : Nat} {events : List GuardEvent}
  {p : RateLimit} {ip : String}

theorem canActivate_counted (hexempt : req.exempt = false) :
    guard.canActivate req now =
      (.ofServed now (guard.hits.hit (req.hit now)).1, ⟨(guard.hits.hit (req.hit now)).2⟩) := by
  unfold RateLimitGuard.canActivate
  rw [hexempt, if_neg Bool.false_ne_true]
  dsimp only
  have hopen (hover : ∀ w, guard.hits (req.hit now).key = some w → w.resetAt ≤ now) :
      (Verdict.accepted, guard.set (req.hit now).key ⟨1, now + req.policy.windowMs⟩) =
        (.ofServed now (guard.hits.hit (req.hit now)).1,
          ⟨(guard.hits.hit (req.hit now)).2⟩) := by
    rw [Table.hit_table, (Table.hit_over hover).1]
    rfl
  split
  next hnone => exact hopen fun w hw => nomatch hnone.symm.trans hw
  next existing hw =>
    have hw : guard.hits (req.hit now).key = some existing := hw
    split
    next hle =>
      refine hopen fun w hw' => ?_
      cases hw.symm.trans hw'
      exact hle
    next hlt =>
      have hlt : (req.hit now).time < existing.resetAt := Nat.lt_of_not_le hlt
      split
      next hfull =>
        rcases Table.hit_live hw hlt with ⟨-, hserved, -⟩ | ⟨hroom, -⟩
        · have hsame :
              Function.update guard.hits (req.hit now).key (some existing) = guard.hits := by
            rw [← hw]
            exact Function.update_eq_self _ _
          rw [Table.hit_table, hserved, hsame]
          rfl
        · exact absurd hfull (Nat.not_le.mpr hroom)
      next hroom =>
        rcases Table.hit_live hw hlt with ⟨hfull, -⟩ | ⟨-, hserved, -⟩
        · exact absurd hfull hroom
        · rw [Table.hit_table, hserved]
          rfl

theorem canActivate_exempt (hexempt : req.exempt = true) :
    guard.canActivate req now = (.accepted, guard) := by
  unfold RateLimitGuard.canActivate
  rw [if_pos hexempt]

theorem sweep_hits (guard : RateLimitGuard) (now : Nat) :
    (guard.sweep now).hits = guard.hits.sweep now := by
  funext key
  have hfilter : (fun value : Window => !decide (value.resetAt ≤ now)) =
      fun w => decide (now < w.resetAt) := by
    funext w
    rw [← decide_not]
    exact decide_eq_decide.mpr Nat.not_le
  exact congrArg (fun p => (guard.hits key).filter p) hfilter

/-- Sweeps leave no trace in the decisions. -/
theorem decisions_sweepless (horder : ClockInOrder now events)
    (hagree : Agree now guard.hits guard'.hits) :
    guard.decisions events = guard'.decisions (events.filter GuardEvent.isRequest) := by
  induction events generalizing now guard guard' with
  | nil => rfl
  | cons event events ih =>
      obtain ⟨hle, horder⟩ := horder
      cases event with
      | sweep later =>
          refine ih horder ?_
          rw [sweep_hits]
          exact agree_sweep hle hagree
      | request req later =>
          show guard.decisions (.request req later :: events) =
            guard'.decisions (.request req later :: events.filter GuardEvent.isRequest)
          have hagree : Agree later guard.hits guard'.hits := hagree.mono hle
          rw [RateLimitGuard.decisions, RateLimitGuard.decisions]
          cases hexempt : req.exempt with
          | true =>
              rw [canActivate_exempt hexempt, canActivate_exempt hexempt, ih horder hagree]
          | false =>
              obtain ⟨hserved, hafter⟩ := Agree.hit (h := req.hit later) hagree
              rw [canActivate_counted hexempt, canActivate_counted hexempt, hserved]
              congr 1
              exact ih horder hafter

/-! ## Counted events -/

def GuardEvent.counted : GuardEvent → Option (Event String)
  | .request req now => if req.exempt then none else some (.hit (req.hit now))
  | .sweep now => some (.sweep now)

/-- What the counters see of the events. -/
def countedEvents (events : List GuardEvent) : List (Event String) :=
  events.filterMap GuardEvent.counted

theorem counted_request (hexempt : req.exempt = false) (now : Nat) :
    GuardEvent.counted (.request req now) = some (.hit (req.hit now)) := by
  show (if req.exempt = true then none else some (Event.hit (req.hit now))) = _
  rw [hexempt]
  rfl

theorem counted_exempt (hexempt : req.exempt = true) (now : Nat) :
    GuardEvent.counted (.request req now) = none := by
  show (if req.exempt = true then none else some (Event.hit (req.hit now))) = _
  rw [if_pos hexempt]

theorem InOrder.weaken {now now' : Nat} {events : List (Event String)} (h : InOrder now' events)
    (hle : now ≤ now') : InOrder now events := by
  cases events with
  | nil => trivial
  | cons event events => exact ⟨Nat.le_trans hle h.1, h.2⟩

theorem counted_time {event : GuardEvent} {e : Event String} (h : event.counted = some e) :
    e.time = event.time := by
  cases event with
  | sweep later =>
      cases h
      rfl
  | request req later =>
      cases hexempt : req.exempt with
      | true =>
          rw [counted_exempt hexempt] at h
          cases h
      | false =>
          rw [counted_request hexempt] at h
          cases h
          rfl

theorem inOrder_counted (horder : ClockInOrder now events) :
    InOrder now (countedEvents events) := by
  induction events generalizing now with
  | nil => trivial
  | cons event events ih =>
      obtain ⟨hle, horder⟩ := horder
      unfold countedEvents
      rw [List.filterMap_cons]
      split
      next hnone => exact InOrder.weaken (ih horder) hle
      next e hsome =>
        have htime := counted_time hsome
        exact ⟨by rw [htime]; exact hle, by rw [htime]; exact ih horder⟩

theorem uniform_counted (hp : p ∈ rateLimits) (ip : String) (events : List GuardEvent) :
    Uniform (hitKey p.label ip) p.limit p.windowMs (countedEvents events) := by
  intro h hmem hkey
  obtain ⟨event, -, hcounted⟩ := List.mem_filterMap.mp hmem
  cases event with
  | sweep later => cases hcounted
  | request req later =>
      cases hexempt : req.exempt with
      | true =>
          rw [counted_exempt hexempt] at hcounted
          cases hcounted
      | false =>
          rw [counted_request hexempt] at hcounted
          cases hcounted
          cases rateLimits_label req.policy_mem hp (hitKey_inj req.policy_mem hp hkey).1
          exact ⟨rfl, rfl⟩

theorem after_hits (guard : RateLimitGuard) (event : GuardEvent) :
    (guard.after event).hits = (event.counted.map guard.hits.after).getD guard.hits := by
  cases event with
  | sweep later => exact sweep_hits guard later
  | request req later =>
      show (guard.canActivate req later).2.hits = _
      cases hexempt : req.exempt with
      | true =>
          rw [canActivate_exempt hexempt, counted_exempt hexempt]
          rfl
      | false =>
          rw [canActivate_counted hexempt, counted_request hexempt]
          rfl

theorem afterAll_hits (guard : RateLimitGuard) (events : List GuardEvent) :
    (guard.afterAll events).hits = guard.hits.afterAll (countedEvents events) := by
  induction events generalizing guard with
  | nil => rfl
  | cons event events ih =>
      show ((guard.after event).afterAll events).hits = _
      rw [ih, after_hits]
      unfold countedEvents
      rw [List.filterMap_cons]
      cases hcounted : event.counted with
      | none => rfl
      | some e => rfl

/-- The requests of a label and address are the hits on their key. -/
theorem acceptedBetween_eq (hp : p ∈ rateLimits) (ip : String) (lo hi : Nat)
    (guard : RateLimitGuard) (events : List GuardEvent) :
    acceptedBetween p.label ip lo hi (guard.decisions events) =
      acceptedIn (hitKey p.label ip) lo hi (trace guard.hits (countedEvents events)) := by
  induction events generalizing guard with
  | nil => rfl
  | cons event events ih =>
      unfold countedEvents
      rw [List.filterMap_cons]
      cases event with
      | sweep later =>
          have hrest := ih (guard.sweep later)
          rw [sweep_hits] at hrest
          exact hrest
      | request req later =>
          have hcons (d : Decision) (ds : List Decision) :
              acceptedBetween p.label ip lo hi (d :: ds) =
              acceptedBetween p.label ip lo hi ds +
                if d.verdict = .accepted ∧ d.req.CountsFor p.label ip ∧ lo ≤ d.time ∧ d.time < hi
                then 1 else 0 := by
            unfold acceptedBetween
            rw [List.countP_cons]
            simp only [Bool.and_eq_true, decide_eq_true_eq, and_assoc]
          rw [RateLimitGuard.decisions, hcons]
          cases hexempt : req.exempt with
          | true =>
              rw [canActivate_exempt hexempt, counted_exempt hexempt, ih guard, if_neg]
              · rfl
              · rintro ⟨-, ⟨hnot, -⟩, -⟩
                cases hexempt.symm.trans hnot
          | false =>
              have hfor : req.CountsFor p.label ip ↔ (req.hit later).key = hitKey p.label ip := by
                constructor
                · rintro ⟨-, hlabel, haddress⟩
                  show hitKey req.policy.label req.address = _
                  rw [hlabel, haddress]
                · intro hkey
                  obtain ⟨hlabel, haddress⟩ := hitKey_inj req.policy_mem hp hkey
                  exact ⟨hexempt, hlabel, haddress⟩
              have haccepted (served : Bool × Window) :
                  Verdict.ofServed later served = .accepted ↔ served.1 = true := by
                unfold Verdict.ofServed
                split
                next h => simp [h]
                next h => simp [h]
              rw [canActivate_counted hexempt, counted_request hexempt, trace, acceptedIn_cons]
              simp only [haccepted, hfor]
              rw [ih]
              rfl

theorem ClockInOrder.of_append {pre post : List GuardEvent}
    (h : ClockInOrder now (pre ++ post)) : ∃ later, ClockInOrder later post := by
  induction pre generalizing now with
  | nil => exact ⟨now, h⟩
  | cons event pre ih => exact ih h.2

theorem ClockInOrder.left {pre post : List GuardEvent} (h : ClockInOrder now (pre ++ post)) :
    ClockInOrder now pre := by
  induction pre generalizing now with
  | nil => trivial
  | cons event pre ih => exact ⟨h.1, ih h.2⟩

theorem ceilSeconds_spec {ms : Nat} (h : 1 ≤ ms) :
    1 ≤ ceilSeconds ms ∧ ms ≤ 1000 * ceilSeconds ms := by
  unfold ceilSeconds
  omega

/-- A request that is not accepted was served by a window without room. -/
theorem rejected_served (h : (guard.canActivate req now).1 ≠ .accepted) :
    req.exempt = false ∧ ∃ w, guard.hits (req.hit now).key = some w ∧ now < w.resetAt ∧
      (guard.hits.hit (req.hit now)).1 = (false, w) ∧
      (guard.canActivate req now).1 = .tooManyRequests (ceilSeconds (w.resetAt - now)) := by
  cases hexempt : req.exempt with
  | true =>
      rw [canActivate_exempt hexempt] at h
      exact absurd rfl h
  | false =>
      rw [canActivate_counted hexempt] at h ⊢
      cases hlive : guard.hits.live (req.hit now).key (req.hit now).time with
      | none =>
          rw [(Table.hit_over (Table.live_eq_none.mp hlive)).1] at h
          exact absurd rfl h
      | some w =>
          obtain ⟨hw, hlt⟩ := Table.live_eq_some.mp hlive
          rcases Table.hit_live hw hlt with ⟨-, hserved, -⟩ | ⟨-, hserved, -⟩
          · refine ⟨rfl, w, hw, hlt, hserved, ?_⟩
            rw [hserved]
            rfl
          · rw [hserved] at h
            exact absurd rfl h

end Counter

/-! ## Bounds -/

/-- What the guard promises for a run from its start. -/
structure Bounded (events : List GuardEvent) : Prop where
  /-- Sweeps do not matter. -/
  sweepless : RateLimitGuard.new.decisions events =
    RateLimitGuard.new.decisions (events.filter GuardEvent.isRequest)
  /-- From the moment a window opens until its end. -/
  window : ∀ pre req now post, events = pre ++ .request req now :: post → req.exempt = false →
    (∀ w, (RateLimitGuard.new.afterAll pre).hits (hitKey req.policy.label req.address) = some w →
      w.resetAt ≤ now) →
    acceptedBetween req.policy.label req.address now (now + req.policy.windowMs)
      ((RateLimitGuard.new.afterAll pre).decisions (.request req now :: post)) ≤ req.policy.limit
  /-- In an interval of the length of a window, its end included. -/
  interval : ∀ policy ∈ rateLimits, ∀ ip start,
    acceptedBetween policy.label ip start (start + policy.windowMs + 1)
      (RateLimitGuard.new.decisions events) ≤ 2 * policy.limit
  /-- A rejected request was told when to come back, and then it is accepted
  unless others have filled a newer window. -/
  retryAfter : ∀ pre req now post seconds, events = pre ++ .request req now :: post →
    ((RateLimitGuard.new.afterAll pre).canActivate req now).1 = .tooManyRequests seconds →
    1 ≤ seconds ∧ ∃ w,
      (RateLimitGuard.new.afterAll pre).hits (hitKey req.policy.label req.address) = some w ∧
      w.resetAt ≤ now + 1000 * seconds ∧
      ∀ mid req' now' rest, post = mid ++ .request req' now' :: rest →
        req'.CountsFor req.policy.label req.address → now + 1000 * seconds ≤ now' →
        ((RateLimitGuard.new.afterAll (pre ++ .request req now :: mid)).canActivate req' now').1 =
            .accepted ∨
          ∃ resetAt, w.resetAt + req.policy.windowMs ≤ resetAt ∧ now' < resetAt ∧
            req.policy.limit ≤ acceptedBetween req.policy.label req.address w.resetAt resetAt
              ((RateLimitGuard.new.afterAll (pre ++ [.request req now])).decisions mid)

/-- Every run in which the clock does not go back keeps the bounds, whenever
sweeps take place. -/
theorem rateLimit_bounded {events : List GuardEvent} (horder : ClockInOrder 0 events) :
    Bounded events where
  sweepless := decisions_sweepless horder fun _ => rfl
  window := by
    rintro pre req now post rfl hexempt hover
    obtain ⟨later, hle, hpost⟩ := horder.of_append
    have hnow : ClockInOrder now (.request req now :: post) := ⟨Nat.le_refl _, hpost⟩
    obtain ⟨hlimit, -⟩ := rateLimits_pos req.policy_mem
    rw [acceptedBetween_eq req.policy_mem]
    exact acceptedIn_over hlimit (inOrder_counted hnow) (uniform_counted req.policy_mem _ _) hover
      (Nat.le_refl _)
  interval := by
    intro policy hpolicy ip start
    obtain ⟨hlimit, hwindow⟩ := rateLimits_pos hpolicy
    rw [acceptedBetween_eq hpolicy]
    exact acceptedIn_interval hlimit hwindow (inOrder_counted horder) (uniform_counted hpolicy _ _)
      (fun w hw => by cases hw) start
  retryAfter := by
    rintro pre req now post seconds rfl hrejected
    obtain ⟨later, hle, hpost⟩ := horder.of_append
    obtain ⟨hexempt, w, hw, hlt, hserved, hverdict⟩ := rejected_served (by rw [hrejected]; nofun)
    rw [hrejected] at hverdict
    cases hverdict
    obtain ⟨hpos, hceil⟩ := ceilSeconds_spec (show 1 ≤ w.resetAt - now by omega)
    refine ⟨hpos, w, hw, by omega, ?_⟩
    rintro mid req' now' rest rfl ⟨-, hlabel, haddress⟩ hlater
    by_cases haccepted : ((RateLimitGuard.new.afterAll
        (pre ++ .request req now :: mid)).canActivate req' now').1 = .accepted
    · exact .inl haccepted
    · right
      have hkey : (req'.hit now').key = (req.hit now).key := by
        show hitKey _ _ = hitKey _ _
        rw [hlabel, haddress]
      have hlimit : (req'.hit now').limit = req.policy.limit :=
        congrArg RateLimit.limit (rateLimits_label req'.policy_mem req.policy_mem hlabel)
      have hafter : (RateLimitGuard.new.afterAll (pre ++ [.request req now])).hits =
          ((RateLimitGuard.new.afterAll pre).hits.hit (req.hit now)).2 := by
        unfold RateLimitGuard.afterAll
        rw [List.foldl_append]
        show (RateLimitGuard.after _ (.request req now)).hits = _
        rw [after_hits, counted_request hexempt]
        rfl
      have hmid : (RateLimitGuard.new.afterAll (pre ++ .request req now :: mid)).hits =
          Table.afterAll ((RateLimitGuard.new.afterAll pre).hits.hit (req.hit now)).2
            (countedEvents mid) := by
        rw [← hafter, ← afterAll_hits]
        unfold RateLimitGuard.afterAll
        rw [← List.foldl_append, List.append_assoc]
        rfl
      obtain ⟨-, w', -, -, hserved', -⟩ := rejected_served haccepted
      rw [hmid] at hserved'
      simp only [acceptedBetween_eq req.policy_mem, hafter]
      obtain ⟨-, hwindow⟩ := rateLimits_pos req.policy_mem
      exact rejected_later hwindow (inOrder_counted hpost.left)
        (uniform_counted req.policy_mem _ _) hlimit hserved hkey
        (show w.resetAt ≤ now' by omega) (congrArg Prod.fst hserved')

/-- Eleven logins in one window, a sweep, and a login when the window is over. -/
def elevenLogins : List GuardEvent :=
  .replicate 11 (.request ⟨"POST", "riders/login".toList, none⟩ 0) ++
    [.sweep 60000, .request ⟨"POST", "riders/login".toList, none⟩ 60000]

theorem rateLimit_bounded_elevenLogins :
    (RateLimitGuard.new.decisions elevenLogins).map (·.verdict) =
        .replicate 10 .accepted ++ [.tooManyRequests 60, .accepted] ∧ Bounded elevenLogins :=
  ⟨by decide +kernel, rateLimit_bounded (by simp [elevenLogins, ClockInOrder, GuardEvent.time])⟩

end ApiGateway

end RydTrip
