import Mathlib.Data.List.TakeWhile
import RydTrip.TripService.Delivery

/-!
# The order of events across topics

The four topics of the trip service are separate streams.  For one ride, the
events that matter are the request, the first match and the first cancelling
event: everything else is parked or ignored in any order.  `viewAfter_eq` and
the `appliedIn_*` lemmas read the outcome of a list of events off these three,
and the comparison with a causal order follows.
-/

namespace RydTrip

namespace TripService

/-! ## The events of one ride -/

/-- The envelope requests the ride. -/
def requests (id : String) (envelope : EventEnvelope) : Bool :=
  match RideEvent.ofEnvelope envelope with
  | some (.requested input) => input.id = id
  | _ => false

/-- The envelope matches the ride with a driver. -/
def reserves (id : String) (envelope : EventEnvelope) : Bool :=
  match RideEvent.ofEnvelope envelope with
  | some (.reserved rideId _) => rideId = id
  | _ => false

/-- The envelope cancels the ride, for a reason that can be stored. -/
def cancels (id : String) (envelope : EventEnvelope) : Bool :=
  match RideEvent.ofEnvelope envelope with
  | some (.cancelled rideId reason) => rideId = id ∧ reason ≠ .other
  | some (.rejected rideId) => rideId = id
  | _ => false

/-- The driver that a match names. -/
def driverNamed (envelope : EventEnvelope) : Option String :=
  match RideEvent.ofEnvelope envelope with
  | some (.reserved _ driverId) => truthy driverId
  | _ => none

theorem requests_iff {id : String} {envelope : EventEnvelope} :
    requests id envelope = true ↔
      ∃ input, RideEvent.ofEnvelope envelope = some (.requested input) ∧ input.id = id := by
  unfold requests
  split
  next input h => simp [h]
  next h =>
    refine ⟨fun hf => absurd hf Bool.false_ne_true, ?_⟩
    rintro ⟨input, hev, -⟩
    exact absurd hev (h input)

theorem reserves_iff {id : String} {envelope : EventEnvelope} :
    reserves id envelope = true ↔
      ∃ driverId, RideEvent.ofEnvelope envelope = some (.reserved id driverId) := by
  unfold reserves
  split
  next rideId driverId h => simp [h]
  next h =>
    refine ⟨fun hf => absurd hf Bool.false_ne_true, ?_⟩
    rintro ⟨driverId, hev⟩
    exact absurd hev (h id driverId)

theorem cancels_iff {id : String} {envelope : EventEnvelope} :
    cancels id envelope = true ↔
      (∃ reason, RideEvent.ofEnvelope envelope = some (.cancelled id reason) ∧ reason ≠ .other) ∨
        RideEvent.ofEnvelope envelope = some (.rejected id) := by
  unfold cancels
  split
  next rideId reason h =>
    simp only [h, decide_eq_true_eq, Option.some.injEq, RideEvent.cancelled.injEq, reduceCtorEq,
      or_false]
    constructor
    · rintro ⟨rfl, hr⟩
      exact ⟨reason, ⟨rfl, rfl⟩, hr⟩
    · rintro ⟨_, ⟨rfl, rfl⟩, hr⟩
      exact ⟨rfl, hr⟩
  next rideId h => simp [h]
  next h h' =>
    refine ⟨fun hf => absurd hf Bool.false_ne_true, ?_⟩
    rintro (⟨reason, hev, -⟩ | hev)
    · exact absurd hev (h id reason)
    · exact absurd hev (h' id)

/-! ## One step of a ride -/

section Step

variable {id : String} {envelope : EventEnvelope} {d : Option String}

theorem viewStep_none :
    viewStep id none envelope = if requests id envelope then some ⟨.matching, none⟩ else none := by
  unfold viewStep requests
  cases RideEvent.ofEnvelope envelope with
  | none => rfl
  | some event => cases event <;> simp [RideEvent.rideId, RideEvent.next]

/-- A ride that is there can be matched or cancelled, where its status allows
it, and nothing else happens to it. -/
theorem viewStep_some {status : RideStatus} :
    viewStep id (some ⟨status, d⟩) envelope =
      if reserves id envelope ∧ canTransitionRideStatus status .matched then
        some ⟨.matched, (driverNamed envelope).or d⟩
      else if cancels id envelope ∧ canTransitionRideStatus status .cancelled then
        some ⟨.cancelled, d⟩
      else some ⟨status, d⟩ := by
  unfold viewStep reserves cancels driverNamed
  cases RideEvent.ofEnvelope envelope with
  | none => simp
  | some event =>
      cases event with
      | requested input => simp [RideEvent.rideId, RideEvent.next]
      | reserved rideId driverId =>
          cases hm : canTransitionRideStatus status .matched <;>
            simp [RideEvent.rideId, RideEvent.next, hm]
      | rejected rideId =>
          cases hc : canTransitionRideStatus status .cancelled <;>
            simp [RideEvent.rideId, RideEvent.next, hc]
      | cancelled rideId reason =>
          by_cases hid : rideId = id <;> by_cases hr : reason = .other <;>
            cases hc : canTransitionRideStatus status .cancelled <;>
              simp [RideEvent.rideId, RideEvent.next, hid, hr, hc]

theorem viewStep_matching :
    viewStep id (some ⟨.matching, none⟩) envelope =
      if reserves id envelope then some ⟨.matched, driverNamed envelope⟩
      else if cancels id envelope then some ⟨.cancelled, none⟩
      else some ⟨.matching, none⟩ := by
  have hm : canTransitionRideStatus .matching .matched = true := by decide
  have hc : canTransitionRideStatus .matching .cancelled = true := by decide
  simp only [viewStep_some, hm, hc, and_true, Option.or_none]

theorem viewStep_matched :
    viewStep id (some ⟨.matched, d⟩) envelope =
      if cancels id envelope then some ⟨.cancelled, d⟩ else some ⟨.matched, d⟩ := by
  have hm : canTransitionRideStatus .matched .matched = false := by decide
  have hc : canTransitionRideStatus .matched .cancelled = true := by decide
  simp only [viewStep_some, hm, hc, and_true, Bool.false_eq_true, and_false, if_false]

theorem viewStep_cancelled :
    viewStep id (some ⟨.cancelled, d⟩) envelope = some ⟨.cancelled, d⟩ := by
  have hm : canTransitionRideStatus .cancelled .matched = false := by decide
  have hc : canTransitionRideStatus .cancelled .cancelled = false := by decide
  simp only [viewStep_some, hm, hc, Bool.false_eq_true, and_false, if_false]

end Step

/-! ## A list of events of a ride -/

/-- What comes after the first request of the ride. -/
def afterRequest (id : String) (envelopes : List EventEnvelope) : List EventEnvelope :=
  (envelopes.dropWhile fun e => !requests id e).tail

/-- The first event that cancels the ride. -/
def firstCancel (id : String) (envelopes : List EventEnvelope) : Option EventEnvelope :=
  envelopes.find? (cancels id)

/-- The first match of the ride, if it comes before every cancelling event. -/
def firstMatch (id : String) (envelopes : List EventEnvelope) : Option EventEnvelope :=
  (envelopes.takeWhile fun e => !cancels id e).find? (reserves id)

/-- The status of a requested ride after the events. -/
def endStatus (id : String) (envelopes : List EventEnvelope) : RideStatus :=
  if (firstCancel id envelopes).isSome then .cancelled
  else if (firstMatch id envelopes).isSome then .matched
  else .matching

section Lists

variable {id : String} {es before after : List EventEnvelope} {q e : EventEnvelope}
  {d : Option String}

theorem not_cancels_of_reserves (h : reserves id e = true) : cancels id e = false := by
  obtain ⟨driverId, hev⟩ := reserves_iff.mp h
  rw [← Bool.not_eq_true, cancels_iff]
  rintro (⟨reason, hev', -⟩ | hev') <;> rw [hev] at hev' <;> cases hev'

theorem foldl_cancelled : es.foldl (viewStep id) (some ⟨.cancelled, d⟩) = some ⟨.cancelled, d⟩ := by
  induction es with
  | nil => rfl
  | cons e es ih => rw [List.foldl_cons, viewStep_cancelled, ih]

theorem foldl_matched : es.foldl (viewStep id) (some ⟨.matched, d⟩) =
    some ⟨if (firstCancel id es).isSome then .cancelled else .matched, d⟩ := by
  induction es with
  | nil => rfl
  | cons e es ih =>
      rw [List.foldl_cons, viewStep_matched]
      by_cases h : cancels id e = true
      · rw [if_pos h, foldl_cancelled]
        simp [firstCancel, h]
      · rw [if_neg h, ih]
        simp [firstCancel, h]

theorem foldl_matching : es.foldl (viewStep id) (some ⟨.matching, none⟩) =
    some ⟨endStatus id es, (firstMatch id es).bind driverNamed⟩ := by
  induction es with
  | nil => rfl
  | cons e es ih =>
      rw [List.foldl_cons, viewStep_matching]
      by_cases hr : reserves id e = true
      · have hc := not_cancels_of_reserves hr
        rw [if_pos hr, foldl_matched]
        simp [endStatus, firstCancel, firstMatch, hr, hc]
      · by_cases hc : cancels id e = true
        · rw [if_neg hr, if_pos hc, foldl_cancelled]
          simp [endStatus, firstCancel, firstMatch, hc]
        · rw [if_neg hr, if_neg hc, ih]
          simp [endStatus, firstCancel, firstMatch, hr, hc]

theorem viewAfter_of_not_requested (h : ∀ e ∈ es, requests id e = false) :
    viewAfter id es = none := by
  induction es with
  | nil => rfl
  | cons e es ih =>
      have he := h e List.mem_cons_self
      rw [viewAfter, List.foldl_cons, viewStep_none, he]
      exact ih fun e' he' => h e' (List.mem_cons_of_mem _ he')

/-- Nothing happens before the request, and everything else after it. -/
theorem viewAfter_of_requested (hq : requests id q = true)
    (hbefore : ∀ e ∈ before, requests id e = false) :
    viewAfter id (before ++ q :: after) =
      some ⟨endStatus id after, (firstMatch id after).bind driverNamed⟩ := by
  have h := viewAfter_of_not_requested hbefore
  rw [viewAfter] at h ⊢
  rw [List.foldl_append, h, List.foldl_cons, viewStep_none, if_pos hq, foldl_matching]

theorem afterRequest_of_requested (hq : requests id q = true)
    (hbefore : ∀ e ∈ before, requests id e = false) :
    afterRequest id (before ++ q :: after) = after := by
  rw [afterRequest, List.dropWhile_append_of_pos (by simpa using hbefore)]
  simp [hq]

theorem exists_first_request (h : ∃ q ∈ es, requests id q = true) :
    ∃ before q after, es = before ++ q :: after ∧ requests id q = true ∧
      ∀ e ∈ before, requests id e = false := by
  have hsome : (es.find? (requests id)).isSome = true := by
    rw [List.find?_isSome]
    exact h
  obtain ⟨q, hq⟩ := Option.isSome_iff_exists.mp hsome
  obtain ⟨hreq, before, after, rfl, hbefore⟩ := List.find?_eq_some_iff_append.mp hq
  exact ⟨before, q, after, rfl, hreq, by simpa using hbefore⟩

theorem firstMatch_eq_some : firstMatch id es = some e ↔
    reserves id e = true ∧ ∃ before after, es = before ++ e :: after ∧
      ∀ x ∈ before, reserves id x = false ∧ cancels id x = false := by
  induction es with
  | nil => simp [firstMatch]
  | cons x es ih =>
      by_cases hr : reserves id x = true
      · have hc := not_cancels_of_reserves hr
        have hhead : firstMatch id (x :: es) = some x := by simp [firstMatch, hr, hc]
        rw [hhead]
        constructor
        · rintro ⟨⟩
          exact ⟨hr, [], es, rfl, by simp⟩
        · rintro ⟨he, before, after, heq, hbefore⟩
          cases before with
          | nil =>
              cases heq
              rfl
          | cons y before =>
              cases heq
              rw [(hbefore x List.mem_cons_self).1] at hr
              cases hr
      · by_cases hc : cancels id x = true
        · have hnone : firstMatch id (x :: es) = none := by simp [firstMatch, hc]
          rw [hnone]
          refine ⟨fun h => by simp at h, ?_⟩
          rintro ⟨he, before, after, heq, hbefore⟩
          cases before with
          | nil =>
              cases heq
              exact absurd he hr
          | cons y before =>
              cases heq
              rw [(hbefore x List.mem_cons_self).2] at hc
              cases hc
        · have htail : firstMatch id (x :: es) = firstMatch id es := by simp [firstMatch, hr, hc]
          rw [htail, ih]
          refine and_congr_right fun he => ?_
          constructor
          · rintro ⟨before, after, rfl, hbefore⟩
            refine ⟨x :: before, after, rfl, fun y hy => ?_⟩
            rcases List.mem_cons.mp hy with rfl | hy
            · simpa using And.intro hr hc
            · exact hbefore y hy
          · rintro ⟨before, after, heq, hbefore⟩
            cases before with
            | nil =>
                cases heq
                exact absurd he hr
            | cons y before =>
                cases heq
                exact ⟨before, after, rfl, fun z hz => hbefore z (List.mem_cons_of_mem _ hz)⟩

/-! ## Which events of a list are applied -/

theorem appliedIn_requested {input : CreateRideInput}
    (hev : RideEvent.ofEnvelope e = some (.requested input)) :
    AppliedIn es e ↔ es.find? (requests input.id) = some e := by
  have hreq : requests input.id e = true := requests_iff.mpr ⟨input, hev, rfl⟩
  rw [List.find?_eq_some_iff_append]
  constructor
  · rintro ⟨before, after, event, ride, rfl, hev', hnext⟩
    rw [hev] at hev'
    cases hev'
    refine ⟨hreq, before, after, rfl, ?_⟩
    by_contra hex
    obtain ⟨b, q, a, rfl, hq, hb⟩ := exists_first_request (by
      simpa using hex)
    simp only [RideEvent.rideId, viewAfter_of_requested hq hb, RideEvent.next] at hnext
    cases hnext
  · rintro ⟨-, before, after, rfl, hbefore⟩
    refine ⟨before, after, _, ⟨.matching, none⟩, rfl, hev, ?_⟩
    rw [RideEvent.rideId, viewAfter_of_not_requested (by simpa using hbefore)]
    rfl

theorem firstCancel_eq_none : firstCancel id es = none ↔ ∀ x ∈ es, cancels id x = false := by
  rw [firstCancel, List.find?_eq_none]
  simp

theorem firstMatch_of_not_cancels (h : ∀ x ∈ es, cancels id x = false) :
    firstMatch id es = es.find? (reserves id) := by
  rw [firstMatch, List.takeWhile_eq_self_iff.mpr (by simpa using h)]

theorem endStatus_cancelled : endStatus id es ≠ .cancelled ↔ ∀ x ∈ es, cancels id x = false := by
  rw [← firstCancel_eq_none, endStatus]
  cases firstCancel id es with
  | some x => simp
  | none => cases firstMatch id es <;> simp

theorem endStatus_matching : endStatus id es = .matching ↔
    ∀ x ∈ es, reserves id x = false ∧ cancels id x = false := by
  have hsplit : (∀ x ∈ es, reserves id x = false ∧ cancels id x = false) ↔
      (∀ x ∈ es, reserves id x = false) ∧ ∀ x ∈ es, cancels id x = false :=
    ⟨fun h => ⟨fun x hx => (h x hx).1, fun x hx => (h x hx).2⟩,
      fun h x hx => ⟨h.1 x hx, h.2 x hx⟩⟩
  rw [hsplit]
  by_cases hc : ∀ x ∈ es, cancels id x = false
  · have hnone : (∀ x ∈ es, reserves id x = false) ↔ firstMatch id es = none := by
      rw [firstMatch_of_not_cancels hc, List.find?_eq_none]
      simp
    rw [hnone, endStatus, firstCancel_eq_none.mpr hc]
    cases firstMatch id es with
    | some x => simp
    | none => simpa using hc
  · have hst : endStatus id es = .cancelled := by
      by_contra hne
      exact hc (endStatus_cancelled.mp hne)
    simp [hst, hc]

theorem appliedIn_reserved {driverId : String}
    (hev : RideEvent.ofEnvelope e = some (.reserved id driverId)) :
    AppliedIn es e ↔
      (∃ q ∈ es, requests id q = true) ∧ firstMatch id (afterRequest id es) = some e := by
  have hres : reserves id e = true := reserves_iff.mpr ⟨driverId, hev⟩
  constructor
  · rintro ⟨before, after, event, ride, rfl, hev', hnext⟩
    rw [hev] at hev'
    cases hev'
    by_cases hex : ∃ q ∈ before, requests id q = true
    · obtain ⟨b, q, a, rfl, hq, hb⟩ := exists_first_request hex
      simp only [RideEvent.rideId, viewAfter_of_requested hq hb, RideEvent.next] at hnext
      have hst : endStatus id a = .matching := by
        by_contra hne
        have hcan : canTransitionRideStatus (endStatus id a) .matched = false := by
          unfold endStatus at hne ⊢
          split
          · rfl
          · split
            · rfl
            · simp_all
        rw [hcan] at hnext
        cases hnext
      refine ⟨⟨q, by simp, hq⟩, ?_⟩
      rw [List.append_assoc, List.cons_append, afterRequest_of_requested hq hb]
      exact firstMatch_eq_some.mpr ⟨hres, a, after, rfl, endStatus_matching.mp hst⟩
    · have hnone := viewAfter_of_not_requested (by simpa using hex)
      simp only [RideEvent.rideId, hnone, RideEvent.next] at hnext
      cases hnext
  · rintro ⟨hex, hmatch⟩
    obtain ⟨b, q, a, rfl, hq, hb⟩ := exists_first_request hex
    rw [afterRequest_of_requested hq hb] at hmatch
    obtain ⟨-, before, after, rfl, hbefore⟩ := firstMatch_eq_some.mp hmatch
    have hst := endStatus_matching.mpr hbefore
    refine ⟨b ++ q :: before, after, _,
      ⟨.matched, (truthy driverId).or ((firstMatch id before).bind driverNamed)⟩, by simp, hev, ?_⟩
    rw [RideEvent.rideId, viewAfter_of_requested hq hb, hst]
    rfl

theorem appliedIn_cancels (hcan : cancels id e = true) :
    AppliedIn es e ↔
      (∃ q ∈ es, requests id q = true) ∧ firstCancel id (afterRequest id es) = some e := by
  have hnext : ∀ view : Option RideView, (∃ event ride, RideEvent.ofEnvelope e = some event ∧
      event.rideId = id ∧ event.next view = some ride) ↔
      ∃ ride, view = some ride ∧ canTransitionRideStatus ride.status .cancelled = true := by
    intro view
    rcases cancels_iff.mp hcan with ⟨reason, hev, hr⟩ | hev <;> rw [hev] <;>
      cases view <;> simp [RideEvent.rideId, RideEvent.next, *]
  have hrideId : ∀ event, RideEvent.ofEnvelope e = some event → event.rideId = id := by
    intro event hev
    rcases cancels_iff.mp hcan with ⟨reason, hev', -⟩ | hev' <;>
      rw [hev'] at hev <;> cases hev <;> rfl
  have hend : ∀ es : List EventEnvelope,
      canTransitionRideStatus (endStatus id es) .cancelled = true ↔
        endStatus id es ≠ .cancelled := by
    intro es
    unfold endStatus
    split
    · decide
    · split <;> decide
  constructor
  · rintro ⟨before, after, event, ride, rfl, hev, hn⟩
    have hid := hrideId event hev
    rw [hid] at hn
    obtain ⟨r, hview, hc⟩ := (hnext _).mp ⟨event, ride, hev, hid, hn⟩
    by_cases hex : ∃ q ∈ before, requests id q = true
    · obtain ⟨b, q, a, rfl, hq, hb⟩ := exists_first_request hex
      rw [viewAfter_of_requested hq hb] at hview
      cases hview
      refine ⟨⟨q, by simp, hq⟩, ?_⟩
      rw [List.append_assoc, List.cons_append, afterRequest_of_requested hq hb, firstCancel,
        List.find?_eq_some_iff_append]
      refine ⟨hcan, a, after, rfl, ?_⟩
      simpa using endStatus_cancelled.mp ((hend a).mp hc)
    · rw [viewAfter_of_not_requested (by simpa using hex)] at hview
      cases hview
  · rintro ⟨hex, hfirst⟩
    obtain ⟨b, q, a, rfl, hq, hb⟩ := exists_first_request hex
    rw [afterRequest_of_requested hq hb, firstCancel, List.find?_eq_some_iff_append] at hfirst
    obtain ⟨-, before, after, rfl, hbefore⟩ := hfirst
    have hst := (hend before).mpr (endStatus_cancelled.mpr (by simpa using hbefore))
    obtain ⟨event, ride, hev, hid, hn⟩ := (hnext _).mpr ⟨_, viewAfter_of_requested
 hq hb, hst⟩
    exact ⟨b ++ q :: before, after, event, ride, by simp, hev, by rw [hid]; exact hn⟩

/-- A cancellation for a reason that cannot be stored is never applied. -/
theorem not_appliedIn_other {rideId : String}
    (hev : RideEvent.ofEnvelope e = some (.cancelled rideId .other)) : ¬ AppliedIn es e := by
  rintro ⟨before, after, event, ride, -, hev', hnext⟩
  rw [hev] at hev'
  cases hev'
  cases hv : viewAfter rideId before <;>
    simp [RideEvent.rideId, hv, RideEvent.next] at hnext

end Lists

/-! ## A causal order and another order -/

/-- Every event of a ride comes after a request of the ride. -/
def Causal (causal : List EventEnvelope) : Prop :=
  ∀ before envelope after event, causal = before ++ envelope :: after →
    RideEvent.ofEnvelope envelope = some event →
    (∃ input, event = .requested input) ∨ ∃ q ∈ before, requests event.rideId q = true

/-- Each topic is delivered in the same order. -/
def SameTopics (causal order : List EventEnvelope) : Prop :=
  ∀ topic : KafkaTopic, order.filter (·.eventType = topic) = causal.filter (·.eventType = topic)

/-- The world after the envelopes, from the empty one. -/
def outcome (maxAttempts : Nat) (reply : PatchReply) (order : List EventEnvelope) : TripHost :=
  consumeAll maxAttempts reply .empty order

/-- No event that is applied in the causal order is parked in the other one, and
all rides end with the same status and driver. -/
structure OrderIndependent (maxAttempts : Nat) (reply : PatchReply)
    (causal order : List EventEnvelope) : Prop where
  notParked : ∀ envelope ∈ causal, ⟨envelope.eventId, consumerName⟩ ∈
      (outcome maxAttempts reply causal).db.processedEvents →
    ¬ ParkedIn (outcome maxAttempts reply order) envelope
  sameRides : ∀ id, (outcome maxAttempts reply order).db.view id =
    (outcome maxAttempts reply causal).db.view id

/-- After the request of the ride, the first cancelling event is the one of the
causal order, and so is the first match before it; where the causal order has no
such match, one that names no driver does no harm. -/
structure SameFirstEvents (id : String) (causal order : List EventEnvelope) : Prop where
  cancel : firstCancel id (afterRequest id order) = firstCancel id causal
  matched : firstMatch id (afterRequest id order) = firstMatch id causal ∨
    (firstMatch id causal = none ∧
      ∀ envelope, firstMatch id (afterRequest id order) = some envelope →
        driverNamed envelope = none)

section Orders

variable {causal order : List EventEnvelope} {id : String}

theorem SameTopics.mem (h : SameTopics causal order) {e : EventEnvelope} :
    e ∈ order ↔ e ∈ causal := by
  have hmem (es : List EventEnvelope) : e ∈ es ↔ e ∈ es.filter (·.eventType = e.eventType) := by
    simp
  rw [hmem order, hmem causal, h]

theorem SameTopics.perm (h : SameTopics causal order) : order.Perm causal := by
  rw [List.perm_iff_count]
  intro e
  have hcount (es : List EventEnvelope) :
      es.count e = (es.filter (·.eventType = e.eventType)).count e :=
    (List.count_filter (by simp)).symm
  rw [hcount order, hcount causal, h]

/-- Events of one topic keep their first one. -/
theorem SameTopics.find? (h : SameTopics causal order) {p : EventEnvelope → Bool}
    {topic : KafkaTopic} (hp : ∀ e, p e = true → e.eventType = topic) :
    order.find? p = causal.find? p := by
  have hfilter (es : List EventEnvelope) :
      es.find? p = (es.filter (·.eventType = topic)).find? p := by
    rw [List.find?_filter]
    congr
    funext e
    by_cases he : p e = true
    · simp [he, hp e he]
    · simp [he]
  rw [hfilter order, hfilter causal, h]

theorem eventType_of_requests {e : EventEnvelope} (h : requests id e = true) :
    e.eventType = .rideRequested := by
  obtain ⟨input, hev, -⟩ := requests_iff.mp h
  unfold RideEvent.ofEnvelope at hev
  split at hev
  next ht => exact ht
  all_goals simp at hev

/-- In a causal order a ride starts with its request. -/
theorem Causal.split (hc : Causal causal) (hreq : ∃ q ∈ causal, requests id q = true) :
    ∃ before q after, causal = before ++ q :: after ∧ requests id q = true ∧
      (∀ e ∈ before, requests id e = false) ∧
      ∀ e ∈ before ++ [q], reserves id e = false ∧ cancels id e = false := by
  obtain ⟨before, q, after, rfl, hq, hb⟩ := exists_first_request hreq
  refine ⟨before, q, after, rfl, hq, hb, fun e he => ?_⟩
  have hnot : ∀ event, RideEvent.ofEnvelope e = some event → event.rideId = id →
      ∃ input, event = .requested input := by
    intro event hev hid
    rcases List.mem_append.mp he with he | he
    · obtain ⟨b, a, rfl⟩ := List.append_of_mem he
      rcases hc b e (a ++ q :: after) event (by simp) hev with h | ⟨q', hq', hr⟩
      · exact h
      · rw [hid, hb q' (by simp [hq'])] at hr
        cases hr
    · cases List.mem_singleton.mp he
      obtain ⟨input, hev', -⟩ := requests_iff.mp hq
      rw [hev] at hev'
      exact ⟨input, Option.some.inj hev'⟩
  constructor
  · rw [← Bool.not_eq_true]
    intro h
    obtain ⟨driverId, hev⟩ := reserves_iff.mp h
    obtain ⟨input, hcase⟩ := hnot _ hev rfl
    cases hcase
  · rw [← Bool.not_eq_true]
    intro h
    rcases cancels_iff.mp h with ⟨reason, hev, -⟩ | hev
    · obtain ⟨input, hcase⟩ := hnot _ hev rfl
      cases hcase
    · obtain ⟨input, hcase⟩ := hnot _ hev rfl
      cases hcase

/-- So dropping everything up to the request loses nothing. -/
theorem Causal.afterRequest (hc : Causal causal) (hreq : ∃ q ∈ causal, requests id q = true) :
    firstCancel id (afterRequest id causal) = firstCancel id causal ∧
      firstMatch id (TripService.afterRequest id causal) = firstMatch id causal := by
  obtain ⟨before, q, after, rfl, hq, hb, hquiet⟩ := hc.split hreq
  rw [afterRequest_of_requested hq hb]
  have hsplit : before ++ q :: after = (before ++ [q]) ++ after := by simp
  have hcancel : ∀ e ∈ before ++ [q], (!cancels id e) = true := fun e he => by
    simp [(hquiet e he).2]
  have hnoCancel : (before ++ [q]).find? (cancels id) = none :=
    List.find?_eq_none.mpr fun e he => by simp [(hquiet e he).2]
  have hnoMatch : (before ++ [q]).find? (reserves id) = none :=
    List.find?_eq_none.mpr fun e he => by simp [(hquiet e he).1]
  rw [hsplit]
  constructor
  · rw [firstCancel, firstCancel, List.find?_append, hnoCancel, Option.none_or]
  · rw [firstMatch, firstMatch, List.takeWhile_append_of_pos hcancel, List.find?_append, hnoMatch,
      Option.none_or]

/-- How a requested ride ends. -/
theorem viewAfter_eq {es : List EventEnvelope} (hreq : ∃ q ∈ es, requests id q = true) :
    viewAfter id es = some ⟨endStatus id (TripService.afterRequest id es),
      (firstMatch id (TripService.afterRequest id es)).bind driverNamed⟩ := by
  obtain ⟨before, q, after, rfl, hq, hb⟩ := exists_first_request hreq
  rw [viewAfter_of_requested hq hb, afterRequest_of_requested hq hb]

/-- Whether an event that is applied in the causal order is applied in the other. -/
def StillApplied (causal order : List EventEnvelope) : Prop :=
  ∀ e, AppliedIn causal e → AppliedIn order e

theorem requested_iff (h : SameTopics causal order) :
    (∃ q ∈ order, requests id q = true) ↔ ∃ q ∈ causal, requests id q = true :=
  exists_congr fun _ => and_congr_left fun _ => h.mem

/-- If what is applied stays applied and the rides end alike, the first events
agree. -/
theorem sameFirstEvents_of_stillApplied (hc : Causal causal) (hs : SameTopics causal order)
    (happ : StillApplied causal order) (hview : viewAfter id order = viewAfter id causal)
    (hreq : ∃ q ∈ causal, requests id q = true) : SameFirstEvents id causal order := by
  have hreq' := (requested_iff hs).mpr hreq
  obtain ⟨hcancel, hmatch⟩ := hc.afterRequest hreq
  constructor
  · cases hfirst : firstCancel id causal with
    | none =>
        rw [firstCancel_eq_none] at hfirst ⊢
        intro x hx
        refine hfirst x (hs.mem.mp ?_)
        exact (List.dropWhile_sublist _).subset (List.mem_of_mem_tail hx)
    | some x =>
        have hcan : cancels id x = true := List.find?_some hfirst
        exact ((appliedIn_cancels hcan).mp (happ x ((appliedIn_cancels hcan).mpr
          ⟨hreq, by rw [hcancel, hfirst]⟩))).2
  · cases hfirst : firstMatch id causal with
    | some y =>
        left
        obtain ⟨driverId, hev⟩ := reserves_iff.mp (firstMatch_eq_some.mp hfirst).1
        exact ((appliedIn_reserved hev).mp (happ y ((appliedIn_reserved hev).mpr
          ⟨hreq, by rw [hmatch, hfirst]⟩))).2
    | none =>
        right
        refine ⟨rfl, fun y hy => ?_⟩
        rw [viewAfter_eq hreq, viewAfter_eq hreq', hmatch, hfirst, hy] at hview
        exact congrArg RideView.driverId (Option.some.inj hview)

/-- If the first events agree, what is applied stays applied. -/
theorem stillApplied_of_sameFirstEvents (hc : Causal causal) (hs : SameTopics causal order)
    (h : ∀ id, (∃ q ∈ causal, requests id q = true) → SameFirstEvents id causal order) :
    StillApplied causal order := by
  intro e ha
  have ha' := ha
  obtain ⟨before, after, event, ride, heq, hev, -⟩ := ha'
  cases event with
  | requested input =>
      rw [appliedIn_requested hev] at ha ⊢
      rw [hs.find? fun _ => eventType_of_requests]
      exact ha
  | reserved rideId driverId =>
      obtain ⟨hreq, hfirst⟩ := (appliedIn_reserved hev).mp ha
      rw [(hc.afterRequest hreq).2] at hfirst
      refine (appliedIn_reserved hev).mpr ⟨(requested_iff hs).mpr hreq, ?_⟩
      rcases (h rideId hreq).matched with hm | ⟨hm, -⟩
      · rw [hm, hfirst]
      · rw [hfirst] at hm
        cases hm
  | cancelled rideId reason =>
      by_cases hr : reason = .other
      · rw [hr] at hev
        exact absurd ha (not_appliedIn_other hev)
      · have hcan : cancels rideId e = true := cancels_iff.mpr (.inl ⟨reason, hev, hr⟩)
        obtain ⟨hreq, hfirst⟩ := (appliedIn_cancels hcan).mp ha
        rw [(hc.afterRequest hreq).1] at hfirst
        exact (appliedIn_cancels hcan).mpr
          ⟨(requested_iff hs).mpr hreq, by rw [(h rideId hreq).cancel, hfirst]⟩
  | rejected rideId =>
      have hcan : cancels rideId e = true := cancels_iff.mpr (.inr hev)
      obtain ⟨hreq, hfirst⟩ := (appliedIn_cancels hcan).mp ha
      rw [(hc.afterRequest hreq).1] at hfirst
      exact (appliedIn_cancels hcan).mpr
        ⟨(requested_iff hs).mpr hreq, by rw [(h rideId hreq).cancel, hfirst]⟩

theorem endStatus_eq {es es' : List EventEnvelope}
    (hcancel : firstCancel id es = firstCancel id es')
    (hmatch : (firstCancel id es').isSome ∨ firstMatch id es = firstMatch id es') :
    endStatus id es = endStatus id es' := by
  unfold endStatus
  rw [hcancel]
  rcases hmatch with h | h
  · rw [if_pos h, if_pos h]
  · rw [h]

/-- If the first events agree, all rides end alike. -/
theorem viewAfter_of_sameFirstEvents (hc : Causal causal) (hs : SameTopics causal order)
    (h : ∀ id, (∃ q ∈ causal, requests id q = true) → SameFirstEvents id causal order)
    (id : String) :
    viewAfter id order = viewAfter id causal := by
  by_cases hreq : ∃ q ∈ causal, requests id q = true
  · have hreq' := (requested_iff hs).mpr hreq
    obtain ⟨hcancel, hmatch⟩ := hc.afterRequest hreq
    have hfirst := h id hreq
    rw [viewAfter_eq hreq, viewAfter_eq hreq', hmatch]
    have hdriver : (firstMatch id (TripService.afterRequest id order)).bind driverNamed =
        (firstMatch id causal).bind driverNamed := by
      rcases hfirst.matched with hm | ⟨hm, hnone⟩
      · rw [hm]
      · rw [hm]
        cases hy : firstMatch id (TripService.afterRequest id order) with
        | none => rfl
        | some y => exact hnone y hy
    rw [hdriver]
    refine congrArg some (congrArg (RideView.mk · _)
      (endStatus_eq (hfirst.cancel.trans hcancel.symm) ?_))
    rw [hcancel, hmatch]
    cases hfc : firstCancel id causal with
    | some x => exact .inl rfl
    | none =>
        right
        rcases hfirst.matched with hm | ⟨hm, -⟩
        · exact hm
        · -- without a cancelling event the causal order has no match of the ride at all
          rw [hm]
          have hno : ∀ x ∈ causal, reserves id x = false := by
            rw [firstMatch_of_not_cancels (firstCancel_eq_none.mp hfc), List.find?_eq_none] at hm
            simpa using hm
          cases hy : firstMatch id (TripService.afterRequest id order) with
          | none => rfl
          | some y =>
              obtain ⟨hres, b, a, heq, -⟩ := firstMatch_eq_some.mp hy
              have hin : y ∈ TripService.afterRequest id order := by simp [heq]
              have hin' := (List.dropWhile_sublist _).subset (List.mem_of_mem_tail hin)
              rw [hno y (hs.mem.mp hin')] at hres
              cases hres
  · have hreq' : ¬ ∃ q ∈ order, requests id q = true := fun hex => hreq ((requested_iff hs).mp hex)
    rw [viewAfter_of_not_requested (by simpa using hreq'),
      viewAfter_of_not_requested (by simpa using hreq)]

/-- An order of the events is as good as the causal one exactly if, for every
requested ride, the first events after the request agree. -/
theorem orderIndependent_iff {maxAttempts : Nat} {reply : PatchReply} (hmax : 0 < maxAttempts)
    (hids : (causal.map (·.eventId)).Nodup) (hc : Causal causal) (hs : SameTopics causal order) :
    OrderIndependent maxAttempts reply causal order ↔
      ∀ id, (∃ q ∈ causal, requests id q = true) → SameFirstEvents id causal order := by
  have hdc : Delivered causal (outcome maxAttempts reply causal) := delivered_consumeAll hmax hids
  have hds : Delivered order (outcome maxAttempts reply order) :=
    delivered_consumeAll hmax ((hs.perm.map _).nodup_iff.mpr hids)
  have hprocessed : ∀ e ∈ causal, ⟨e.eventId, consumerName⟩ ∈
      (outcome maxAttempts reply causal).db.processedEvents ↔ AppliedIn causal e := by
    intro e he
    rw [hdc.processed]
    constructor
    · rintro ⟨e', ha, heq⟩
      have hid : e.eventId = e'.eventId := congrArg ProcessedEventRow.eventId heq
      rw [List.inj_on_of_nodup_map hids he ha.mem hid]
      exact ha
    · exact fun ha => ⟨e, ha, rfl⟩
  constructor
  · intro h id hreq
    refine sameFirstEvents_of_stillApplied hc hs (fun e ha => ?_) ?_ hreq
    · have hnp := h.notParked e ha.mem ((hprocessed e ha.mem).mpr ha)
      have ha' := ha
      obtain ⟨before, after, event, ride, heq, hev, -⟩ := ha'
      by_cases hreqd : ∃ input, event = .requested input
      · obtain ⟨input, rfl⟩ := hreqd
        rw [appliedIn_requested hev] at ha ⊢
        rw [hs.find? fun _ => eventType_of_requests]
        exact ha
      · push Not at hreqd
        rcases hds.notApplied e (hs.mem.mpr ha.mem) event hev hreqd with ha' | hp
        · exact ha'
        · exact absurd hp hnp
    · rw [← hds.view, ← hdc.view]
      exact h.sameRides id
  · intro h
    constructor
    · intro e he hpe hp
      exact (hds.parked e hp).2
        (stillApplied_of_sameFirstEvents hc hs h e ((hprocessed e he).mp hpe))
    · intro id
      rw [hds.view, hdc.view]
      exact viewAfter_of_sameFirstEvents hc hs h id

end Orders

/-! ## A match that overtakes the request -/

/-- A request and a match of one ride. -/
def requestThenMatch : List EventEnvelope :=
  [⟨0, .rideRequested, "c", some ⟨some "r", some "u", none, some ⟨0, 0⟩, some ⟨1, 1⟩, .undefined⟩⟩,
    ⟨1, .driverReserved, "c", some ⟨some "r", none, some "d", none, none, .undefined⟩⟩]

theorem requestThenMatch_causal : Causal requestThenMatch := by
  intro before envelope after event heq hev
  match before, heq with
  | [], heq =>
      cases heq
      cases hev
      exact .inl ⟨_, rfl⟩
  | [q], heq =>
      cases heq
      cases hev
      exact .inr ⟨_, List.mem_cons_self, rfl⟩
  | _ :: _ :: _, heq => simp [requestThenMatch] at heq

theorem requestThenMatch_sameTopics : SameTopics requestThenMatch requestThenMatch.reverse := by
  intro topic
  cases topic <;> rfl

/-- The two orders of a request and a match are not equally good. -/
theorem orderIndependent_requestThenMatch :
    ¬ OrderIndependent 3 (.response 200) requestThenMatch requestThenMatch.reverse := by
  intro h
  have hfirst := (orderIndependent_iff (by decide) (by decide) requestThenMatch_causal
    requestThenMatch_sameTopics).mp h "r" ⟨_, List.mem_cons_self, rfl⟩
  rcases hfirst.matched with hm | ⟨hm, -⟩ <;> cases hm

/-- The match is parked when it comes first, however often it is retried. -/
theorem match_parked_before_request :
    ¬ ∀ causal order, (causal.map (·.eventId)).Nodup → Causal causal → SameTopics causal order →
      OrderIndependent EventConsumer.defaultMaxAttempts (.response 200) causal order := by
  intro h
  have hind := h requestThenMatch requestThenMatch.reverse (by decide) requestThenMatch_causal
    requestThenMatch_sameTopics
  have hcausal : (outcome 3 (.response 200) requestThenMatch).db.view "r" =
      some ⟨.matched, some "d"⟩ := rfl
  have horder : (outcome 3 (.response 200) requestThenMatch.reverse).db.view "r" =
      some ⟨.matching, none⟩ := rfl
  have hsame := hind.sameRides "r"
  rw [EventConsumer.defaultMaxAttempts, hcausal, horder] at hsame
  cases hsame

end TripService

end RydTrip
