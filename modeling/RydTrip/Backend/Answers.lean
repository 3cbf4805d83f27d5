import RydTrip.Backend.Leaks
import RydTrip.DispatchService.Answer

/-!
# Every request gets one answer

The outcomes that dispatch has published are a part of the requests that riders
have made, as lists of rides and correlation ids.  When everything is over they
are all of them.  So no request is lost, none is answered twice, and nothing is
answered that was not asked.  The lists are compared up to order, since requests
overtake each other.
-/

namespace RydTrip

namespace Backend

open Process TripService
open Dispatch (Answer requestedRide)

/-! ## Requests and outcomes -/

/-- What ties an outcome to its request. -/
def subject (envelope : EventEnvelope) : Option String × String :=
  (envelope.payload.bind (·.rideId), envelope.correlationId)

def IsRequest (envelope : EventEnvelope) : Bool := envelope.eventType = .rideRequested

def IsOutcome (envelope : EventEnvelope) : Bool :=
  envelope.eventType = .driverReserved ∨ envelope.eventType = .driverRejected

def requests (w : World) : List (Option String × String) :=
  (w.events.filter IsRequest).map subject

def outcomes (w : World) : List (Option String × String) :=
  (w.events.filter IsOutcome).map subject

theorem subject_of_requestedRide {envelope : EventEnvelope} {rideId : String}
    (h : requestedRide envelope = some rideId) :
    subject envelope = (some rideId, envelope.correlationId) := by
  obtain ⟨p, hp, rfl⟩ := Option.map_eq_some_iff.mp h
  unfold Dispatch.RideRequestedConsumer.rideRequestedPayload at hp
  obtain ⟨payload, hpayload, hp⟩ := Option.bind_eq_some_iff.mp hp
  obtain ⟨ride, hride, hp⟩ := Option.bind_eq_some_iff.mp hp
  obtain ⟨pickup, -, hp⟩ := Option.bind_eq_some_iff.mp hp
  cases hp
  simp [subject, hpayload, hride]

theorem isRequest_outcome {outcome : Dispatch.Outcome} {eventId : Nat} {correlationId : String} :
    IsRequest ⟨eventId, outcome.topic, correlationId, some outcome.payload⟩ = false := by
  cases outcome with
  | reserved rideId driverId => rfl
  | rejected rideId reason => rfl

/-! ## The typestate of a dispatch -/

def afterAnswer : (c : Cmd) → Reply c → Answer → Answer
  | .dispatch c, r, g => Answer.next c r g
  | _, _, g => g

/-- How far the dispatch with this log has come. -/
abbrev answerOf (log : BackendLog) : Answer := track afterAnswer .awaited log

/-- A dispatch of a request that names its ride does what it may. -/
def Call.Answers (call : Call) (c : Cmd) (g : Answer) : Prop :=
  ∀ envelope c', call = .dispatchEvent envelope → (requestedRide envelope).isSome →
    c = .dispatch c' → Answer.Allows envelope c' g

def Responds : (c : Cmd) → Reply c → Prop
  | .dispatch c, r => Dispatch.Responds c r
  | _, _ => True

/-- At its end the dispatch is over. -/
def Call.Answered (call : Call) (g : Answer) : Prop :=
  ∀ envelope, call = .dispatchEvent envelope → (requestedRide envelope).isSome → g.Over

abbrev AnswerSpec (call : Call) : (c : Cmd) → (Reply c → Answer → Prop) → Answer → Prop :=
  typestateSpec call.Answers Responds afterAnswer

section Programs

variable {ε α : Type} {call : Call} {envelope : EventEnvelope} {g : Answer}

theorem patchStatus_answer {driverId : String} {status : DriverStatus}
    {Q : PatchReply → Answer → Prop} {E : ε → Answer → Prop} (hQ : ∀ r, Q r g) :
    (patchStatus driverId status).wp (AnswerSpec call) Q E g := by
  unfold patchStatus
  refine Prog.wp_seq ?_
  rw [Prog.wp_attempt, Prog.wp_expand, Drivers.DriversService.updateStatus_eq]
  refine ⟨fun _ _ _ _ => nofun, fun row _ => ?_⟩
  cases row with
  | none => exact hQ _
  | some src =>
      simp only [Prog.wp_ret]
      split
      · refine ⟨fun _ _ _ _ => nofun, fun row _ => ?_⟩
        cases row with
        | none => exact hQ _
        | some status => exact hQ _
      · exact hQ _

theorem serveDispatch_answer (hcall : call = .dispatchEvent envelope) (c : Dispatch.Cmd)
    (K : Dispatch.Reply c → Answer → Prop) (E : Dispatch.DispatchError → Answer → Prop)
    (g : Answer) (h : typestateSpec (Answer.Allows envelope) Dispatch.Responds Answer.next c K g) :
    (serveDispatch c).wp (AnswerSpec call) K E g := by
  have hallows (c' : Dispatch.Cmd) (hc : c = c') : call.Answers (.dispatch c') g := by
    intro envelope' c'' hcall' _ heq
    cases heq
    cases hcall.symm.trans hcall'
    exact hc ▸ h.1
  cases c with
  | patch driverId status => exact patchStatus_answer fun r => h.2 r trivial
  | _ => exact ⟨hallows _ rfl, h.2⟩

/-- Calls that are not such a dispatch have nothing to answer for. -/
theorem answer_trivial (hcall : ∀ envelope, call = .dispatchEvent envelope →
    requestedRide envelope = none) (p : Prog Cmd Reply ε α) (g : Answer) :
    p.wp (AnswerSpec call) (fun _ => call.Answered) (fun _ => call.Answered) g := by
  have hnever (envelope : EventEnvelope) (h : call = .dispatchEvent envelope)
      (hsome : (requestedRide envelope).isSome) : False := by
    rw [hcall envelope h] at hsome
    cases hsome
  induction p generalizing g with
  | ret a => exact fun envelope h hsome => (hnever envelope h hsome).elim
  | throw e => exact fun envelope h hsome => (hnever envelope h hsome).elim
  | call c k ih =>
      exact ⟨fun envelope _ h hsome => (hnever envelope h hsome).elim, fun r _ => ih r _⟩

/-- Every dispatch answers its event, and only its event. -/
theorem prog_answer (cfg : Dispatch.Config) (haversineKm : GeoPoint → GeoPoint → Option Rat)
    (call : Call) :
    (call.prog cfg haversineKm).wp (AnswerSpec call) (fun _ => call.Answered)
      (fun _ => call.Answered) .awaited := by
  by_cases hex : ∃ envelope rideId, call = .dispatchEvent envelope ∧
      requestedRide envelope = some rideId
  · obtain ⟨envelope, rideId, rfl, hride⟩ := hex
    have hover (g : Answer) (h : g.Over) : (Call.dispatchEvent envelope).Answered g :=
      fun _ _ _ => h
    refine Prog.wp_seq ?_
    rw [Prog.wp_attempt]
    refine Prog.wp_mono typestateSpec_mono (fun _ g h => hover g h) (fun _ _ h => h.elim)
      (Prog.wp_expand_view (Q := fun _ g => g.Over) (E := fun _ _ => False) typestateSpec_mono id
        (fun c K g => serveDispatch_answer rfl c K _ g) (Dispatch.answer_consume hride))
  · refine answer_trivial (fun envelope h => ?_) _ _
    cases hride : requestedRide envelope with
    | none => rfl
    | some rideId => exact absurd ⟨envelope, rideId, h, hride⟩ hex

end Programs

/-! ## Commands -/

section Commands

variable {w w' : World} {found : List NearbyDriver} {c : Cmd} {r : Reply c}

/-- Nothing of dispatch fails while the breaker in front of Redis is closed. -/
theorem exec_responds (hw : w.dispatch.redisBreaker.Healthy) (h : w.exec found c = (r, w')) :
    Responds c r := by
  cases c with
  | dispatch c =>
      cases h
      cases c with
      | enter b =>
          cases b with
          | driverService => trivial
          | redis =>
              change (w.dispatch.enter .redis).1 = true
              unfold Dispatch.DispatchHost.enter
              rw [show w.dispatch.breaker .redis = w.dispatch.redisBreaker from rfl,
                hw.enter w.dispatch.now]
      | findNearby pickup radiusKm limit => exact ⟨_, rfl⟩
      | tryReserve driverId rideId ttlSeconds => exact ⟨_, rfl⟩
      | wasProcessed consumerName eventId => exact ⟨_, rfl⟩
      | publish outcome correlationId key => rfl
      | markProcessed consumerName eventId => rfl
      | _ => trivial
  | _ => trivial

/-- The breaker stays closed as long as only successes are reported to it. -/
theorem exec_healthy (hw : w.dispatch.redisBreaker.Healthy) (h : w.exec found c = (r, w'))
    (hc : ∀ success, c = .dispatch (.settle .redis success) → success = true) :
    w'.dispatch.redisBreaker.Healthy := by
  cases c with
  | db c =>
      cases h
      exact hw
  | tripPark fields =>
      cases h
      exact hw
  | drivers c =>
      cases c with
      | findUnique driverId =>
          cases h
          exact hw
      | update driverId status =>
          obtain ⟨drivers, hframe⟩ := updateDriver_frame w driverId status
          rw [← show (w.updateDriver driverId status).2 = w' from congrArg Prod.snd h, hframe]
          exact hw
  | dispatch c =>
      cases h
      rw [(afterDispatch_frame ..).2.2.1]
      change (w.dispatch.exec _ c).2.redisBreaker.Healthy
      cases c with
      | enter b =>
          change (w.dispatch.enter b).2.redisBreaker.Healthy
          unfold Dispatch.DispatchHost.enter
          split
          · exact hw
          next state hstate =>
            cases b with
            | driverService => exact hw
            | redis =>
                cases (hw.enter w.dispatch.now).symm.trans hstate
                exact hw
      | settle b success =>
          cases b with
          | driverService => exact hw
          | redis =>
              cases hc success rfl
              exact CircuitBreaker.onSuccess_healthy _
      | tryReserve driverId rideId ttlSeconds =>
          change (w.dispatch.reserve driverId rideId).2.redisBreaker.Healthy
          unfold Dispatch.DispatchHost.reserve
          split
          · exact hw
          · exact hw
      | _ => exact hw

/-- An event is marked by the command that marks it. -/
theorem exec_marked {consumerName : String} {eventId : Nat} (h : w.exec found c = (r, w'))
    (hmark : w'.dispatch.processed consumerName eventId = true) :
    w.dispatch.processed consumerName eventId = true ∨
      c = .dispatch (.markProcessed consumerName eventId) := by
  cases c with
  | db c =>
      cases h
      exact .inl hmark
  | tripPark fields =>
      cases h
      exact .inl hmark
  | drivers c =>
      left
      cases c with
      | findUnique driverId =>
          cases h
          exact hmark
      | update driverId status =>
          obtain ⟨drivers, hframe⟩ := updateDriver_frame w driverId status
          rw [← show (w.updateDriver driverId status).2 = w' from congrArg Prod.snd h, hframe]
            at hmark
          exact hmark
  | dispatch c =>
      cases h
      rw [(afterDispatch_frame ..).2.2.1] at hmark
      change (w.dispatch.exec _ c).2.processed consumerName eventId = true at hmark
      cases c with
      | enter b =>
          left
          change (w.dispatch.enter b).2.processed consumerName eventId = true at hmark
          unfold Dispatch.DispatchHost.enter at hmark
          split at hmark
          · exact hmark
          · cases b <;> exact hmark
      | settle b success =>
          left
          cases b <;> exact hmark
      | tryReserve driverId rideId ttlSeconds =>
          left
          change (w.dispatch.reserve driverId rideId).2.processed consumerName eventId = true
            at hmark
          unfold Dispatch.DispatchHost.reserve at hmark
          split at hmark
          · exact hmark
          · exact hmark
      | markProcessed consumerName' eventId' =>
          change Function.update w.dispatch.processed consumerName'
            (Function.update (w.dispatch.processed consumerName') eventId' true) consumerName
              eventId = true at hmark
          rw [Function.update_apply] at hmark
          split at hmark
          next hname =>
            rw [Function.update_apply] at hmark
            split at hmark
            next hid => exact .inr (by rw [hname, hid])
            next => exact .inl (hname ▸ hmark)
          next => exact .inl hmark
      | _ => exact .inl hmark

/-- A dispatch that skips its event has found it marked. -/
theorem exec_skipped {log : BackendLog} (h : w.exec found c = (r, w'))
    (hskip : answerOf (⟨c, r⟩ :: log) = .skipped) : answerOf log = .skipped ∨
      ∃ consumerName eventId, c = .dispatch (.wasProcessed consumerName eventId) ∧
        w.dispatch.processed consumerName eventId = true := by
  cases c with
  | dispatch c =>
      cases h
      change Answer.next c (w.dispatch.exec { candidates := w.nearby found c } c).1 (answerOf log) =
        .skipped at hskip
      unfold Answer.next at hskip
      split at hskip
      next heq => exact .inr ⟨_, _, rfl, Except.ok.inj heq⟩
      next => cases hskip
      next => exact .inl hskip
  | _ => exact .inl hskip

end Commands

/-! ## Answers in the log -/

section Log

variable {c : Cmd} {r : Reply c} {log : BackendLog}

/-- Once a dispatch is over it stays over. -/
theorem over_mono (h : (answerOf log).Over) : (answerOf (⟨c, r⟩ :: log)).Over := by
  cases c with
  | dispatch c =>
      change (Answer.next c r (answerOf log)).Over
      unfold Answer.next
      split
      · exact nofun
      · exact nofun
      · exact h
  | _ => exact h

/-- A dispatch is over by its outcome, or because its event is marked. -/
theorem over_cons (h : (answerOf (⟨c, r⟩ :: log)).Over) :
    (answerOf log).Over ∨ answerOf (⟨c, r⟩ :: log) = .skipped ∨ ∃ outcome correlationId key,
      c = .dispatch (.publish outcome correlationId key) := by
  cases c with
  | dispatch c =>
      change (Answer.next c r (answerOf log)).Over at h
      change _ ∨ Answer.next c r (answerOf log) = .skipped ∨ _
      unfold Answer.next at h
      split at h
      · exact .inr (.inl rfl)
      · exact .inr (.inr ⟨_, _, _, rfl⟩)
      · exact .inl h
  | _ => exact .inl h

end Log

/-! ## The invariant -/

/-- The dispatch of the event `n` is over. -/
def Concluded (s : BackendPool) (n : Nat) : Prop :=
  ∃ i th envelope, s.threads i = some th ∧ th.call = .dispatchEvent envelope ∧
    envelope.eventId = n ∧ (answerOf th.log).Over

structure Answering (s : BackendPool) : Prop where
  meets : ∀ i th, s.threads i = some th →
    th.Meets Call.Answers Responds afterAnswer .awaited Call.Answered
  healthy : s.world.dispatch.redisBreaker.Healthy
  numbered : ∀ n (envelope : EventEnvelope),
    s.world.events[n]? = some envelope → envelope.eventId = n
  named : ∀ envelope, Published s.world envelope → IsRequest envelope = true →
    (requestedRide envelope).isSome
  /-- Only requests are dispatched, each by one thread. -/
  handled : ∀ i th envelope, s.threads i = some th → th.call = .dispatchEvent envelope →
    Published s.world envelope ∧ IsRequest envelope = true ∧
      s.world.dispatchDelivered envelope.eventId = true
  thread : ∀ i j th th' e e', s.threads i = some th → s.threads j = some th' →
    th.call = .dispatchEvent e → th'.call = .dispatchEvent e' → e.eventId = e'.eventId → i = j
  started : ∀ n, s.world.dispatchDelivered n = true → ∃ i th envelope, s.threads i = some th ∧
    th.call = .dispatchEvent envelope ∧ envelope.eventId = n
  /-- Events are marked when they are answered, and never skipped. -/
  marked : ∀ n, s.world.dispatch.processed Dispatch.RideRequestedConsumer.consumerName n = true →
    Concluded s n
  fresh : ∀ i th, s.threads i = some th → answerOf th.log ≠ .skipped
  /-- The outcomes are those of the requests that are answered. -/
  ledger : ∃ answered : List EventEnvelope, answered.Nodup ∧
    (∀ envelope, envelope ∈ answered ↔ Published s.world envelope ∧ IsRequest envelope = true ∧
      Concluded s envelope.eventId) ∧
    (outcomes s.world).Perm (answered.map subject)

theorem initial_answering (drivers : String → Option DriverStatus) :
    Answering (initial drivers) where
  meets _ _ := nofun
  healthy := CircuitBreaker.new_healthy 5 10000
  numbered _ _ := nofun
  named _ := nofun
  handled _ _ _ := nofun
  thread _ _ _ _ _ _ := nofun
  started _ := nofun
  marked _ := nofun
  fresh _ _ := nofun
  ledger := ⟨[], .nil, fun _ => ⟨nofun, fun h => nomatch h.1⟩, .refl _⟩

/-! ## Starting a call -/

/-- What the start of a call does for dispatch. -/
theorem start_dispatch {w w' : World} {call : Call} (h : w.start call = some w') :
    (∀ envelope, call = .dispatchEvent envelope → Published w envelope ∧
      IsRequest envelope = true ∧ w.dispatchDelivered envelope.eventId = false ∧
        w'.dispatchDelivered envelope.eventId = true) ∧
      (∀ n, w.dispatchDelivered n = true → w'.dispatchDelivered n = true) ∧
      ∀ n, w'.dispatchDelivered n = true → w.dispatchDelivered n = true ∨
        ∃ envelope, call = .dispatchEvent envelope ∧ envelope.eventId = n := by
  unfold World.start at h
  split at h
  · split at h
    · cases h
      exact ⟨fun _ => nofun, fun _ hn => hn, fun _ hn => .inl hn⟩
    · cases h
  · split at h
    · cases h
      exact ⟨fun _ => nofun, fun _ hn => hn, fun _ hn => .inl hn⟩
    · cases h
  next envelope =>
    split at h
    next hpub =>
      cases h
      obtain ⟨hpub, htype, hdel⟩ := hpub
      refine ⟨fun e he => ?_, fun n hn => ?_, fun n hn => ?_⟩
      · cases he
        exact ⟨hpub, decide_eq_true htype, hdel, Function.update_self ..⟩
      · change Function.update w.dispatchDelivered envelope.eventId true n = true
        rw [Function.update_apply]
        split
        · rfl
        · exact hn
      · by_cases hid : n = envelope.eventId
        · exact .inr ⟨envelope, rfl, hid.symm⟩
        · exact .inl ((Function.update_of_ne hid _ _).symm.trans hn)
    next => cases h
  · cases h
    exact ⟨fun _ => nofun, fun _ hn => hn, fun _ hn => .inl hn⟩

section Steps

variable {cfg : Dispatch.Config} {haversineKm : GeoPoint → GeoPoint → Option Rat} {s : BackendPool}

theorem concluded_spawn {i : Nat} {call : Call} {p : Prog Cmd Reply Empty Unit} {w : World}
    (hi : s.threads i = none) {n : Nat} :
    Concluded ⟨w, Function.update s.threads i (some ⟨call, p, []⟩)⟩ n ↔ Concluded s n := by
  constructor
  · rintro ⟨j, th, envelope, hj, hcall, hid, hover⟩
    rcases update_eq_some hj with ⟨-, rfl⟩ | ⟨-, hj⟩
    · exact absurd rfl hover
    · exact ⟨j, th, envelope, hj, hcall, hid, hover⟩
  · rintro ⟨j, th, envelope, hj, hcall, hid, hover⟩
    refine ⟨j, th, envelope, (Function.update_of_ne ?_ _ _).trans hj, hcall, hid, hover⟩
    rintro rfl
    rw [hi] at hj
    cases hj

theorem Answering.spawn (ha : Answering s) {i : Nat} {call : Call} {w : World}
    (hi : s.threads i = none) (hw : s.world.start call = some w) :
    Answering ⟨w, Function.update s.threads i (some ⟨call, call.prog cfg haversineKm, []⟩)⟩ := by
  obtain ⟨hevents, -, -, hdispatch, -⟩ := start_frame hw
  obtain ⟨hnew, hmono, hdel⟩ := start_dispatch hw
  have hpub (envelope : EventEnvelope) : Published w envelope ↔ Published s.world envelope := by
    unfold Published
    rw [hevents]
  -- A call that starts has not been started before.
  have hclash {j : Nat} {th : BackendThread} {e e' : EventEnvelope} (hj : s.threads j = some th)
      (hcall : th.call = .dispatchEvent e) (hcall' : call = .dispatchEvent e')
      (hid : e.eventId = e'.eventId) : False := by
    have hold := (ha.handled j th e hj hcall).2.2
    rw [hid, (hnew e' hcall').2.2.1] at hold
    cases hold
  refine ⟨fun j th hj => ?_, hdispatch ▸ ha.healthy, hevents ▸ ha.numbered,
    fun e he => ha.named e ((hpub e).mp he), fun j th e hj hcall => ?_,
    fun j j' th th' e e' hj hj' hcall hcall' hid => ?_, fun n hn => ?_, fun n hn => ?_,
    fun j th hj => ?_, ?_⟩
  · rcases update_eq_some hj with ⟨-, rfl⟩ | ⟨-, hj⟩
    · exact prog_answer cfg haversineKm call
    · exact ha.meets j th hj
  · rcases update_eq_some hj with ⟨-, rfl⟩ | ⟨-, hj⟩
    · obtain ⟨hp, hreq, -, hd⟩ := hnew e hcall
      exact ⟨(hpub e).mpr hp, hreq, hd⟩
    · obtain ⟨hp, hreq, hd⟩ := ha.handled j th e hj hcall
      exact ⟨(hpub e).mpr hp, hreq, hmono _ hd⟩
  · rcases update_eq_some hj with ⟨rfl, rfl⟩ | ⟨-, hold⟩
    · rcases update_eq_some hj' with ⟨rfl, rfl⟩ | ⟨-, hold'⟩
      · rfl
      · exact (hclash hold' hcall' hcall hid.symm).elim
    · rcases update_eq_some hj' with ⟨rfl, rfl⟩ | ⟨-, hold'⟩
      · exact (hclash hold hcall hcall' hid).elim
      · exact ha.thread j j' th th' e e' hold hold' hcall hcall' hid
  · rcases hdel n hn with hn | ⟨envelope, hcall, hid⟩
    · obtain ⟨j, th, envelope, hj, hrest⟩ := ha.started n hn
      refine ⟨j, th, envelope, (Function.update_of_ne ?_ _ _).trans hj, hrest⟩
      rintro rfl
      rw [hi] at hj
      cases hj
    · exact ⟨i, _, envelope, Function.update_self .., hcall, hid⟩
  · exact (concluded_spawn hi).mpr (ha.marked n (hdispatch ▸ hn))
  · rcases update_eq_some hj with ⟨-, rfl⟩ | ⟨-, hj⟩
    · exact nofun
    · exact ha.fresh j th hj
  · obtain ⟨answered, hnodup, hmem, hperm⟩ := ha.ledger
    refine ⟨answered, hnodup, fun e => ?_, ?_⟩
    · rw [hmem, hpub, concluded_spawn hi]
    · unfold outcomes
      rw [hevents]
      exact hperm

/-! ## Running a thread -/

theorem exec_dispatchDelivered {w w' : World} {found : List NearbyDriver} {c : Cmd} {r : Reply c}
    (h : w.exec found c = (r, w')) : w'.dispatchDelivered = w.dispatchDelivered := by
  cases c with
  | db c =>
      cases h
      rfl
  | tripPark fields =>
      cases h
      rfl
  | dispatch c =>
      cases h
      unfold World.afterDispatch
      split <;> rfl
  | drivers c =>
      cases c with
      | findUnique driverId =>
          cases h
          rfl
      | update driverId status =>
          obtain ⟨drivers, hframe⟩ := updateDriver_frame w driverId status
          rw [← show (w.updateDriver driverId status).2 = w' from congrArg Prod.snd h, hframe]

section Run

variable {i : Nat} {found : List NearbyDriver} {call : Call} {c : Cmd}
  {k : Reply c → Prog Cmd Reply Empty Unit} {log : BackendLog} {r : Reply c} {w : World}

theorem concluded_run (hi : s.threads i = some ⟨call, .call c k, log⟩) {n : Nat} :
    Concluded (after s i call k log r w) n ↔ Concluded s n ∨
      ∃ envelope, call = .dispatchEvent envelope ∧ envelope.eventId = n ∧
        (answerOf (⟨c, r⟩ :: log)).Over := by
  constructor
  · rintro ⟨j, th, envelope, hj, hcall, hid, hover⟩
    rcases update_eq_some hj with ⟨-, rfl⟩ | ⟨-, hj⟩
    · exact .inr ⟨envelope, hcall, hid, hover⟩
    · exact .inl ⟨j, th, envelope, hj, hcall, hid, hover⟩
  · rintro (⟨j, th, envelope, hj, hcall, hid, hover⟩ | ⟨envelope, hcall, hid, hover⟩)
    · by_cases hji : j = i
      · subst hji
        rw [hi] at hj
        cases hj
        exact ⟨j, _, envelope, Function.update_self .., hcall, hid, over_mono hover⟩
      · exact ⟨j, th, envelope, (Function.update_of_ne hji _ _).trans hj, hcall, hid, hover⟩
    · exact ⟨i, _, envelope, Function.update_self .., hcall, hid, hover⟩

/-- What a dispatch is allowed, in terms of its event. -/
theorem Answering.allows (ha : Answering s) (hs : Sound s) {c : Dispatch.Cmd}
    {k : Dispatch.Reply c → Prog Cmd Reply Empty Unit}
    (hi : s.threads i = some ⟨call, .call (.dispatch c) k, log⟩) :
    ∃ envelope, call = .dispatchEvent envelope ∧ Answer.Allows envelope c (answerOf log) := by
  obtain ⟨⟨envelope, rfl⟩, -⟩ := (hs.meets i _ hi).allows
  obtain ⟨hpub, hreq, -⟩ := ha.handled i _ envelope hi rfl
  exact ⟨envelope, rfl, (ha.meets i _ hi).allows envelope c rfl (ha.named _ hpub hreq) rfl⟩

/-- While a dispatch is under way its event is not concluded. -/
theorem Answering.open (ha : Answering s) {th : BackendThread} {envelope : EventEnvelope}
    (hi : s.threads i = some th) (hcall : th.call = .dispatchEvent envelope)
    (hawaited : answerOf th.log = .awaited) : ¬ Concluded s envelope.eventId := by
  rintro ⟨j, th', envelope', hj, hcall', hid, hover⟩
  cases ha.thread i j th th' envelope envelope' hi hj hcall hcall' hid.symm
  rw [hi] at hj
  cases hj
  exact hover hawaited

/-- No event is found marked by its own dispatch. -/
theorem Answering.not_skipped (ha : Answering s) (hs : Sound s)
    (hi : s.threads i = some ⟨call, .call c k, log⟩) (hx : s.world.exec found c = (r, w)) :
    answerOf (⟨c, r⟩ :: log) ≠ .skipped := by
  intro hskip
  rcases exec_skipped hx hskip with hold | ⟨consumerName, eventId, rfl, hmark⟩
  · exact ha.fresh i _ hi hold
  · obtain ⟨envelope, rfl, hawaited, rfl, rfl⟩ := ha.allows hs hi
    exact ha.open hi rfl hawaited (ha.marked _ hmark)

/-- An answer is entered in the ledger when it is published. -/
theorem Answering.ledger_run (ha : Answering s) (hs : Sound s)
    (hi : s.threads i = some ⟨call, .call c k, log⟩) (hx : s.world.exec found c = (r, w)) :
    ∃ answered : List EventEnvelope, answered.Nodup ∧
      (∀ envelope, envelope ∈ answered ↔ Published w envelope ∧ IsRequest envelope = true ∧
        Concluded (after s i call k log r w) envelope.eventId) ∧
      (outcomes w).Perm (answered.map subject) := by
  obtain ⟨answered, hnodup, hmem, hperm⟩ := ha.ledger
  rcases exec_events hx with hevents | ⟨outcome, correlationId, key, rfl, hevents⟩
  · refine ⟨answered, hnodup, fun e => ?_, ?_⟩
    · rw [hmem, concluded_run hi]
      unfold Published
      rw [hevents]
      refine and_congr_right fun hpub => and_congr_right fun _ => ⟨.inl, ?_⟩
      rintro (hold | ⟨envelope, rfl, hid, hover⟩)
      · exact hold
      · rcases over_cons hover with hold | hskip | ⟨outcome, correlationId, key, rfl⟩
        · exact ⟨i, _, envelope, hi, rfl, hid, hold⟩
        · exact absurd hskip (ha.not_skipped hs hi hx)
        · cases hx
          simp [World.afterDispatch, World.publish] at hevents
    · unfold outcomes
      rw [hevents]
      exact hperm
  · obtain ⟨envelope, rfl, hawaited, hride, rfl⟩ := ha.allows hs hi
    obtain ⟨hpub, hreq, -⟩ := ha.handled i _ envelope hi rfl
    have hlt := (List.getElem?_eq_some_iff.mp hpub).1
    have hopen := ha.open hi rfl hawaited
    have hover : (answerOf (⟨.dispatch (.publish outcome envelope.correlationId key), r⟩ ::
        log)).Over := by
      cases hx
      exact nofun
    refine ⟨envelope :: answered, List.nodup_cons.mpr ⟨fun h => hopen ((hmem _).mp h).2.2, hnodup⟩,
      fun e => ?_, ?_⟩
    · rw [List.mem_cons, hmem, concluded_run hi]
      unfold Published
      rw [hevents]
      constructor
      · rintro (rfl | ⟨hpub', hreq', hold⟩)
        · exact ⟨(List.getElem?_append_left hlt).trans hpub, hreq, .inr ⟨_, rfl, rfl, hover⟩⟩
        · have hlt' := (List.getElem?_eq_some_iff.mp hpub').1
          exact ⟨(List.getElem?_append_left hlt').trans hpub', hreq', .inl hold⟩
      · rintro ⟨hpub', hreq', hdone⟩
        rcases getElem?_append_singleton hpub' with hpub' | ⟨-, rfl⟩
        · rcases hdone with hold | ⟨envelope', heq, hid, -⟩
          · exact .inr ⟨hpub', hreq', hold⟩
          · cases heq
            rw [← hid] at hpub'
            exact .inl (Option.some.inj (hpub'.symm.trans hpub))
        · rw [isRequest_outcome] at hreq'
          cases hreq'
    · have hnew : outcomes w = outcomes s.world ++ [subject envelope] := by
        unfold outcomes
        rw [hevents, List.filter_append, List.map_append, subject_of_requestedRide hride]
        cases outcome <;> rfl
      rw [hnew, List.map_cons]
      exact (List.perm_append_singleton _ _).trans (hperm.cons _)

theorem Answering.run (ha : Answering s) (hs : Sound s)
    (hi : s.threads i = some ⟨call, .call c k, log⟩) (hx : s.world.exec found c = (r, w)) :
    Answering (after s i call k log r w) := by
  have hdelivered := exec_dispatchDelivered hx
  have hold {j : Nat} {th : BackendThread} (hj : (after s i call k log r w).threads j = some th) :
      ∃ th', s.threads j = some th' ∧ th'.call = th.call := by
    rcases update_eq_some hj with ⟨rfl, rfl⟩ | ⟨-, hj⟩
    · exact ⟨_, hi, rfl⟩
    · exact ⟨th, hj, rfl⟩
  have hpub {envelope : EventEnvelope} (hp : Published s.world envelope) :
      Published w envelope := by
    have hlt := (List.getElem?_eq_some_iff.mp hp).1
    unfold Published
    rcases exec_events hx with hevents | ⟨_, _, _, -, hevents⟩
    · exact hevents ▸ hp
    · rw [hevents]
      exact (List.getElem?_append_left hlt).trans hp
  refine ⟨fun j th hj => ?_, ?_, fun n e he => ?_, fun e he hreq => ?_, fun j th e hj hcall => ?_,
    fun j j' th th' e e' hj hj' hcall hcall' hid => ?_, fun n hn => ?_, fun n hn => ?_,
    fun j th hj => ?_, ha.ledger_run hs hi hx⟩
  · rcases update_eq_some hj with ⟨-, rfl⟩ | ⟨-, hj⟩
    · exact (ha.meets i _ hi).2 r (exec_responds ha.healthy hx)
    · exact ha.meets j th hj
  · refine exec_healthy ha.healthy hx fun success hc => ?_
    subst hc
    obtain ⟨_, _, hsuccess⟩ := ha.allows hs hi
    exact hsuccess
  · rcases exec_events hx with hevents | ⟨_, _, _, -, hevents⟩
    · exact ha.numbered n e (hevents ▸ he)
    · rw [show (after s i call k log r w).world = w from rfl, hevents] at he
      rcases getElem?_append_singleton he with he | ⟨rfl, rfl⟩
      · exact ha.numbered n e he
      · rfl
  · rcases exec_events hx with hevents | ⟨_, _, _, -, hevents⟩
    · exact ha.named e (show s.world.events[e.eventId]? = some e from hevents ▸ he) hreq
    · unfold Published at he
      rw [show (after s i call k log r w).world = w from rfl, hevents] at he
      rcases getElem?_append_singleton he with he | ⟨-, rfl⟩
      · exact ha.named e he hreq
      · rw [isRequest_outcome] at hreq
        cases hreq
  · obtain ⟨th', hj', heq⟩ := hold hj
    obtain ⟨hp, hreq, hd⟩ := ha.handled j th' e hj' (heq.trans hcall)
    exact ⟨hpub hp, hreq, hdelivered ▸ hd⟩
  · obtain ⟨th₀, hj₀, heq⟩ := hold hj
    obtain ⟨th₀', hj₀', heq'⟩ := hold hj'
    exact ha.thread j j' th₀ th₀' e e' hj₀ hj₀' (heq.trans hcall) (heq'.trans hcall') hid
  · obtain ⟨j, th, e, hj, hcall, hid⟩ := ha.started n (hdelivered ▸ hn)
    by_cases hji : j = i
    · subst hji
      rw [hi] at hj
      cases hj
      exact ⟨j, _, e, Function.update_self .., hcall, hid⟩
    · exact ⟨j, th, e, (Function.update_of_ne hji _ _).trans hj, hcall, hid⟩
  · refine (concluded_run hi).mpr ?_
    rcases exec_marked hx hn with hmark | rfl
    · exact .inl (ha.marked n hmark)
    · obtain ⟨e, hcall, ⟨outcome, correlationId, hgiven⟩, -, hid⟩ := ha.allows hs hi
      exact .inr ⟨e, hcall, hid.symm, over_mono (by rw [hgiven]; exact nofun)⟩
  · rcases update_eq_some hj with ⟨-, rfl⟩ | ⟨-, hj⟩
    · exact ha.not_skipped hs hi hx
    · exact ha.fresh j th hj

end Run

/-! ## The world around the services -/

/-- The world leaves dispatch alone, but for the keys that run out, and it
publishes no outcome. -/
theorem env_dispatch {w w' : World} {e : Env} (h : w.env e = some w') :
    w'.dispatchDelivered = w.dispatchDelivered ∧
      w'.dispatch.redisBreaker = w.dispatch.redisBreaker ∧
      w'.dispatch.processed = w.dispatch.processed ∧
      (w'.events = w.events ∨ ∃ envelope, w'.events = w.events ++ [envelope] ∧
        envelope.eventId = w.events.length ∧ IsOutcome envelope = false ∧
        (IsRequest envelope = true → (requestedRide envelope).isSome)) := by
  cases e with
  | requestRide input correlationId =>
      cases h
      exact ⟨rfl, rfl, rfl, .inr ⟨_, rfl, rfl, rfl, fun _ => rfl⟩⟩
  | cancelRide rideId reason correlationId =>
      cases h
      exact ⟨rfl, rfl, rfl, .inr ⟨_, rfl, rfl, rfl, nofun⟩⟩
  | updateLocation driverId =>
      change (if driverId = "" then none else some _) = some w' at h
      split at h
      · cases h
      · cases h
        exact ⟨rfl, rfl, rfl, .inl rfl⟩
  | elapse ms =>
      cases h
      exact ⟨rfl, rfl, rfl, .inl rfl⟩

theorem Answering.env (ha : Answering s) {e : Env} {w : World} (hw : s.world.env e = some w) :
    Answering ⟨w, s.threads⟩ := by
  obtain ⟨hdelivered, hbreaker, hprocessed, hevents⟩ := env_dispatch hw
  have hpub {envelope : EventEnvelope} (hp : Published s.world envelope) :
      Published w envelope := by
    have hlt := (List.getElem?_eq_some_iff.mp hp).1
    unfold Published
    rcases hevents with hevents | ⟨_, hevents, -⟩
    · exact hevents ▸ hp
    · rw [hevents]
      exact (List.getElem?_append_left hlt).trans hp
  refine ⟨ha.meets, hbreaker ▸ ha.healthy, fun n envelope he => ?_, fun envelope he hreq => ?_,
    fun i th envelope hi hcall => ?_, ha.thread, fun n hn => ha.started n (hdelivered ▸ hn),
    fun n hn => ha.marked n (hprocessed ▸ hn), ha.fresh, ?_⟩
  · rcases hevents with hevents | ⟨new, hevents, hid, -⟩
    · exact ha.numbered n envelope (hevents ▸ he)
    · rw [show (⟨w, s.threads⟩ : BackendPool).world = w from rfl, hevents] at he
      rcases getElem?_append_singleton he with he | ⟨rfl, rfl⟩
      · exact ha.numbered n envelope he
      · exact hid
  · rcases hevents with hevents | ⟨new, hevents, -, -, hnamed⟩
    · exact ha.named envelope (show s.world.events[envelope.eventId]? = _ from hevents ▸ he) hreq
    · unfold Published at he
      rw [show (⟨w, s.threads⟩ : BackendPool).world = w from rfl, hevents] at he
      rcases getElem?_append_singleton he with he | ⟨-, rfl⟩
      · exact ha.named envelope he hreq
      · exact hnamed hreq
  · obtain ⟨hp, hreq, hd⟩ := ha.handled i th envelope hi hcall
    exact ⟨hpub hp, hreq, hdelivered ▸ hd⟩
  · obtain ⟨answered, hnodup, hmem, hperm⟩ := ha.ledger
    refine ⟨answered, hnodup, fun envelope => ?_, ?_⟩
    · rw [hmem]
      refine ⟨fun ⟨hp, hrest⟩ => ⟨hpub hp, hrest⟩, fun ⟨hp, hreq, hdone⟩ => ?_⟩
      -- Only published events are dispatched.
      obtain ⟨i, th, e, hi, hcall, hid, hover⟩ := hdone
      have hp' := (ha.handled i th e hi hcall).1
      have heq := hpub hp'
      unfold Published at hp heq
      rw [hid] at heq
      cases heq.symm.trans hp
      exact ⟨hp', hreq, i, th, _, hi, hcall, hid, hover⟩
    · have hsame : outcomes w = outcomes s.world := by
        unfold outcomes
        rcases hevents with hevents | ⟨new, hevents, -, houtcome, -⟩
        · rw [hevents]
        · rw [hevents, List.filter_append, List.filter_cons_of_neg (by rw [houtcome]; exact nofun),
            List.filter_nil, List.append_nil]
      rw [show (⟨w, s.threads⟩ : BackendPool).world = w from rfl, hsame]
      exact hperm

/-! ## Runs -/

variable {t : BackendPool} {a : BackendAction}

theorem Answering.step (ha : Answering s) (hs : Sound s)
    (h : (machine cfg haversineKm).Step s a t) : Answering t := by
  cases h with
  | spawn hi hp =>
      obtain ⟨w, hw, heq⟩ := Option.map_eq_some_iff.mp hp
      cases heq
      exact ha.spawn hi hw
  | run hi hr => exact ha.run hs hi (Option.some.inj hr)
  | env hw => exact ha.env hw

end Steps

end Backend

end RydTrip
