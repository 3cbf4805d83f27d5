import RydTrip.DispatchService.Machine

/-!
# Retries and redeliveries of one request

The consumer works on one delivery at a time, and a failed delivery is repeated
from scratch: the next attempt searches again and knows nothing of the key that
an earlier attempt may have won.  A ride has one outcome as long as no attempt
wins a driver other than the one already chosen, and none runs out of candidates
after a driver has been announced.
-/

namespace RydTrip

namespace Dispatch

open Process

/-! ## One outcome -/

/-- The outcomes of a ride agree, and at most one key holds it. -/
structure OneOutcome (w : DispatchHost) : Prop where
  outcomes : ∀ rideId, ∀ o ∈ outcomesFor w rideId, ∀ o' ∈ outcomesFor w rideId, o = o'
  keys : ∀ rideId d d', w.reservations d = some rideId → w.reservations d' = some rideId → d = d'

/-- The branches that go wrong are not taken.  An attempt that wins a driver for
a ride finds no key that holds the ride, and no outcome but the one it is about
to publish.  An attempt that has run out of candidates finds no driver
announced. -/
structure Consistent (s : DispatchPool) (a : DispatchAction) (_ : DispatchPool) : Prop where
  wins : ∀ i o driverId rideId ttlSeconds, a = .run i o →
    s.Issuing i (.tryReserve driverId rideId ttlSeconds) → o.fault.Effective →
    s.world.reservations driverId = none →
    (∀ d, s.world.reservations d ≠ some rideId) ∧
      ∀ outcome ∈ outcomesFor s.world rideId, outcome = .reserved rideId driverId
  rejects : ∀ i o rideId reason correlationId key, a = .run i o →
    s.Issuing i (.publish (.rejected rideId reason) correlationId key) → o.fault.Effective →
    ∀ outcome ∈ outcomesFor s.world rideId, outcome = .rejected rideId reason

/-! ## What an attempt has won -/

/-- A search starts an attempt over, and each try settles what it has won. -/
def attemptOf : (Σ c : Cmd, Reply c) → Option (Option (String × String))
  | ⟨.findNearby .., _⟩ => some none
  | ⟨.tryReserve driverId rideId _, .ok true⟩ => some (some (rideId, driverId))
  | ⟨.tryReserve .., _⟩ => some none
  | _ => none

/-- The ride and the driver that the current attempt has won. -/
def winner (log : DispatchLog) : Option (String × String) := (log.findSome? attemptOf).join

/-- An outcome is published for what the attempt has won. -/
def AttemptAllowed : (c : Cmd) → DispatchLog → Prop
  | .publish (.reserved rideId driverId) .., log => winner log = some (rideId, driverId)
  | .publish (.rejected ..) .., log => winner log = none
  | _, _ => True

/-- The specification of the programs, for any replies. -/
abbrev Attempts (p : DispatchProg Unit) (log : DispatchLog) : Prop :=
  p.Obeys AttemptAllowed (fun _ _ => True) log

section Programs

variable {cfg : Config} {rideId correlationId : String} {log : DispatchLog}

theorem attempts_findNearby {pickup : GeoPoint} {radiusKm : Rat} {limit : Nat}
    {k : List NearbyDriver → DispatchProg Unit}
    (hk : ∀ candidates log', winner log' = none → Attempts (k candidates) log') :
    Attempts (DispatchService.execute .redis
      (DispatchService.findNearby pickup radiusKm limit) >>= k) log := by
  unfold DispatchService.findNearby
  rw [Prog.perform_bind, DispatchService.execute_call]
  refine ⟨trivial, fun invoked _ => ?_⟩
  cases invoked with
  | false => trivial
  | true =>
      refine ⟨trivial, fun res _ => ?_⟩
      cases res with
      | ok candidates => exact ⟨trivial, fun _ _ => hk candidates _ rfl⟩
      | error message => exact ⟨trivial, fun _ _ => trivial⟩

theorem attempts_tryReserve {driverId : String} {ttlSeconds : Nat} {k : Bool → DispatchProg Unit}
    (hlost : ∀ log', winner log' = none → Attempts (k false) log')
    (hwon : ∀ log', winner log' = some (rideId, driverId) → Attempts (k true) log') :
    Attempts (DispatchService.execute .redis
      (DispatchService.tryReserve driverId rideId ttlSeconds) >>= k) log := by
  unfold DispatchService.tryReserve
  rw [Prog.perform_bind, DispatchService.execute_call]
  refine ⟨trivial, fun invoked _ => ?_⟩
  cases invoked with
  | false => trivial
  | true =>
      refine ⟨trivial, fun res _ => ?_⟩
      cases res with
      | error message => exact ⟨trivial, fun _ _ => trivial⟩
      | ok b =>
          cases b with
          | false => exact ⟨trivial, fun _ _ => hlost _ rfl⟩
          | true => exact ⟨trivial, fun _ _ => hwon _ rfl⟩

/-- The sync does not touch what has been won. -/
theorem attempts_syncDriverStatusBestEffort {driverId : String} {k : Unit → DispatchProg Unit}
    (hk : ∀ log', winner log' = winner log → Attempts (k ()) log') :
    Attempts (DispatchService.syncDriverStatusBestEffort driverId >>= k) log := by
  rw [DispatchService.syncDriverStatusBestEffort_eq]
  refine ⟨trivial, fun invoked _ => ?_⟩
  cases invoked with
  | false => exact hk _ rfl
  | true => exact ⟨trivial, fun _ _ => ⟨trivial, fun _ _ => hk _ rfl⟩⟩

theorem attempts_publish {outcome : Outcome} {key : String}
    (h : AttemptAllowed (.publish outcome correlationId key) log) :
    Attempts (DispatchService.publish outcome correlationId key) log := by
  refine ⟨h, fun res _ => ?_⟩
  cases res with
  | ok u => trivial
  | error message => trivial

theorem attempts_reserveFirst {candidates : List NearbyDriver} (hlog : winner log = none) :
    Attempts (DispatchService.reserveFirst cfg rideId correlationId candidates) log := by
  induction candidates generalizing log with
  | nil => exact attempts_publish hlog
  | cons candidate candidates ih =>
      refine attempts_tryReserve (fun log' h => ih h) fun log' h => ?_
      refine attempts_syncDriverStatusBestEffort fun log'' h' => ?_
      exact attempts_publish (h'.trans h)

theorem attempts_handleRideRequested {pickup : GeoPoint} :
    Attempts (DispatchService.handleRideRequested cfg rideId pickup correlationId) log :=
  attempts_findNearby fun _ _ h => attempts_reserveFirst h

theorem attempts_handler {envelope : EventEnvelope} :
    Attempts (RideRequestedConsumer.handler cfg envelope) log := by
  unfold RideRequestedConsumer.handler
  split
  · trivial
  · refine ⟨trivial, fun res _ => ?_⟩
    cases res with
    | error message => trivial
    | ok alreadyProcessed =>
        cases alreadyProcessed with
        | true => trivial
        | false =>
            change Attempts (DispatchService.handleRideRequested cfg _ _ _ >>= _) _
            refine Prog.Obeys.bind attempts_handleRideRequested fun _ log' => ?_
            refine ⟨trivial, fun res _ => ?_⟩
            cases res with
            | ok u => trivial
            | error message => trivial

theorem attempts_prog (call : Call) : Attempts (call.prog cfg) log := by
  cases call with
  | handleRideRequested rideId pickup correlationId => exact attempts_handleRideRequested
  | consume maxAttempts envelope =>
      refine EventConsumer.deliver_obeys (fun _ => attempts_handler) (fun fields log => ?_) log
      refine ⟨trivial, fun res _ => ?_⟩
      cases res with
      | ok u => trivial
      | error message => trivial

end Programs

/-! ## The invariant -/

/-- What the latest thread has won is all that has been published for the ride. -/
def WinnerStands (w : DispatchHost) (log : DispatchLog) : Prop :=
  ∀ rideId driverId, winner log = some (rideId, driverId) →
    ∀ outcome ∈ outcomesFor w rideId, outcome = .reserved rideId driverId

structure Retrying (s : DispatchPool) : Prop where
  one : OneOutcome s.world
  attempts : ∀ i th, s.threads i = some th → Attempts th.prog th.log
  stands : ∀ i th, s.threads i = some th → (∀ j, i < j → s.threads j = none) →
    WinnerStands s.world th.log

section Effects

variable {w w' : DispatchHost} {log : DispatchLog} {rideId driverId : String}

theorem OneOutcome.congr (h : OneOutcome w) (hk : w'.reservations = w.reservations)
    (hp : w'.published = w.published) : OneOutcome w' where
  outcomes r o ho o' ho' := by
    unfold outcomesFor at ho ho'
    rw [hp] at ho ho'
    exact h.outcomes r o ho o' ho'
  keys r d d' hd hd' := by
    rw [hk] at hd hd'
    exact h.keys r d d' hd hd'

theorem WinnerStands.congr (h : WinnerStands w log) (hp : w'.published = w.published) :
    WinnerStands w' log := by
  intro r d hwin o ho
  unfold outcomesFor at ho
  rw [hp] at ho
  exact h r d hwin o ho

/-- A key is won. -/
theorem OneOutcome.reserve (h : OneOutcome w) (hnone : ∀ d, w.reservations d ≠ some rideId) :
    OneOutcome { w with
      reservations := Function.update w.reservations driverId (some rideId) } where
  outcomes := h.outcomes
  keys r d d' hd hd' := by
    rcases update_eq_some hd with ⟨rfl, rfl⟩ | ⟨-, hold⟩
    · rcases update_eq_some hd' with ⟨rfl, -⟩ | ⟨-, hold'⟩
      · rfl
      · exact absurd hold' (hnone d')
    · rcases update_eq_some hd' with ⟨rfl, rfl⟩ | ⟨-, hold'⟩
      · exact absurd hold (hnone d)
      · exact h.keys r d d' hold hold'

/-- An outcome is published that agrees with all that there are. -/
theorem OneOutcome.publish {outcome : Outcome} (h : OneOutcome w)
    (hsame : ∀ o ∈ outcomesFor w outcome.rideId, o = outcome) :
    OneOutcome { w with published := outcome :: w.published } where
  outcomes r o ho o' ho' := by
    obtain ⟨hmem, hr⟩ := mem_outcomesFor.mp ho
    obtain ⟨hmem', hr'⟩ := mem_outcomesFor.mp ho'
    rcases List.mem_cons.mp hmem with rfl | hold
    · rcases List.mem_cons.mp hmem' with rfl | hold'
      · rfl
      · exact (hsame o' (mem_outcomesFor.mpr ⟨hold', hr'.trans hr.symm⟩)).symm
    · rcases List.mem_cons.mp hmem' with rfl | hold'
      · exact hsame o (mem_outcomesFor.mpr ⟨hold, hr.trans hr'.symm⟩)
      · exact h.outcomes r o (mem_outcomesFor.mpr ⟨hold, hr⟩) o' (mem_outcomesFor.mpr ⟨hold', hr'⟩)
  keys := h.keys

/-- An attempt that has won nothing has nothing to stand for. -/
theorem winnerStands_of_none (h : winner log = none) : WinnerStands w log := by
  intro r d hwin
  rw [h] at hwin
  cases hwin

section Issue

variable {o : Oracle} {c : Cmd} {r : Reply c}

/-- One try for a driver. -/
theorem tryReserve_step {ttlSeconds : Nat} {r : Reply (.tryReserve driverId rideId ttlSeconds)}
    (hone : OneOutcome w)
    (hwins : o.fault.Effective → w.reservations driverId = none →
      (∀ d, w.reservations d ≠ some rideId) ∧
        ∀ outcome ∈ outcomesFor w rideId, outcome = .reserved rideId driverId)
    (h : w.exec o (.tryReserve driverId rideId ttlSeconds) = (r, w')) :
    OneOutcome w' ∧ WinnerStands w' (⟨.tryReserve driverId rideId ttlSeconds, r⟩ :: log) := by
  have hw' : (w.exec o (.tryReserve driverId rideId ttlSeconds)).2 = w' := by rw [h]
  have hr : (w.exec o (.tryReserve driverId rideId ttlSeconds)).1 = r := by rw [h]
  rcases o.fault.settle_cases w (w.reserve driverId rideId).1 (w.reserve driverId rideId).2 with
    ⟨message, herr⟩ | ⟨heff, hafter, hreply⟩
  · cases herr.symm.trans h
    exact ⟨hone, winnerStands_of_none rfl⟩
  · have hsame : w' = (w.reserve driverId rideId).2 := hw'.symm.trans hafter
    cases hkey : w.reservations driverId with
    | some held =>
        simp only [DispatchHost.reserve, hkey] at hsame
        refine ⟨hsame ▸ hone, winnerStands_of_none ?_⟩
        cases r with
        | error message => rfl
        | ok b =>
            have hb : b = (w.reserve driverId rideId).1 := hreply b hr
            simp only [DispatchHost.reserve, hkey] at hb
            subst hb
            rfl
    | none =>
        obtain ⟨hfree, hout⟩ := hwins heff hkey
        simp only [DispatchHost.reserve, hkey] at hsame
        subst hsame
        refine ⟨hone.reserve hfree, ?_⟩
        cases r with
        | error message => exact winnerStands_of_none rfl
        | ok b =>
            cases b with
            | false => exact winnerStands_of_none rfl
            | true =>
                intro rideId' driverId' hwin
                cases hwin
                exact hout

/-- One publish. -/
theorem publish_step {outcome : Outcome} {correlationId key : String}
    {r : Reply (.publish outcome correlationId key)} (hone : OneOutcome w)
    (hallowed : AttemptAllowed (.publish outcome correlationId key) log)
    (hstands : WinnerStands w log)
    (hrejects : ∀ rideId reason, outcome = .rejected rideId reason → o.fault.Effective →
      ∀ outcome ∈ outcomesFor w rideId, outcome = .rejected rideId reason)
    (h : w.exec o (.publish outcome correlationId key) = (r, w')) :
    OneOutcome w' ∧ WinnerStands w' (⟨.publish outcome correlationId key, r⟩ :: log) := by
  have hw' : (w.exec o (.publish outcome correlationId key)).2 = w' := by rw [h]
  rcases o.fault.settle_cases w () { w with published := outcome :: w.published } with
    ⟨message, herr⟩ | ⟨heff, hafter, -⟩
  · cases herr.symm.trans h
    exact ⟨hone, hstands⟩
  · cases hw'.symm.trans hafter
    cases outcome with
    | reserved rideId driverId =>
        have hout := hstands rideId driverId hallowed
        refine ⟨hone.publish hout, fun rideId' driverId' hwin o' ho' => ?_⟩
        have heq : some (rideId', driverId') = some (rideId, driverId) := hwin.symm.trans hallowed
        cases heq
        obtain ⟨hmem, hride⟩ := mem_outcomesFor.mp ho'
        rcases List.mem_cons.mp hmem with rfl | hold
        · rfl
        · exact hout o' (mem_outcomesFor.mpr ⟨hold, hride⟩)
    | rejected rideId reason =>
        exact ⟨hone.publish (hrejects rideId reason rfl heff), winnerStands_of_none hallowed⟩

/-- One command of the latest thread. -/
theorem issue_step (hone : OneOutcome w) (hallowed : AttemptAllowed c log)
    (hstands : WinnerStands w log)
    (hwins : ∀ driverId rideId ttlSeconds, c = .tryReserve driverId rideId ttlSeconds →
      o.fault.Effective → w.reservations driverId = none →
      (∀ d, w.reservations d ≠ some rideId) ∧
        ∀ outcome ∈ outcomesFor w rideId, outcome = .reserved rideId driverId)
    (hrejects : ∀ rideId reason correlationId key,
      c = .publish (.rejected rideId reason) correlationId key → o.fault.Effective →
      ∀ outcome ∈ outcomesFor w rideId, outcome = .rejected rideId reason)
    (h : w.exec o c = (r, w')) : OneOutcome w' ∧ WinnerStands w' (⟨c, r⟩ :: log) := by
  have hframe (hk : ∀ d r' ttl, c ≠ .tryReserve d r' ttl)
      (hp : ∀ outcome correlationId key, c ≠ .publish outcome correlationId key) :
      w'.reservations = w.reservations ∧ w'.published = w.published := by
    have h₁ := reservations_exec o w hk
    have h₂ := published_exec o w hp
    rw [h] at h₁ h₂
    exact ⟨h₁, h₂⟩
  have hother (hk : ∀ d r' ttl, c ≠ .tryReserve d r' ttl)
      (hp : ∀ outcome correlationId key, c ≠ .publish outcome correlationId key)
      (hlog : winner (⟨c, r⟩ :: log) = winner log ∨ winner (⟨c, r⟩ :: log) = none) :
      OneOutcome w' ∧ WinnerStands w' (⟨c, r⟩ :: log) := by
    obtain ⟨hkeys, hpub⟩ := hframe hk hp
    refine ⟨hone.congr hkeys hpub, ?_⟩
    rcases hlog with hlog | hlog
    · intro rideId driverId hwin
      rw [hlog] at hwin
      exact hstands.congr hpub rideId driverId hwin
    · exact winnerStands_of_none hlog
  cases c with
  | tryReserve driverId rideId ttl => exact tryReserve_step hone (hwins _ _ _ rfl) h
  | publish outcome correlationId key =>
      refine publish_step hone hallowed hstands (fun rideId reason heq => ?_) h
      subst heq
      exact hrejects rideId reason correlationId key rfl
  | findNearby pickup radiusKm limit => exact hother nofun nofun (.inr rfl)
  | enter b => exact hother nofun nofun (.inl rfl)
  | settle b success => exact hother nofun nofun (.inl rfl)
  | patch driverId status => exact hother nofun nofun (.inl rfl)
  | wasProcessed consumerName eventId => exact hother nofun nofun (.inl rfl)
  | markProcessed consumerName eventId => exact hother nofun nofun (.inl rfl)
  | park fields => exact hother nofun nofun (.inl rfl)

end Issue

end Effects

/-! ## Runs -/

section Runs

variable {cfg : Config} {s t : DispatchPool} {a : DispatchAction}

theorem oneOutcome_empty : OneOutcome .empty where
  outcomes rideId o ho := by cases ho
  keys rideId d d' hd := by cases hd

theorem retrying_start {w : DispatchHost} (hw : OneOutcome w) : Retrying (initial w) where
  one := hw
  attempts i th h := by cases h
  stands i th h := by cases h

theorem retrying_step (hs : Retrying s) (hturn : InTurn s a) (hcons : Consistent s a t)
    (hstep : (machine cfg).Step s a t) : Retrying t := by
  have hattempts : ∀ i th, t.threads i = some th → Attempts th.prog th.log :=
    Machine.obeys_step (P := fun _ => AttemptAllowed)
      (fun _ call _ _ _ _ hstart => by cases hstart; exact attempts_prog call)
      (fun _ _ _ _ _ _ _ => trivial) hs.attempts hstep
  cases hstep with
  | @spawn i call p w' hi hp =>
      cases hp
      refine ⟨hs.one, hattempts, fun j th hj hlast => ?_⟩
      rcases update_eq_some hj with ⟨rfl, rfl⟩ | ⟨hij, hj⟩
      · exact winnerStands_of_none rfl
      · exact hs.stands j th hj fun l hl => (update_eq_none (hlast l hl)).2
  | @run i o call c k log r w' hi hr =>
      have hexec : s.world.exec o c = (r, w') := Option.some.inj hr
      obtain ⟨hone, hstands⟩ := issue_step hs.one (hs.attempts i _ hi).1 (hs.stands i _ hi hturn)
        (fun d r' ttl hc => hcons.wins i o d r' ttl rfl ⟨call, hc ▸ k, log, by subst hc; exact hi⟩)
        (fun r' reason cid key hc =>
          hcons.rejects i o r' reason cid key rfl ⟨call, hc ▸ k, log, by subst hc; exact hi⟩) hexec
      refine ⟨hone, hattempts, fun j th hj hlast => ?_⟩
      rcases update_eq_some hj with ⟨rfl, rfl⟩ | ⟨hij, hj⟩
      · exact hstands
      · -- a thread other than the one that runs is not the latest
        exfalso
        rcases Nat.lt_or_gt_of_ne hij with hlt | hgt
        · exact (update_eq_none (hlast i hlt)).1 rfl
        · have hnone := hturn j hgt
          rw [hj] at hnone
          cases hnone
  | @env e w' hw =>
      cases hw
      cases e with
      | tick => exact ⟨hs.one.congr rfl rfl, hattempts, hs.stands⟩
      | expireProcessed consumerName eventId => exact ⟨hs.one.congr rfl rfl, hattempts, hs.stands⟩
      | expireReservation driverId =>
          refine ⟨⟨hs.one.outcomes, fun r d d' hd hd' => ?_⟩, hattempts, hs.stands⟩
          have hold {d : String}
              (h : Function.update s.world.reservations driverId none d = some r) :
              s.world.reservations d = some r := by
            by_cases hdd : d = driverId
            · rw [hdd, Function.update_self] at h
              cases h
            · rwa [Function.update_of_ne hdd] at h
          exact hs.one.keys r d d' (hold hd) (hold hd')

/-- In a run of the consumer, with any faults and any expiries, a ride keeps one
outcome as long as retries stay consistent with what earlier attempts left. -/
theorem oneOutcome_of_consistent {w : DispatchHost} {acts : List DispatchAction}
    (hw : OneOutcome w) (hrun : (machine cfg).run (initial w) acts = some s)
    (hturns : (turns acts).Pairwise (· ≤ ·))
    (hcons : (machine cfg).Along Consistent (initial w) acts) : OneOutcome s.world := by
  have hturn : (machine cfg).Along (fun s a _ => InTurn s a) (initial w) acts :=
    Machine.along_inTurn hturns fun i th h => by cases h
  have hinv : Retrying s := Machine.run_invariant (retrying_start hw)
    (fun _ _ _ hs hP hstep => retrying_step hs hP.1 hP.2 hstep) hrun (hturn.and hcons)
  exact hinv.one

end Runs

/-! ## Two runs -/

/-- `ride.requested` for the ride `r`. -/
def requestedEnvelope : EventEnvelope where
  eventId := 0
  eventType := .rideRequested
  correlationId := "c"
  payload := some { Payload.empty with rideId := some "r", pickup := some ⟨0, 0⟩ }

def foundNobody : Oracle := {}

def found (driverIds : List String) : Oracle :=
  { candidates := driverIds.map fun driverId => ⟨driverId, 0, 0, 1⟩ }

/-- The next command of the thread neither tries for a driver nor publishes a
rejection. -/
def harmless (s : DispatchPool) : DispatchAction → Bool
  | .run i o =>
      match s.threads i with
      | some ⟨_, .call (.tryReserve ..) _, _⟩ => false
      | some ⟨_, .call (.publish (.rejected ..) ..) _, _⟩ => o.fault.isRefused
      | _ => true
  | _ => true

theorem consistent_of_harmless {s t : DispatchPool} {a : DispatchAction}
    (h : harmless s a = true) : Consistent s a t where
  wins i o driverId rideId ttlSeconds ha hissue _ _ := by
    obtain ⟨call, k, log, hi⟩ := hissue
    subst ha
    simp [harmless, hi] at h
  rejects i o rideId reason correlationId key ha hissue heff := by
    obtain ⟨call, k, log, hi⟩ := hissue
    subst ha
    have hrefused : o.fault.isRefused = true := by simpa [harmless, hi] using h
    rw [heff] at hrefused
    cases hrefused

/-- The first attempt finds nobody and its publish fails, the second one finds a
driver. -/
def searchAgain : List DispatchAction :=
  [.spawn 0 (.consume 3 requestedEnvelope), .run 0 {}, .run 0 {}, .run 0 foundNobody, .run 0 {},
    .run 0 { fault := .refused "broker down" }, .run 0 {}, .run 0 {}, .run 0 (found ["d"]),
    .run 0 {}, .run 0 {}]

/-- The try for the driver and what follows it. -/
def winAndPublish : List DispatchAction := .run 0 {} :: .replicate 6 (.run 0 {})

theorem oneOutcome_searchAgain : ∃ s, (machine .defaults).run (initial .empty)
      (searchAgain ++ winAndPublish) = some s ∧
    s.world.published = [.reserved "r" "d"] ∧ OneOutcome s.world := by
  have hcons : (machine .defaults).Along Consistent (initial .empty)
      (searchAgain ++ winAndPublish) := by
    refine Machine.Along.append (Machine.along_of_checks (p := harmless)
      (fun _ _ _ => consistent_of_harmless) rfl) fun u hu => ?_
    cases hu
    intro t ht
    cases ht
    refine ⟨⟨fun _ _ _ _ _ _ _ _ _ => ⟨nofun, nofun⟩, ?_⟩,
      Machine.along_of_checks (p := harmless) (fun _ _ _ => consistent_of_harmless) rfl⟩
    rintro _ _ _ _ _ _ ⟨⟩ ⟨_, _, _, hi⟩
    cases hi
  exact ⟨_, rfl, rfl, oneOutcome_of_consistent oneOutcome_empty rfl (by decide) hcons⟩

/-- The driver is announced, then the `processed` key cannot be set.  The retry
loses the driver to its own ride and wins the next one. -/
def markRefused : List DispatchAction :=
  [.spawn 0 (.consume 3 requestedEnvelope), .run 0 {}, .run 0 {}, .run 0 (found ["d1", "d2"])] ++
    .replicate 8 (.run 0 {}) ++
    [.run 0 { fault := .refused "connection closed" }, .run 0 {}, .run 0 {},
      .run 0 (found ["d1", "d2"])] ++ .replicate 12 (.run 0 {})

theorem not_oneOutcome_markRefused : ∃ s, (machine .defaults).run (initial .empty)
      markRefused = some s ∧ (turns markRefused).Pairwise (· ≤ ·) ∧
    s.world.published = [.reserved "r" "d2", .reserved "r" "d1"] ∧
    s.world.reservations "d1" = some "r" ∧ s.world.reservations "d2" = some "r" ∧
    ¬ OneOutcome s.world := by
  refine ⟨_, rfl, by decide, rfl, rfl, rfl, fun h => ?_⟩
  have hone := h.outcomes "r" (.reserved "r" "d2") (by decide) (.reserved "r" "d1") (by decide)
  exact absurd hone (by decide)

end Dispatch

end RydTrip
