import RydTrip.RedisClient.GeoIndex

/-!
# A heartbeat makes a driver findable

A search takes a driver for stale in one round trip and removes it in a later
one.  An update that lands in between is lost: its heartbeat is alive and the
driver is not in the set.  Without such an overlap, and without an `EXISTS` that
fails on a key that is alive, a driver stays in the set for as long as its
heartbeat lasts.
-/

namespace RydTrip

namespace GeoIndex

open Process

/-! ## Overlaps -/

/-- The search has found the driver stale: `EXISTS` gave 0 or an error, or
`GEOPOS` gave no position. -/
def Marks (log : GeoLog) (driverId : String) : Prop :=
  (∃ result, ⟨.exists driverId, result⟩ ∈ log ∧ DriverGeoIndex.existsOrZero result = 0) ∨
    ∃ driverIds positions, ⟨.geopos driverIds, .ok positions⟩ ∈ log ∧
      (driverId, none) ∈ driverIds.zip positions

/-- The driver whose position a call updates. -/
def Call.driver : Call → Option String
  | .upsertLocation driverId .. => some driverId
  | _ => none

/-- The driver whose position or heartbeat a command refreshes. -/
def Cmd.updates : Cmd → Option String
  | .geoadd _ _ driverId => some driverId
  | .hset driverId .. => some driverId
  | .expire driverId _ => some driverId
  | _ => none

/-- An update of the driver has begun and has not ended. -/
def UnderWay (s : GeoPool) (driverId : String) : Prop :=
  ∃ i th, s.threads i = some th ∧ th.call.driver = some driverId ∧ th.Live ∧ th.log ≠ []

/-- No update of a driver overlaps a search that finds the driver stale, and
`EXISTS` only fails on keys that are gone. -/
structure NoOverlap (s : GeoPool) (a : GeoAction) (_ : GeoPool) : Prop where
  updates : ∀ i o c driverId, a = .run i o → s.Issuing i c → c.updates = some driverId →
    ∀ j th, s.threads j = some th → th.Live → ¬ Marks th.log driverId
  stale : ∀ i o driverId, a = .run i o → s.Issuing i (.exists driverId) →
    (o.fault ≠ .none → s.world.lookup driverId = none) ∧
      (s.world.lookup driverId = none → ¬ UnderWay s driverId)
  missing : ∀ i o driverIds driverId, a = .run i o → s.Issuing i (.geopos driverIds) →
    driverId ∈ driverIds → s.world.geo driverId = none → ¬ UnderWay s driverId

/-! ## What the programs do -/

/-- An update issues commands for its own driver, the position first.  A search
removes what it has found stale. -/
def Allowed (call : Call) : (c : Cmd) → GeoLog → Prop
  | .geoadd _ _ driverId, _ => call.driver = some driverId
  | .hset driverId .., log => call.driver = some driverId ∧ log ≠ []
  | .expire driverId _, log => call.driver = some driverId ∧ log ≠ []
  | .zrem driverIds, log => call.driver = none ∧ ∀ driverId ∈ driverIds, Marks log driverId
  | _, _ => call.driver = none

abbrev Meets (call : Call) {α : Type} (p : GeoProg α) (log : GeoLog) : Prop :=
  p.Obeys (Allowed call) (fun _ _ => True) log

theorem Marks.mono {log log' : GeoLog} {driverId : String} (h : Marks log driverId)
    (hsub : ∀ e ∈ log, e ∈ log') : Marks log' driverId := by
  rcases h with ⟨result, hmem, hzero⟩ | ⟨driverIds, positions, hmem, hnone⟩
  · exact .inl ⟨result, hsub _ hmem, hzero⟩
  · exact .inr ⟨driverIds, positions, hsub _ hmem, hnone⟩

section Programs

variable {call : Call} {log : GeoLog}

theorem meets_stalenessPipeline {β : Type} {driverIds : List String}
    {k : List (Except String Nat) → GeoProg β} (hcall : call.driver = none)
    (hk : ∀ results log', (∀ e ∈ log, e ∈ log') →
      (∀ driverId result, (driverId, result) ∈ driverIds.zip results →
        ⟨.exists driverId, result⟩ ∈ log') → Meets call (k results) log') :
    Meets call (DriverGeoIndex.stalenessPipeline driverIds >>= k) log := by
  induction driverIds generalizing log k with
  | nil => exact hk [] log (fun _ h => h) (fun _ _ h => by cases h)
  | cons driverId driverIds ih =>
      refine ⟨hcall, fun result _ => ?_⟩
      change Meets call ((DriverGeoIndex.stalenessPipeline driverIds >>= fun results =>
        pure (result :: results)) >>= k) _
      rw [Prog.bind_bind]
      refine ih fun results log' hsub hres => hk (result :: results) log' ?_ ?_
      · exact fun e he => hsub e (.tail _ he)
      · intro d r hmem
        rcases List.mem_cons.mp hmem with heq | hmem
        · cases heq
          exact hsub _ (.head _)
        · exact hres d r hmem

theorem meets_evict {driverIds : List String} (hcall : call.driver = none)
    (hmarks : ∀ driverId ∈ driverIds, Marks log driverId) :
    Meets call (DriverGeoIndex.evict driverIds) log := by
  unfold DriverGeoIndex.evict
  split
  · refine ⟨⟨hcall, hmarks⟩, fun result _ => ?_⟩
    cases result with
    | ok found => trivial
    | error message => trivial
  · trivial

theorem meets_upsertLocation {driverId : String} {lat lng : Rat} {ttl updatedAt : Nat}
    (hcall : call.driver = some driverId) :
    Meets call (DriverGeoIndex.upsertLocation driverId lat lng ttl updatedAt) log :=
  ⟨hcall, fun _ _ => ⟨⟨hcall, nofun⟩, fun _ _ => ⟨⟨hcall, nofun⟩, fun _ _ => trivial⟩⟩⟩

theorem meets_findNearby {lat lng radiusKm : Rat} {limit : Nat} (hcall : call.driver = none) :
    Meets call (DriverGeoIndex.findNearby lat lng radiusKm limit) log := by
  refine ⟨hcall, fun result _ => ?_⟩
  cases result with
  | error message => trivial
  | ok raw =>
      change Meets call (if raw.length = 0 then _ else _) _
      split
      · trivial
      · refine meets_stalenessPipeline hcall fun results log' _ hres => ?_
        refine Prog.Obeys.bind (meets_evict hcall fun driverId hmem => ?_) fun _ _ => trivial
        obtain ⟨⟨candidate, result⟩, hfil, rfl⟩ := List.mem_map.mp hmem
        obtain ⟨hzip, hzero⟩ := List.mem_filter.mp hfil
        refine .inl ⟨result, hres _ _ ?_, of_decide_eq_true hzero⟩
        rw [List.zip_map_left]
        exact List.mem_map.mpr ⟨_, hzip, rfl⟩

theorem mem_zip_zip {α β l : Type} {as : List α} {bs : List β} {cs : List l} {a : α} {b : β}
    {c : l} (h : (a, b, c) ∈ as.zip (bs.zip cs)) : (a, b) ∈ as.zip bs ∧ (a, c) ∈ as.zip cs := by
  induction as generalizing bs cs with
  | nil => cases h
  | cons a' as ih =>
      cases bs with
      | nil => cases h
      | cons b' bs =>
          cases cs with
          | nil => cases h
          | cons c' cs =>
              rcases List.mem_cons.mp h with heq | h
              · cases heq
                exact ⟨.head _, .head _⟩
              · obtain ⟨hb, hc⟩ := ih h
                exact ⟨.tail _ hb, .tail _ hc⟩

theorem meets_findAnyOnline {limit : Nat} (hcall : call.driver = none) :
    Meets call (DriverGeoIndex.findAnyOnline limit) log := by
  refine ⟨hcall, fun result _ => ?_⟩
  cases result with
  | error message => trivial
  | ok memberIds =>
      change Meets call (if memberIds.length = 0 then _ else _) _
      split
      · trivial
      · refine ⟨hcall, fun result _ => ?_⟩
        cases result with
        | error message => trivial
        | ok positions =>
            refine meets_stalenessPipeline hcall fun results log' hsub hres => ?_
            refine Prog.Obeys.bind (meets_evict hcall fun driverId hmem => ?_) fun _ _ => trivial
            obtain ⟨⟨d, pos, result⟩, hfil, rfl⟩ := List.mem_map.mp hmem
            obtain ⟨hzip, hor⟩ := List.mem_filter.mp hfil
            obtain ⟨hpos, hresult⟩ := mem_zip_zip hzip
            rcases of_decide_eq_true hor with hzero | hnone
            · exact .inl ⟨result, hres _ _ hresult, hzero⟩
            · cases hnone
              exact .inr ⟨memberIds, positions, hsub _ (.head _), hpos⟩

theorem meets_prog (call : Call) (now : Nat) : Meets call (call.prog now) log := by
  cases call with
  | upsertLocation driverId lat lng ttl =>
      exact Prog.Obeys.bind (meets_upsertLocation rfl) fun _ _ => trivial
  | isStale driverId =>
      refine ⟨rfl, fun result _ => ?_⟩
      cases result with
      | ok found => trivial
      | error message => trivial
  | findNearby lat lng radiusKm limit =>
      exact Prog.Obeys.bind (meets_findNearby rfl) fun _ _ => trivial
  | findAnyOnline limit => exact Prog.Obeys.bind (meets_findAnyOnline rfl) fun _ _ => trivial

end Programs

/-! ## What commands change -/

section Effects

variable (o : Oracle) (w : GeoHost) {c : Cmd} {driverId : String}

/-- A command fails without effect, or it is carried out and any reply is right. -/
theorem exec_cases (c : Cmd) : (∃ message, w.exec o c = (.error message, w)) ∨
    ((w.exec o c).2 = (w.answer o c).2 ∧
      ∀ v, (w.exec o c).1 = .ok v → v = (w.answer o c).1) := by
  rcases o.fault.settle_cases w (w.answer o c).1 (w.answer o c).2 with h | ⟨-, hafter, hreply⟩
  · exact .inl h
  · exact .inr ⟨hafter, hreply⟩

theorem lookup_setState (d : String) (key : Option StateKey) (h : driverId ≠ d) :
    (w.setState d key).lookup driverId = w.lookup driverId := by
  have hstate : (w.setState d key).state driverId = w.state driverId := Function.update_of_ne h ..
  unfold GeoHost.lookup
  rw [hstate]
  rfl

/-- Only the updates of a driver touch its heartbeat. -/
theorem lookup_exec (h : c.updates ≠ some driverId) :
    (w.exec o c).2.lookup driverId = w.lookup driverId := by
  rcases exec_cases o w c with ⟨message, herr⟩ | ⟨hafter, -⟩
  · rw [herr]
  · rw [hafter]
    cases c with
    | hset d lat lng updatedAt => exact lookup_setState w d _ fun hd => h (congrArg some hd.symm)
    | expire d seconds =>
        change (w.expire d seconds).2.lookup driverId = _
        unfold GeoHost.expire
        split
        · rfl
        · exact lookup_setState w d _ fun hd => h (congrArg some hd.symm)
    | _ => rfl

theorem geo_expire (d : String) (seconds : Nat) : (w.expire d seconds).2.geo = w.geo := by
  unfold GeoHost.expire
  split
  · rfl
  · rfl

/-- A driver is only moved by its own updates, and only removed by a `ZREM` that
names it. -/
theorem geo_exec (h : c.updates ≠ some driverId) :
    (w.exec o c).2.geo driverId = w.geo driverId ∨
      ∃ driverIds, c = .zrem driverIds ∧ driverId ∈ driverIds := by
  rcases exec_cases o w c with ⟨message, herr⟩ | ⟨hafter, -⟩
  · rw [herr]
    exact .inl rfl
  · rw [hafter]
    cases c with
    | geoadd lng lat d =>
        exact .inl (Function.update_of_ne (fun hd => h (congrArg some hd.symm)) ..)
    | zrem ds =>
        by_cases hd : driverId ∈ ds
        · exact .inr ⟨ds, rfl, hd⟩
        · exact .inl (if_neg hd)
    | expire d seconds => exact .inl (congrFun (geo_expire w d seconds) driverId)
    | _ => exact .inl rfl

/-- Commands add drivers only through their own updates. -/
theorem geo_none_exec (h : c.updates ≠ some driverId) (hnone : w.geo driverId = none) :
    (w.exec o c).2.geo driverId = none := by
  rcases exec_cases o w c with ⟨message, herr⟩ | ⟨hafter, -⟩
  · rw [herr]
    exact hnone
  · cases c with
    | zrem ds =>
        rw [hafter]
        change (if driverId ∈ ds then none else w.geo driverId) = none
        rw [hnone, ite_self]
    | _ =>
        rcases geo_exec o w h with hsame | ⟨ds, hc, -⟩
        · rw [hsame, hnone]
        · cases hc

/-- An update does not remove its driver. -/
theorem geo_update (h : c.updates = some driverId) (hgeo : w.geo driverId ≠ none) :
    (w.exec o c).2.geo driverId ≠ none := by
  rcases exec_cases o w c with ⟨message, herr⟩ | ⟨hafter, -⟩
  · rw [herr]
    exact hgeo
  · rw [hafter]
    cases c with
    | geoadd lng lat d =>
        cases h
        simp [GeoHost.answer, GeoHost.geoadd]
    | hset d lat lng updatedAt => exact hgeo
    | expire d seconds =>
        change (w.expire d seconds).2.geo driverId ≠ none
        rw [geo_expire]
        exact hgeo
    | _ => cases h

/-- A `GEOADD` that succeeds adds its driver. -/
theorem geo_geoadd {lng lat : Rat} {added : Nat}
    (h : (w.exec o (.geoadd lng lat driverId)).1 = .ok added) :
    (w.exec o (.geoadd lng lat driverId)).2.geo driverId ≠ none := by
  rcases exec_cases o w (.geoadd lng lat driverId) with ⟨message, herr⟩ | ⟨hafter, -⟩
  · rw [herr] at h
    cases h
  · rw [hafter]
    simp [GeoHost.answer, GeoHost.geoadd]

/-- `EXISTS` that gives 0 or fails, on a server that only fails for keys that are
gone. -/
theorem lookup_of_existsOrZero (hfault : o.fault ≠ .none → w.lookup driverId = none)
    (h : DriverGeoIndex.existsOrZero (w.exec o (.exists driverId)).1 = 0) :
    w.lookup driverId = none := by
  by_cases hnone : o.fault = .none
  · simp only [GeoHost.exec, GeoHost.answer, hnone, Fault.settle_none,
      DriverGeoIndex.existsOrZero] at h
    cases hlook : w.lookup driverId with
    | none => rfl
    | some key => simp [hlook] at h
  · exact hfault hnone

/-- A heartbeat that has ended does not come back by itself. -/
theorem lookup_later {w : GeoHost} {driverId : String} (h : w.lookup driverId = none) :
    GeoHost.lookup { w with now := w.now + 1 } driverId = none := by
  unfold GeoHost.lookup at *
  rw [Option.filter_eq_none_iff] at *
  intro key hkey
  have hdead := h key hkey
  cases hexp : key.expiresAt with
  | none => simp [hexp] at hdead
  | some expiresAt =>
      simp only [hexp, Option.all_some, decide_eq_true_eq, Nat.not_lt] at hdead ⊢
      omega

theorem mem_zip_map {α β : Type} {as : List α} {f : α → β} {a : α} {b : β}
    (h : (a, b) ∈ as.zip (as.map f)) : a ∈ as ∧ b = f a := by
  induction as with
  | nil => cases h
  | cons a' as ih =>
      rcases List.mem_cons.mp h with heq | h
      · cases heq
        exact ⟨.head _, rfl⟩
      · exact ⟨.tail _ (ih h).1, (ih h).2⟩

/-- `GEOPOS` gives no position for drivers that are not in the set. -/
theorem geo_of_missing {driverIds : List String} {positions : List (Option GeoPoint)}
    (h : (w.exec o (.geopos driverIds)).1 = .ok positions)
    (hmem : (driverId, none) ∈ driverIds.zip positions) :
    driverId ∈ driverIds ∧ w.geo driverId = none := by
  rcases exec_cases o w (.geopos driverIds) with ⟨message, herr⟩ | ⟨-, hreply⟩
  · rw [herr] at h
    cases h
  · have hpos : positions = driverIds.map w.geo := hreply positions h
    subst hpos
    obtain ⟨hd, hnone⟩ := mem_zip_map hmem
    exact ⟨hd, hnone.symm⟩

end Effects

/-! ## The invariant -/

/-- The commands of an update succeeded so far. -/
def Succeeded (log : GeoLog) : Prop := ∀ e ∈ log, ∃ v, e.2 = .ok v

structure Fresh (s : GeoPool) : Prop where
  meets : ∀ i th, s.threads i = some th → Meets th.call th.prog th.log
  /-- What a search has found stale is gone, and nobody is bringing it back. -/
  marked : ∀ j th driverId, s.threads j = some th → th.Live → Marks th.log driverId →
    ¬ UnderWay s driverId ∧
      (s.world.lookup driverId = none ∨ s.world.geo driverId = none)
  /-- An update that has begun well has its driver in the set. -/
  added : ∀ i th driverId, s.threads i = some th → th.call.driver = some driverId → th.Live →
    th.log ≠ [] → Succeeded th.log → s.world.geo driverId ≠ none

section Steps

variable {s t : GeoPool} {a : GeoAction} {i : Nat} {o : Oracle} {call : Call} {c : Cmd}
  {k : Reply c → GeoProg Response} {log : GeoLog} {driverId : String}

/-- A thread that updates a driver issues updates of this driver only. -/
theorem updates_of_allowed (h : Allowed call c log) (hcall : call.driver = some driverId) :
    c.updates = some driverId := by
  cases c with
  | geoadd lng lat d => exact (h.symm.trans hcall : _)
  | hset d lat lng updatedAt => exact (h.1.symm.trans hcall : _)
  | expire d seconds => exact (h.1.symm.trans hcall : _)
  | zrem ds =>
      rw [h.1] at hcall
      cases hcall
  | _ =>
      have hnone : call.driver = none := h
      rw [hnone] at hcall
      cases hcall

/-- An update that goes well leaves its driver in the set. -/
theorem Fresh.geo_of_issue (hs : Fresh s) (hi : s.threads i = some ⟨call, .call c k, log⟩)
    (hcall : call.driver = some driverId)
    (hok : Succeeded (⟨c, (s.world.exec o c).1⟩ :: log)) :
    (s.world.exec o c).2.geo driverId ≠ none := by
  have hallowed : Allowed call c log := (hs.meets i _ hi).1
  have hupdates : c.updates = some driverId := updates_of_allowed hallowed hcall
  by_cases hlog : log = []
  · cases c with
    | geoadd lng lat d =>
        cases hupdates
        obtain ⟨v, hv⟩ := hok _ (.head _)
        exact geo_geoadd o s.world hv
    | hset d lat lng updatedAt => exact absurd hlog hallowed.2
    | expire d seconds => exact absurd hlog hallowed.2
    | _ => cases hupdates
  · refine geo_update o s.world hupdates ?_
    exact hs.added i _ driverId hi hcall ⟨c, k, rfl⟩ hlog fun e he => hok e (.tail _ he)

/-- A command keeps a driver in the set unless its call has marked the driver. -/
theorem Fresh.geo_of_unmarked (hs : Fresh s) (hi : s.threads i = some ⟨call, .call c k, log⟩)
    (hnot : ¬ Marks log driverId) (hgeo : s.world.geo driverId ≠ none) :
    (s.world.exec o c).2.geo driverId ≠ none := by
  by_cases hupdates : c.updates = some driverId
  · exact geo_update o s.world hupdates hgeo
  · rcases geo_exec o s.world hupdates with hsame | ⟨ds, rfl, hd⟩
    · rw [hsame]
      exact hgeo
    · exact absurd ((hs.meets i _ hi).1.2 driverId hd) hnot

/-- A command keeps a driver that is being updated. -/
theorem Fresh.geo_of_underWay (hs : Fresh s) (hi : s.threads i = some ⟨call, .call c k, log⟩)
    (hway : UnderWay s driverId) (hgeo : s.world.geo driverId ≠ none) :
    (s.world.exec o c).2.geo driverId ≠ none := by
  refine hs.geo_of_unmarked hi (fun hmarks => ?_) hgeo
  exact absurd hway (hs.marked i _ driverId hi ⟨_, _, rfl⟩ hmarks).1

/-- An update under way after a command was under way before, or the command is
one of its own. -/
theorem underWay_of_run {w : GeoHost} {r : Reply c} (hmeets : Meets call (.call c k) log)
    (hi : s.threads i = some ⟨call, .call c k, log⟩)
    (h : UnderWay ⟨w, Function.update s.threads i (some ⟨call, k r, ⟨c, r⟩ :: log⟩)⟩ driverId) :
    UnderWay s driverId ∨ c.updates = some driverId := by
  obtain ⟨j, th, hj, hdriver, hlive, hlog⟩ := h
  rcases update_eq_some hj with ⟨rfl, rfl⟩ | ⟨-, hj⟩
  · exact .inr (updates_of_allowed hmeets.1 hdriver)
  · exact .inl ⟨j, th, hj, hdriver, hlive, hlog⟩

/-- A call that starts is not yet under way. -/
theorem underWay_of_spawn {w : GeoHost} {p : GeoProg Response}
    (h : UnderWay ⟨w, Function.update s.threads i (some ⟨call, p, []⟩)⟩ driverId) :
    UnderWay s driverId := by
  obtain ⟨j, th, hj, hdriver, hlive, hlog⟩ := h
  rcases update_eq_some hj with ⟨-, rfl⟩ | ⟨-, hj⟩
  · exact absurd rfl hlog
  · exact ⟨j, th, hj, hdriver, hlive, hlog⟩

theorem not_marks_nil : ¬ Marks [] driverId := by
  rintro (⟨_, hmem, -⟩ | ⟨_, _, hmem, -⟩)
  · cases hmem
  · cases hmem

/-- What a command newly finds stale is gone, and nobody is updating it. -/
theorem newly_marked {r : Reply c} {w : GeoHost} (hno : NoOverlap s (.run i o) t)
    (hi : s.threads i = some ⟨call, .call c k, log⟩) (hexec : s.world.exec o c = (r, w))
    (hmarks : Marks (⟨c, r⟩ :: log) driverId) :
    Marks log driverId ∨ (c.updates ≠ some driverId ∧ ¬ UnderWay s driverId ∧
      (s.world.lookup driverId = none ∨ s.world.geo driverId = none)) := by
  have hr : (s.world.exec o c).1 = r := by rw [hexec]
  rcases hmarks with ⟨result, hmem, hzero⟩ | ⟨driverIds, positions, hmem, hnone⟩
  · rcases List.mem_cons.mp hmem with heq | hmem
    · cases heq
      obtain ⟨hfault, hway⟩ := hno.stale i o driverId rfl ⟨call, k, log, hi⟩
      rw [← hr] at hzero
      have hlook := lookup_of_existsOrZero o s.world hfault hzero
      exact .inr ⟨nofun, hway hlook, .inl hlook⟩
    · exact .inl (.inl ⟨result, hmem, hzero⟩)
  · rcases List.mem_cons.mp hmem with heq | hmem
    · cases heq
      obtain ⟨hd, hgeo⟩ := geo_of_missing o s.world hr hnone
      exact .inr ⟨nofun, hno.missing i o driverIds driverId rfl ⟨call, k, log, hi⟩ hd hgeo,
        .inr hgeo⟩
    · exact .inl (.inr ⟨driverIds, positions, hmem, hnone⟩)

theorem fresh_step (hs : Fresh s) (hno : NoOverlap s a t) (hstep : machine.Step s a t) :
    Fresh t := by
  have hmeets : ∀ j th, t.threads j = some th → Meets th.call th.prog th.log :=
    Machine.obeys_step (P := Allowed)
      (fun _ call w _ _ _ hstart => by cases hstart; exact meets_prog call w.now)
      (fun _ _ _ _ _ _ _ => trivial) hs.meets hstep
  cases hstep with
  | @spawn i call p w hi hp =>
      cases hp
      refine ⟨hmeets, fun j th d hj hlive hmarks => ?_, fun j th d hj hcall hlive hlog hok => ?_⟩
      · rcases update_eq_some hj with ⟨-, rfl⟩ | ⟨-, hj⟩
        · exact absurd hmarks not_marks_nil
        · obtain ⟨hnot, hgone⟩ := hs.marked j th d hj hlive hmarks
          exact ⟨fun h => hnot (underWay_of_spawn h), hgone⟩
      · rcases update_eq_some hj with ⟨-, rfl⟩ | ⟨-, hj⟩
        · exact absurd rfl hlog
        · exact hs.added j th d hj hcall hlive hlog hok
  | @run i o call c k log r w hi hr =>
      have hexec : s.world.exec o c = (r, w) := Option.some.inj hr
      have hw : (s.world.exec o c).2 = w := by rw [hexec]
      have hreply : (s.world.exec o c).1 = r := by rw [hexec]
      -- what was marked before is still gone, since nobody may update it now
      have hkeep {j : Nat} {th : Thread Call Cmd Reply String Response} {d : String}
          (hj : s.threads j = some th) (hlive : th.Live) (hmarks : Marks th.log d) :
          c.updates ≠ some d ∧ ¬ UnderWay s d ∧
            (s.world.lookup d = none ∨ s.world.geo d = none) := by
        refine ⟨fun hc => ?_, hs.marked j th d hj hlive hmarks⟩
        exact hno.updates i o c d rfl ⟨call, k, log, hi⟩ hc j th hj hlive hmarks
      have hafter {d : String} (h : c.updates ≠ some d ∧ ¬ UnderWay s d ∧
          (s.world.lookup d = none ∨ s.world.geo d = none)) :
          ¬ UnderWay ⟨w, Function.update s.threads i (some ⟨call, k r, ⟨c, r⟩ :: log⟩)⟩ d ∧
            (w.lookup d = none ∨ w.geo d = none) := by
        obtain ⟨hc, hnot, hgone⟩ := h
        refine ⟨fun h => ?_, ?_⟩
        · rcases underWay_of_run (hs.meets i _ hi) hi h with h | h
          · exact hnot h
          · exact hc h
        · rw [← hw]
          rcases hgone with hlook | hgeo
          · exact .inl ((lookup_exec o s.world hc).trans hlook)
          · exact .inr (geo_none_exec o s.world hc hgeo)
      refine ⟨hmeets, fun j th d hj hlive hmarks => ?_, fun j th d hj hcall hlive hlog hok => ?_⟩
      · rcases update_eq_some hj with ⟨rfl, rfl⟩ | ⟨-, hj⟩
        · rcases newly_marked hno hi hexec hmarks with hold | hnew
          · exact hafter (hkeep hi ⟨c, k, rfl⟩ hold)
          · exact hafter hnew
        · exact hafter (hkeep hj hlive hmarks)
      · rcases update_eq_some hj with ⟨rfl, rfl⟩ | ⟨-, hj⟩
        · rw [← hreply] at hok
          exact hw ▸ hs.geo_of_issue hi hcall hok
        · have hgeo := hs.added j th d hj hcall hlive hlog hok
          exact hw ▸ hs.geo_of_underWay hi ⟨j, th, hj, hcall, hlive, hlog⟩ hgeo
  | @env e w hw =>
      cases hw
      refine ⟨hmeets, fun j th d hj hlive hmarks => ?_, hs.added⟩
      obtain ⟨hnot, hgone⟩ := hs.marked j th d hj hlive hmarks
      refine ⟨hnot, hgone.imp (fun hlook => ?_) id⟩
      exact lookup_later hlook

/-- A step keeps a driver whose heartbeat is alive. -/
theorem Fresh.geo_of_alive (hs : Fresh s) (hstep : machine.Step s a t)
    (halive : s.world.lookup driverId ≠ none) (hgeo : s.world.geo driverId ≠ none) :
    t.world.geo driverId ≠ none := by
  cases hstep with
  | spawn hi hp =>
      cases hp
      exact hgeo
  | env hw =>
      cases hw
      exact hgeo
  | @run i o call c k log r w hi hr =>
      have hw : (s.world.exec o c).2 = w := by rw [Option.some.inj hr]
      rw [← hw]
      refine hs.geo_of_unmarked hi (fun hmarks => ?_) hgeo
      rcases (hs.marked i _ driverId hi ⟨_, _, rfl⟩ hmarks).2 with hlook | hnone
      · exact absurd hlook halive
      · exact absurd hnone hgeo

end Steps

/-! ## Runs -/

section Runs

variable {s u : GeoPool} {acts : List GeoAction} {w : GeoHost}

theorem fresh_initial (w : GeoHost) : Fresh (initial w) where
  meets i th h := by cases h
  marked j th driverId h := by cases h
  added i th driverId h := by cases h

theorem fresh_run (hrun : machine.run (initial w) acts = some s)
    (hno : machine.Along NoOverlap (initial w) acts) : Fresh s :=
  Machine.run_invariant (fresh_initial w) (fun _ _ _ hs hP hstep => fresh_step hs hP hstep)
    hrun hno

/-- A driver stays in the set for as long as its heartbeat lasts. -/
theorem geo_of_run {driverId : String} (hs : Fresh u) (hno : machine.Along NoOverlap u acts)
    (hrun : machine.run u acts = some s) (hgeo : u.world.geo driverId ≠ none)
    (halive : ∀ acts₃ acts₄ v, acts = acts₃ ++ acts₄ → machine.run u acts₃ = some v →
      v.world.lookup driverId ≠ none) : s.world.geo driverId ≠ none := by
  induction acts generalizing u with
  | nil =>
      cases hrun
      exact hgeo
  | cons a acts ih =>
      rw [Machine.run_cons] at hrun
      obtain ⟨t, ht, hrun⟩ := Option.bind_eq_some_iff.mp hrun
      have hstep := machine.step_of_next ht
      have hlook : u.world.lookup driverId ≠ none := halive [] (a :: acts) u rfl rfl
      refine ih (fresh_step hs (hno t ht).1 hstep) (hno t ht).2 hrun
        (hs.geo_of_alive hstep hlook hgeo) fun acts₃ acts₄ v hacts hv => ?_
      refine halive (a :: acts₃) acts₄ v (congrArg _ hacts) ?_
      rw [Machine.run_cons, ht]
      exact hv

/-- What the heartbeat promises in a run.  An update of a driver ends after all
its commands succeeded, and the heartbeat has been alive ever since. -/
structure HeartbeatKept (s₀ : GeoPool) (acts : List GeoAction) : Prop where
  /-- The driver can be found. -/
  findable : ∀ acts₁ i o acts₂ u s driverId th, acts = acts₁ ++ .run i o :: acts₂ →
    machine.run s₀ (acts₁ ++ [.run i o]) = some u → machine.run u acts₂ = some s →
    u.threads i = some th → th.call.driver = some driverId → ¬ th.Live → Succeeded th.log →
    (∀ acts₃ acts₄ v, acts₂ = acts₃ ++ acts₄ → machine.run u acts₃ = some v →
      v.world.lookup driverId ≠ none) →
    s.world.geo driverId ≠ none
  /-- What a search removes has no heartbeat. -/
  evictsStale : ∀ acts₁ i o acts₂ s driverIds driverId, acts = acts₁ ++ .run i o :: acts₂ →
    machine.run s₀ acts₁ = some s → s.Issuing i (.zrem driverIds) → driverId ∈ driverIds →
    s.world.geo driverId ≠ none → s.world.lookup driverId = none

/-- In every run without an overlap the heartbeat keeps its promise. -/
theorem heartbeatKept_of_noOverlap (hno : machine.Along NoOverlap (initial w) acts) :
    HeartbeatKept (initial w) acts where
  findable acts₁ i o acts₂ u s driverId th hacts hu hs hi hdriver hdead hok halive := by
    subst hacts
    rw [Machine.run_append] at hu
    obtain ⟨s₁, hs₁, hu⟩ := Option.bind_eq_some_iff.mp hu
    rw [Machine.run_cons] at hu
    obtain ⟨t, hnext, ht⟩ := Option.bind_eq_some_iff.mp hu
    cases ht
    have hfresh : Fresh s₁ := fresh_run hs₁ hno.prefix
    obtain ⟨hno₁, hno₂⟩ := hno.suffix hs₁ u hnext
    have hstep := machine.step_of_next hnext
    have hfresh' := fresh_step hfresh hno₁ hstep
    refine geo_of_run hfresh' hno₂ hs ?_ halive
    cases hstep with
    | @run i o call c k log r w hi₁ hr =>
        have hexec : s₁.world.exec o c = (r, w) := Option.some.inj hr
        have hreply : (s₁.world.exec o c).1 = r := by rw [hexec]
        have hw : (s₁.world.exec o c).2 = w := by rw [hexec]
        rcases update_eq_some hi with ⟨-, rfl⟩ | ⟨hne, -⟩
        · rw [← hreply] at hok
          exact hw ▸ hfresh.geo_of_issue hi₁ hdriver hok
        · exact absurd rfl hne
  evictsStale acts₁ i o acts₂ s driverIds driverId hacts hs hissue hmem hgeo := by
    subst hacts
    have hfresh : Fresh s := fresh_run hs hno.prefix
    obtain ⟨call, k, log, hi⟩ := hissue
    have hmarks : Marks log driverId := (hfresh.meets i _ hi).1.2 driverId hmem
    exact (hfresh.marked i _ driverId hi ⟨_, _, rfl⟩ hmarks).2.resolve_right hgeo

end Runs

/-! ## Two runs -/

/-- An empty server. -/
def emptyHost : GeoHost := ⟨fun _ => none, fun _ => none, 0⟩

/-- The call updates a driver and has only issued updates. -/
def OnlyUpdates (s : GeoPool) : Prop :=
  ∀ j th, s.threads j = some th → (∃ driverId, th.call.driver = some driverId) ∧
    Meets th.call th.prog th.log ∧ ∀ e ∈ th.log, e.1.updates ≠ none

theorem onlyUpdates_step {s t : GeoPool} {a : GeoAction} (hs : OnlyUpdates s)
    (ha : ∀ i call, a = .spawn i call → ∃ driverId, call.driver = some driverId)
    (hstep : machine.Step s a t) : OnlyUpdates t := by
  refine Machine.threads_step ?_ ?_ hs hstep
  · intro i call p hspawn hp
    obtain rfl : call.prog s.world.now = p := congrArg Prod.fst (Option.some.inj hp)
    exact ⟨ha i call hspawn, meets_prog call _, fun e he => by cases he⟩
  · intro i o call c k log r _ hi _
    obtain ⟨⟨d, hd⟩, hmeets, hlog⟩ := hs i _ hi
    refine ⟨⟨d, hd⟩, hmeets.2 r trivial, fun e he => ?_⟩
    rcases List.mem_cons.mp he with rfl | he
    · intro hnone
      rw [updates_of_allowed hmeets.1 hd] at hnone
      cases hnone
    · exact hlog e he

theorem noOverlap_of_onlyUpdates {s t : GeoPool} {a : GeoAction} (hs : OnlyUpdates s) :
    NoOverlap s a t where
  updates i o c d ha hissue hc j th hj hlive := by
    rintro (⟨_, hmem, -⟩ | ⟨_, _, hmem, -⟩)
    · exact (hs j th hj).2.2 _ hmem rfl
    · exact (hs j th hj).2.2 _ hmem rfl
  stale i o d ha hissue := by
    obtain ⟨call, k, log, hi⟩ := hissue
    obtain ⟨⟨d', hd'⟩, hmeets, -⟩ := hs i _ hi
    cases updates_of_allowed hmeets.1 hd'
  missing i o ds d ha hissue := by
    obtain ⟨call, k, log, hi⟩ := hissue
    obtain ⟨⟨d', hd'⟩, hmeets, -⟩ := hs i _ hi
    cases updates_of_allowed hmeets.1 hd'

/-- Without a search there is nothing to overlap with. -/
theorem along_noOverlap_of_onlyUpdates {s : GeoPool} {acts : List GeoAction} (hs : OnlyUpdates s)
    (hacts : ∀ a ∈ acts, ∀ i call, a = .spawn i call → ∃ driverId, call.driver = some driverId) :
    machine.Along NoOverlap s acts := by
  induction acts generalizing s with
  | nil => trivial
  | cons a acts ih =>
      intro t ht
      refine ⟨noOverlap_of_onlyUpdates hs, ih ?_ fun b hb => hacts b (.tail _ hb)⟩
      exact onlyUpdates_step hs (hacts a (.head _)) (machine.step_of_next ht)

/-- A driver reports its position. -/
def report : List GeoAction :=
  [.spawn 0 (.upsertLocation "d" 12 77 30), .run 0 {}, .run 0 {}, .run 0 {}]

/-- A rider searches while the heartbeat is alive. -/
def searchAlive : List GeoAction :=
  [.env (), .spawn 1 (.findNearby 12 77 5 5), .run 1 { order := [("d", 0)] }, .run 1 {}]

theorem heartbeatKept_report : HeartbeatKept (initial emptyHost) (report ++ searchAlive) ∧
    ∃ s, machine.run (initial emptyHost) (report ++ searchAlive) = some s ∧
      s.world.geo "d" ≠ none := by
  have hreport : machine.Along NoOverlap (initial emptyHost) report :=
    along_noOverlap_of_onlyUpdates (fun j th h => by cases h) fun a ha i call hcall => by
      subst hcall
      simp only [report, List.mem_cons, Action.spawn.injEq, reduceCtorEq, List.not_mem_nil,
        or_false] at ha
      exact ⟨"d", by rw [ha.2]; rfl⟩
  have hsearch : ∀ u, machine.run (initial emptyHost) report = some u →
      machine.Along NoOverlap u searchAlive := by
    intro u hu
    cases hu
    intro t ht
    cases ht
    refine ⟨⟨nofun, nofun, nofun⟩, fun t ht => ?_⟩
    cases ht
    refine ⟨⟨nofun, nofun, nofun⟩, fun t ht => ?_⟩
    cases ht
    refine ⟨⟨?_, ?_, ?_⟩, fun t ht => ?_⟩
    · rintro _ _ c d ⟨⟩ ⟨_, _, _, ⟨⟩⟩ ⟨⟩
    · rintro _ _ d ⟨⟩ ⟨_, _, _, ⟨⟩⟩
    · rintro _ _ ds d ⟨⟩ ⟨_, _, _, ⟨⟩⟩
    cases ht
    refine ⟨⟨?_, ?_, ?_⟩, trivial⟩
    · rintro _ _ c d ⟨⟩ ⟨_, _, _, ⟨⟩⟩ ⟨⟩
    · rintro _ _ d ⟨⟩ ⟨_, _, _, ⟨⟩⟩
      refine ⟨fun h => absurd rfl h, fun h => ?_⟩
      cases h
    · rintro _ _ ds d ⟨⟩ ⟨_, _, _, ⟨⟩⟩
  exact ⟨heartbeatKept_of_noOverlap (hreport.append hsearch), _, rfl, nofun⟩

/-- The heartbeat runs out and a search sees it.  Before the search removes the
driver, the driver reports again. -/
def reportDuringSearch : List GeoAction :=
  [.spawn 0 (.upsertLocation "d" 12 77 1), .run 0 {}, .run 0 {}, .run 0 {}, .env (),
    .spawn 1 (.findNearby 12 77 5 5), .run 1 { order := [("d", 0)] }, .run 1 {},
    .spawn 2 (.upsertLocation "d" 12 77 30), .run 2 {}, .run 2 {}]

/-- The last command of the second report, and the removal. -/
def removal : List GeoAction := [.run 1 {}]

theorem not_heartbeatKept_reportDuringSearch :
    ¬ HeartbeatKept (initial emptyHost) (reportDuringSearch ++ .run 2 {} :: removal) := by
  intro h
  refine h.findable reportDuringSearch 2 {} removal _ _ "d" _ rfl rfl rfl rfl rfl ?_ ?_ ?_ rfl
  · rintro ⟨c, k, hk⟩
    cases hk
  · intro e he
    simp only [List.mem_cons, List.not_mem_nil, or_false] at he
    rcases he with rfl | rfl | rfl
    · exact ⟨_, rfl⟩
    · exact ⟨_, rfl⟩
    · exact ⟨_, rfl⟩
  · intro acts₃ acts₄ v hacts hv
    cases acts₃ with
    | nil =>
        cases hv
        exact nofun
    | cons a acts₃ =>
        obtain ⟨rfl, hnil⟩ := List.cons.inj hacts
        obtain ⟨rfl, -⟩ := List.append_eq_nil_iff.mp hnil.symm
        cases hv
        exact nofun

end GeoIndex

end RydTrip
