import RydTrip.DriverService.Drivers
import RydTrip.Process.Pool

/-!
# Driver status safety under concurrency

Any number of `updateStatus` calls over one table of drivers.  The read and the
write of a call are two statements, and the write names the row by its id only,
so a call may write over a status that it has not checked.  That is harmless
only if the table of transitions leads from the new status to the same target.
-/

namespace RydTrip

open Process

/-! ## Overtaken changes -/

/-- The targets with more than one predecessor, and what these are. -/
def DriverStatus.Tolerates : DriverStatus → DriverStatus → Prop
  | .available, cur => cur = .offline ∨ cur = .reserved ∨ cur = .onTrip
  | .offline, cur => cur = .available ∨ cur = .suspended
  | .suspended, cur => cur = .offline ∨ cur = .available
  | .reserved, _ => False
  | .onTrip, _ => False

/-- A checked change to `tgt` is still allowed from `cur` in two cases: `cur` is
what was checked, or it is another predecessor of `tgt`. -/
theorem DriverStatus.overtaken_iff {seen tgt : DriverStatus} (cur : DriverStatus)
    (h : canTransitionDriverStatus seen tgt = true) :
    canTransitionDriverStatus cur tgt = true ↔ cur = seen ∨ tgt.Tolerates cur := by
  revert h
  cases seen <;> cases tgt <;> cases cur <;>
    simp [canTransitionDriverStatus, allowedTransitions, Tolerates]

/-- A driver who has been dispatched. -/
def DriverStatus.Dispatched : DriverStatus → Prop
  | .reserved | .onTrip => True
  | _ => False

/-- A driver who takes no rides. -/
def DriverStatus.OffDuty : DriverStatus → Prop
  | .offline | .suspended => True
  | _ => False

theorem DriverStatus.Dispatched.not_offDuty {src tgt : DriverStatus} (hsrc : src.Dispatched)
    (h : canTransitionDriverStatus src tgt = true) : ¬ tgt.OffDuty := by
  cases src <;> cases tgt <;>
    simp_all [canTransitionDriverStatus, allowedTransitions, Dispatched, OffDuty]

namespace Drivers

/-! ## The machine -/

/-- A call of `updateStatus`, whoever sends it. -/
structure StatusUpdate where
  id : String
  targetStatus : DriverStatus
  deriving DecidableEq, Repr

/-- The status column. -/
abbrev DriverTable : Type := String → Option DriverStatus

namespace DriverTable

/-- One statement.  An update of a missing row changes nothing. -/
def exec (rows : DriverTable) : (c : Cmd) → Reply c × DriverTable
  | .findUnique id => (rows id, rows)
  | .update id status =>
      if (rows id).isSome then (some status, Function.update rows id (some status))
      else (none, rows)

theorem exec_update_eq_some {rows : DriverTable} {id id' : String} {status tgt : DriverStatus}
    (h : (rows.exec (.update id' status)).2 id = some tgt) :
    (id = id' ∧ tgt = status) ∨ rows id = some tgt := by
  rw [exec] at h
  split at h
  next =>
    rcases update_eq_some h with hwritten | ⟨-, hold⟩
    · exact .inl hwritten
    · exact .inr hold
  next => exact .inr h

end DriverTable

def machine : Machine DriverTable StatusUpdate Cmd Reply DriverError DriverStatus Unit Empty where
  exec _ c rows := some (rows.exec c)
  start call rows := some (DriversService.updateStatus call.id call.targetStatus, rows)
  env a _ := nomatch a

abbrev DriverPool : Type := Pool DriverTable StatusUpdate Cmd Reply DriverError DriverStatus

abbrev DriverAction : Type := Action StatusUpdate Unit Empty

abbrev DriverLog : Type := Log Cmd Reply

/-- Any drivers with any status, and no call yet. -/
def initial (rows : DriverTable) : DriverPool := ⟨rows, fun _ => none⟩

/-! ## Status changes of a step -/

/-- The action commits the status `tgt` over `src`. -/
def CommitsAt (s : DriverPool) (a : DriverAction) (log : DriverLog) (id : String)
    (src tgt : DriverStatus) : Prop :=
  ∃ i o call k, a = .run i o ∧ s.threads i = some ⟨call, .call (.update id tgt) k, log⟩ ∧
    s.world id = some src

/-- Every committed status is a transition from the one committed before it. -/
def CommitAllowed (s : DriverPool) (a : DriverAction) (_ : DriverPool) : Prop :=
  ∀ log id src tgt, CommitsAt s a log id src tgt → canTransitionDriverStatus src tgt = true

/-- No driver goes off duty while dispatched. -/
def DispatchedKept (s : DriverPool) (_ : DriverAction) (t : DriverPool) : Prop :=
  ∀ id src tgt, s.world id = some src → t.world id = some tgt → src.Dispatched → ¬ tgt.OffDuty

/-- A committed status finds the one that its call has read, or another one that
leads to the same target. -/
def NotOvertaken (s : DriverPool) (a : DriverAction) (_ : DriverPool) : Prop :=
  ∀ log id src tgt seen, CommitsAt s a log id src tgt →
    log = [⟨.findUnique id, some seen⟩] → src = seen ∨ tgt.Tolerates src

/-- Driver status safety of a run. -/
def StatusSafe (s : DriverPool) (acts : List DriverAction) : Prop :=
  machine.Along CommitAllowed s acts ∧ machine.Along DispatchedKept s acts

/-! ## What a call has read -/

/-- A write comes after a read that allows it. -/
def ReadAllows : (c : Cmd) → DriverLog → Prop
  | .findUnique _, _ => True
  | .update id tgt, log =>
      ∃ seen, log = [⟨.findUnique id, some seen⟩] ∧ canTransitionDriverStatus seen tgt = true

theorem updateStatus_obeys (id : String) (targetStatus : DriverStatus) :
    (DriversService.updateStatus id targetStatus).Obeys ReadAllows (fun _ _ => True) [] := by
  rw [DriversService.updateStatus_eq]
  refine ⟨trivial, fun row _ => ?_⟩
  cases row with
  | none => trivial
  | some seen =>
      dsimp only
      split
      next hcan =>
        refine ⟨⟨seen, rfl, hcan⟩, fun row _ => ?_⟩
        cases row with
        | none => trivial
        | some status => trivial
      next => trivial

/-- Every call writes only what it has read to be allowed. -/
def ThreadsChecked (s : DriverPool) : Prop :=
  ∀ i th, s.threads i = some th → th.prog.Obeys ReadAllows (fun _ _ => True) th.log

section Steps

variable {s t : DriverPool} {a : DriverAction}

theorem initial_threadsChecked (rows : DriverTable) : ThreadsChecked (initial rows) := by
  intro i th hi
  cases hi

theorem ThreadsChecked.step (hs : ThreadsChecked s) (h : machine.Step s a t) :
    ThreadsChecked t := by
  refine Machine.obeys_step (P := fun _ => ReadAllows) (fun i call w p w' _ hstart => ?_)
    (fun _ _ _ _ _ _ _ => trivial) hs h
  cases hstart
  exact updateStatus_obeys call.id call.targetStatus

/-- A commit follows a read of its own call. -/
theorem ThreadsChecked.read (hs : ThreadsChecked s) {log : DriverLog} {id : String}
    {src tgt : DriverStatus} (hc : CommitsAt s a log id src tgt) :
    ∃ seen, log = [⟨.findUnique id, some seen⟩] ∧ canTransitionDriverStatus seen tgt = true := by
  obtain ⟨i, o, call, k, -, hi, -⟩ := hc
  exact (hs i _ hi).1

/-- A commit is a transition exactly if it has not been overtaken. -/
theorem commitAllowed_iff (hs : ThreadsChecked s) :
    CommitAllowed s a t ↔ NotOvertaken s a t := by
  constructor
  · intro h log id src tgt seen hc hlog
    obtain ⟨seen', hlog', hcan⟩ := hs.read hc
    rw [hlog] at hlog'
    cases hlog'
    exact (DriverStatus.overtaken_iff src hcan).mp (h log id src tgt hc)
  · intro h log id src tgt hc
    obtain ⟨seen, hlog, hcan⟩ := hs.read hc
    exact (DriverStatus.overtaken_iff src hcan).mpr (h log id src tgt seen hc hlog)

/-- A status that differs after a step has been committed by it. -/
theorem commitsAt_of_changed {id : String} {src tgt : DriverStatus} (h : machine.Step s a t)
    (hsrc : s.world id = some src) (htgt : t.world id = some tgt) (hne : src ≠ tgt) :
    ∃ log, CommitsAt s a log id src tgt := by
  cases h with
  | spawn hi hp =>
      cases hp
      rw [hsrc] at htgt
      cases htgt
      exact absurd rfl hne
  | @env e w hw => exact e.elim
  | @run i o call c k log r w hi hr =>
      obtain rfl : (s.world.exec c).2 = w := congrArg Prod.snd (Option.some.inj hr)
      cases c with
      | findUnique id' =>
          change s.world id = some tgt at htgt
          rw [hsrc] at htgt
          cases htgt
          exact absurd rfl hne
      | update id' status =>
          rcases DriverTable.exec_update_eq_some htgt with ⟨rfl, rfl⟩ | hold
          · exact ⟨log, i, o, call, k, rfl, hi, hsrc⟩
          · rw [hsrc] at hold
            cases hold
            exact absurd rfl hne

theorem dispatchedKept_of_allowed (hallowed : CommitAllowed s a t) (h : machine.Step s a t) :
    DispatchedKept s a t := by
  intro id src tgt hsrc htgt hdispatched
  by_cases heq : src = tgt
  · subst heq
    cases src with
    | reserved => exact not_false
    | onTrip => exact not_false
    | offline => exact hdispatched.elim
    | available => exact hdispatched.elim
    | suspended => exact hdispatched.elim
  · obtain ⟨log, hc⟩ := commitsAt_of_changed h hsrc htgt heq
    exact hdispatched.not_offDuty (hallowed log id src tgt hc)

end Steps

/-! ## Runs -/

section Runs

variable {s : DriverPool} {acts : List DriverAction}

theorem along_dispatchedKept (h : machine.Along CommitAllowed s acts) :
    machine.Along DispatchedKept s acts := by
  induction acts generalizing s with
  | nil => trivial
  | cons a acts ih =>
      intro t ht
      exact ⟨dispatchedKept_of_allowed (h t ht).1 (machine.step_of_next ht), ih (h t ht).2⟩

/-- Driver statuses are safe in exactly the runs in which no change is
overtaken. -/
theorem driverStatusSafe_iff_not_overtaken (rows : DriverTable) (acts : List DriverAction) :
    StatusSafe (initial rows) acts ↔ machine.Along NotOvertaken (initial rows) acts := by
  have hiff : machine.Along CommitAllowed (initial rows) acts ↔
      machine.Along NotOvertaken (initial rows) acts :=
    Machine.along_congr (initial_threadsChecked rows) (fun _ _ _ hs h => hs.step h)
      fun _ _ _ hs _ => commitAllowed_iff hs
  exact ⟨fun h => hiff.mp h.1, fun h => ⟨hiff.mpr h, along_dispatchedKept (hiff.mpr h)⟩⟩

end Runs

/-! ## A toggle that overtakes dispatch -/

/-- Dispatch and the driver's own toggle have both read `AVAILABLE`.  Dispatch
writes first. -/
def reserveAndToggle : List DriverAction :=
  [.spawn 0 ⟨"d", .reserved⟩, .run 0 (), .spawn 1 ⟨"d", .offline⟩, .run 1 (), .run 0 (), .run 1 ()]

theorem not_statusSafe_reserveAndToggle :
    ¬ StatusSafe (initial fun _ => some .available) reserveAndToggle := by
  rintro ⟨-, hkept⟩
  have hsplit : reserveAndToggle = reserveAndToggle.take 5 ++ [.run 1 ()] := rfl
  rw [hsplit] at hkept
  have hlast := hkept.suffix rfl
  exact (hlast _ rfl).1 "d" .reserved .offline rfl rfl trivial trivial

end Drivers

end RydTrip
