import RydTrip.TripService.StatusSafety

/-!
# One operation at a time

When a thread only moves while no later one has started, what it has read since
it last tried to commit is what the database says.  Every transition is then
allowed by the status that the ride has (`Sequential.allowed`).
-/

namespace RydTrip

namespace TripService

open Process

/-- The read is what the database says. -/
def Accurate (db : TripDb) : (Σ c : Cmd, Reply c) → Prop
  | ⟨.db (.findRide id), .ok row⟩ => row = db.findRide id
  | ⟨.db (.getOtp id), .ok otp⟩ => otp = (db.findRide id).bind (·.otp)
  | _ => True

/-- The thread whose turn it is has read what the database says. -/
def ReadsCurrent (s : TripPool) : Prop :=
  ∀ i th, s.threads i = some th → (∀ j, i < j → s.threads j = none) →
    ∀ e ∈ sinceCommit th.log, Accurate s.world.db e

/-- Every thread commits on reads since its last commit that allow it. -/
def ThreadsFresh (s : TripPool) : Prop :=
  ∀ i th, s.threads i = some th →
    Commits (fun key es log => th.call.Writes key es ∧ Guarded (sinceCommit log) es) th.prog th.log

theorem Accurate.same {db db' : TripDb} (h : SameTables db db') {e : Σ c : Cmd, Reply c}
    (he : Accurate db e) : Accurate db' e := by
  unfold Accurate at he ⊢
  split
  · rw [h.findRide]
    exact he
  · rw [h.findRide]
    exact he
  · trivial

section Steps

variable {haversineKm : GeoPoint → GeoPoint → Option Rat} {s t : TripPool} {a : TripAction}
  {op : Op} {log : TripLog} {key : Option ProcessedEventRow} {es : List Exec}

theorem accurate_of_exec {o : Oracle} {c : Cmd} {w w' : TripHost} {r : Reply c}
    (h : w.exec o c = (r, w')) : Accurate w.db ⟨c, r⟩ := by
  cases c with
  | db c =>
      cases c with
      | findRide id =>
          cases r with
          | error err => trivial
          | ok row =>
              have hx : (settle o.fault w.db (w.db.exec (.findRide id))).1 = .ok row :=
                congrArg Prod.fst h
              obtain ⟨-, db', hx⟩ := settle_ok hx
              exact (congrArg Prod.fst (Except.ok.inj hx)).symm
      | getOtp id =>
          cases r with
          | error err => trivial
          | ok otp =>
              have hx : (settle o.fault w.db (w.db.exec (.getOtp id))).1 = .ok otp :=
                congrArg Prod.fst h
              obtain ⟨-, db', hx⟩ := settle_ok hx
              exact (congrArg Prod.fst (Except.ok.inj hx)).symm
      | _ => trivial
  | patch driverId status => trivial
  | park fields => trivial

theorem ThreadsFresh.step (hs : ThreadsFresh s) (hstep : (machine haversineKm).Step s a t) :
    ThreadsFresh t := by
  refine Machine.obeys_step (m := machine haversineKm)
    (P := fun op => CommitsWithin fun key es log =>
      op.Writes key es ∧ Guarded (sinceCommit log) es) ?_ ?_ hs hstep
  · rintro i op w p w' - ⟨⟩
    exact program_commits haversineKm op
  · intro i o c r w' _ h
    exact replyKnown_of_exec (Option.some.inj h)

/-- Only the thread whose turn it is moves, so its reads stay current until it
commits. -/
theorem ReadsCurrent.step (hs : ReadsCurrent s) (hturn : InTurn s a)
    (hstep : (machine haversineKm).Step s a t) : ReadsCurrent t := by
  intro j th hj hlast
  cases hstep with
  | @spawn i op p w hi hp =>
      rcases update_eq_some hj with ⟨-, rfl⟩ | ⟨hne, hj⟩
      · intro e he
        cases he
      · -- an older thread is not the last one any more
        rcases Nat.lt_or_gt_of_ne hne with hlt | hlt
        · exact absurd hlt (not_lt_of_last hlast)
        · rw [hturn j hlt] at hj
          cases hj
  | @env u w hw =>
      cases hw
      exact fun e he => (hs j th hj hlast e he).same ⟨rfl, rfl, rfl⟩
  | @run i o op c k log r w hi hx =>
      rcases update_eq_some hj with ⟨-, rfl⟩ | ⟨hne, hj⟩
      · have hx : s.world.exec o c = (r, w) := Option.some.inj hx
        intro e he
        rw [sinceCommit] at he
        cases hc : c.isCommit with
        | true =>
            rw [hc] at he
            cases he
        | false =>
            rw [hc] at he
            have hsame : SameTables s.world.db w.db := by
              have hrun : (machine haversineKm).Step s (.run i o) _ := .run hi (congrArg some hx)
              refine sameTables_of_not_commits hrun ?_
              rintro op' log' key es ⟨i', o', c', k', v, db, ⟨⟩, hi', -, -, hcommits⟩
              rw [hi] at hi'
              cases hi'
              cases c' <;> cases hcommits <;> cases hc
            rcases List.mem_cons.mp he with rfl | he
            · exact (accurate_of_exec hx).same hsame
            · exact (hs i _ hi hturn e he).same hsame
      · rcases Nat.lt_or_gt_of_ne hne with hlt | hlt
        · exact absurd hlt (not_lt_of_last hlast)
        · rw [hturn j hlt] at hj
          cases hj

/-! ## No write is overtaken -/

/-- What the newest read returned is in the log. -/
theorem exists_mem_of_lastRead {id : String} {log : TripLog} {seen : RideStatus}
    (h : lastRead id log = some seen) :
    ∃ row, ⟨.db (.findRide id), .ok (some row)⟩ ∈ log ∧ row.status = seen := by
  induction log with
  | nil => cases h
  | cons e log ih =>
      have hold (h : lastRead id log = some seen) :
          ∃ row, ⟨.db (.findRide id), .ok (some row)⟩ ∈ e :: log ∧ row.status = seen := by
        obtain ⟨row, hmem, hstatus⟩ := ih h
        exact ⟨row, .tail _ hmem, hstatus⟩
      unfold lastRead at h
      split at h
      · cases h
      next id' row log' heq =>
        cases heq
        split at h
        next hid =>
          subst hid
          exact ⟨row, .head _, Option.some.inj h⟩
        next => exact hold h
      next heq =>
        cases heq
        exact hold h

/-- In turn, the newest read that a commit goes by is the row of the ride. -/
theorem ReadsCurrent.status (hs : ReadsCurrent s) (hturn : InTurn s a)
    (hc : CommitsAt s a op log key es) {id : String} {seen : RideStatus}
    (hread : lastRead id (sinceCommit log) = some seen) :
    ∃ row, s.world.db.findRide id = some row ∧ row.status = seen := by
  obtain ⟨i, o, c, k, v, db, rfl, hi, -⟩ := hc
  obtain ⟨row, hmem, hstatus⟩ := exists_mem_of_lastRead hread
  have hrow : some row = s.world.db.findRide id := hs i _ hi hturn _ hmem
  exact ⟨row, hrow.symm, hstatus⟩

/-- What holds of every pool that is reached in turn. -/
structure Sequential (s : TripPool) : Prop where
  commit : ThreadsCommit s
  fresh : ThreadsFresh s
  current : ReadsCurrent s

theorem initial_sequential (db : TripDb) : Sequential (initial db) where
  commit := initial_threadsCommit db
  fresh := by
    rintro i th ⟨⟩
  current := by
    rintro i th ⟨⟩

theorem Sequential.step (hs : Sequential s) (hturn : InTurn s a)
    (hstep : (machine haversineKm).Step s a t) : Sequential t :=
  ⟨hs.commit.step hstep, hs.fresh.step hstep, hs.current.step hturn hstep⟩

theorem ThreadsFresh.guarded (hs : ThreadsFresh s) (h : CommitsAt s a op log key es) :
    Guarded (sinceCommit log) es := by
  obtain ⟨i, o, c, k, v, db, -, hi, -, -, hc⟩ := h
  have hcmd := (hs i _ hi).1
  cases c with
  | commit tx =>
      cases hc
      exact hcmd.2
  | transact e =>
      cases hc
      exact hcmd.2
  | _ => cases hc

/-- A transition that commits in turn is allowed by the status of the ride. -/
theorem Sequential.allowed (hs : Sequential s) (hturn : InTurn s a) {id : String}
    {tgt : RideStatus} {options : TransitionOptions}
    (hc : CommitsAt s a op log key [.transition id tgt options]) :
    ∃ row, s.world.db.findRide id = some row ∧
      canTransitionRideStatus row.status tgt = true := by
  obtain ⟨seen, hseen, hcan⟩ := hs.fresh.guarded hc id tgt options rfl
  obtain ⟨row, hrow, rfl⟩ := hs.current.status hturn hc hseen
  exact ⟨row, hrow, hcan⟩

end Steps

end TripService

end RydTrip
