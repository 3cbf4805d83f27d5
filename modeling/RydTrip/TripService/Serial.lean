import RydTrip.TripService.Timely

/-!
# One at a time, after the fact

In a timely run the database is the one that the same operations leave when they
run one at a time, in the order in which they commit or give up, and every route
has been answered as in that order.  An operation that was answered before
another one was started comes before it.
-/

namespace RydTrip

namespace TripService

open Process

/-! ## Turns -/

/-- A moment at which a whole operation runs, or time passes. -/
inductive Turn where
  | tick
  | serve (i : Nat) (op : Op)

def Turn.thread : Turn → Option Nat
  | .tick => none
  | .serve i _ => some i

section Turns

variable (haversineKm : GeoPoint → GeoPoint → Option Rat)

def Turn.apply (db : TripDb) : Turn → TripDb
  | .tick => { db with now := db.now + 1 }
  | .serve _ op => (op.alone haversineKm db).2

/-- The database after all turns. -/
def oneByOne (db : TripDb) (turns : List Turn) : TripDb :=
  turns.foldl (Turn.apply haversineKm) db

/-- At its turn the operation of thread `i` has the outcome `x`. -/
def ServedWith (db : TripDb) (turns : List Turn) (i : Nat) (op : Op)
    (x : Except TripError Response) : Prop :=
  ∃ earlier later, turns = earlier ++ .serve i op :: later ∧
    (op.alone haversineKm (oneByOne haversineKm db earlier)).1 = x

/-- The pool looks as if the operations had run one at a time. -/
structure OneAtATime (db : TripDb) (turns : List Turn) (s : TripPool) : Prop where
  database : oneByOne haversineKm db turns = s.world.db
  once : (turns.filterMap Turn.thread).Nodup
  calls : ∀ i op, .serve i op ∈ turns → ∃ th, s.threads i = some th ∧ th.call = op
  answered : ∀ i th r, s.threads i = some th → th.call.IsRoute = true → th.prog = .ret r →
    ServedWith haversineKm db turns i th.call (.ok r)
  refused : ∀ i th err, s.threads i = some th → th.call.IsRoute = true → th.prog = .throw err →
    (∀ e, err ≠ .prisma e) → ∃ err', ServedWith haversineKm db turns i th.call (.error err')

end Turns

theorem oneByOne_append (haversineKm : GeoPoint → GeoPoint → Option Rat) (db : TripDb)
    (turns new : List Turn) :
    oneByOne haversineKm db (turns ++ new) =
      oneByOne haversineKm (oneByOne haversineKm db turns) new :=
  List.foldl_append

section Serial

variable {haversineKm : GeoPoint → GeoPoint → Option Rat} {db : TripDb} {turns new : List Turn}
  {s t : TripPool} {a : TripAction} {i : Nat} {op : Op} {x : Except TripError Response}

theorem ServedWith.append (h : ServedWith haversineKm db turns i op x) :
    ServedWith haversineKm db (turns ++ new) i op x := by
  obtain ⟨earlier, later, rfl, hx⟩ := h
  exact ⟨earlier, later ++ new, by rw [List.append_assoc, List.cons_append], hx⟩

theorem servedWith_last (hdb : oneByOne haversineKm db turns = s.world.db)
    (hx : (op.alone haversineKm s.world.db).1 = x) :
    ServedWith haversineKm db (turns ++ [.serve i op]) i op x :=
  ⟨turns, [], rfl, hdb ▸ hx⟩

/-! ## Threads and their turns -/

/-- The route has neither committed nor given up. -/
structure Pending (turns : List Turn) (i : Nat) (th : Thread Op Cmd Reply TripError Response) :
    Prop where
  unserved : ∀ op, .serve i op ∉ turns
  uncommitted : committedRow th.log = none
  unanswered : ∀ r, th.prog ≠ .ret r
  rejected : ∀ err, th.prog = .throw err → ∃ e, err = .prisma e

/-- The route has had its turn, and goes on to the outcome of that turn. -/
def Served (haversineKm : GeoPoint → GeoPoint → Option Rat) (db : TripDb) (turns : List Turn)
    (i : Nat) (th : Thread Op Cmd Reply TripError Response) : Prop :=
  ∃ x, ServedWith haversineKm db turns i th.call x ∧
    ((∃ r, th.prog = .ret r ∧ x = .ok r) ∨
      (∃ err, th.prog = .throw err ∧ ((∃ e, err = .prisma e) ∨ ∃ err', x = .error err')) ∨
      th.call.target.isSome = true ∧
        ∃ row, committedRow th.log = some row ∧ x = .ok (.ride (some (toDomain row))))

/-- The invariant of a timely run, with the turns that it amounts to. -/
structure Serial (haversineKm : GeoPoint → GeoPoint → Option Rat) (db : TripDb) (turns : List Turn)
    (s : TripPool) : Prop where
  known : Known haversineKm s
  database : oneByOne haversineKm db turns = s.world.db
  once : (turns.filterMap Turn.thread).Nodup
  calls : ∀ i op, .serve i op ∈ turns → ∃ th, s.threads i = some th ∧ th.call = op
  routes : ∀ i th, s.threads i = some th → th.call.IsRoute = true →
    Pending turns i th ∨ Served haversineKm db turns i th
  events : ∀ i op event eventId, .serve i op ∈ turns → op.event = some (event, eventId) →
    ⟨eventId, consumerName⟩ ∈ s.world.db.processedEvents

theorem initial_serial (haversineKm : GeoPoint → GeoPoint → Option Rat) (db : TripDb) :
    Serial haversineKm db [] (initial db) where
  known := initial_known haversineKm db
  database := rfl
  once := List.nodup_nil
  calls _ _ h := absurd h List.not_mem_nil
  routes := by rintro i th ⟨⟩
  events _ _ _ _ h := absurd h List.not_mem_nil

theorem Serial.oneAtATime (h : Serial haversineKm db turns s) :
    OneAtATime haversineKm db turns s where
  database := h.database
  once := h.once
  calls := h.calls
  answered i th r hi hop hr := by
    rcases h.routes i th hi hop with hp | ⟨x, hx, ⟨r', hr', rfl⟩ | ⟨err, herr, -⟩ | hcommitted⟩
    · exact absurd hr (hp.unanswered r)
    · cases hr.symm.trans hr'
      exact hx
    · cases hr.symm.trans herr
    · obtain ⟨htarget, row, hrow, rfl⟩ := hcommitted
      obtain ⟨row', hrow', rfl⟩ := (h.known.returned hi hop hr).2 htarget
      cases hrow.symm.trans hrow'
      exact hx
  refused i th err hi hop herr hne := by
    rcases h.routes i th hi hop with hp | ⟨x, hx, ⟨r, hr, -⟩ | ⟨err', herr', h⟩ | hcommitted⟩
    · obtain ⟨e, rfl⟩ := hp.rejected err herr
      exact absurd rfl (hne e)
    · cases herr.symm.trans hr
    · cases herr.symm.trans herr'
      rcases h with ⟨e, rfl⟩ | ⟨err', rfl⟩
      · exact absurd rfl (hne e)
      · exact ⟨err', hx⟩
    · obtain ⟨-, row, hrow, -⟩ := hcommitted
      cases hrow.symm.trans (h.known.failed hi hop herr).1

/-! ## Steps -/

theorem Pending.append {th : Thread Op Cmd Reply TripError Response} (h : Pending turns i th)
    (hnew : ∀ op, .serve i op ∉ new) : Pending (turns ++ new) i th where
  unserved op hmem := (List.mem_append.mp hmem).elim (h.unserved op) (hnew op)
  uncommitted := h.uncommitted
  unanswered := h.unanswered
  rejected := h.rejected

theorem Served.append {th : Thread Op Cmd Reply TripError Response}
    (h : Served haversineKm db turns i th) : Served haversineKm db (turns ++ new) i th := by
  obtain ⟨x, hx, h⟩ := h
  exact ⟨x, hx.append, h⟩

/-- A thread does not go away, and one that has ended does not go on. -/
theorem exists_thread_step (hstep : (machine haversineKm).Step s a t)
    {th : Thread Op Cmd Reply TripError Response} (hi : s.threads i = some th) :
    ∃ th', t.threads i = some th' ∧ th'.call = th.call ∧ (th'.Live → th.Live) := by
  cases hstep with
  | @spawn j op p w hj hp =>
      have hne : i ≠ j := by
        rintro rfl
        cases hj.symm.trans hi
      exact ⟨th, (Function.update_of_ne hne _ _).trans hi, rfl, id⟩
  | @run j o op c k log r w hj hr =>
      by_cases hne : i = j
      · subst hne
        cases hj.symm.trans hi
        exact ⟨_, Function.update_self .., rfl, fun _ => ⟨c, k, rfl⟩⟩
      · exact ⟨th, (Function.update_of_ne hne _ _).trans hi, rfl, id⟩
  | env hw => exact ⟨th, hi, rfl, id⟩

/-- What a step adds to the turns. -/
theorem Serial.extend (h : Serial haversineKm db turns s) (hknown : Known haversineKm t)
    (hstep : (machine haversineKm).Step s a t)
    (hdb : oneByOne haversineKm s.world.db new = t.world.db)
    (hnew : ∀ i op, .serve i op ∈ new → (∀ op, .serve i op ∉ turns) ∧
      (∃ th, s.threads i = some th ∧ th.call = op) ∧
      ∀ event eventId, op.event = some (event, eventId) →
        ⟨eventId, consumerName⟩ ∈ t.world.db.processedEvents)
    (honce : (new.filterMap Turn.thread).Nodup)
    (hroutes : ∀ i th, t.threads i = some th → th.call.IsRoute = true →
      Pending (turns ++ new) i th ∨ Served haversineKm db (turns ++ new) i th) :
    Serial haversineKm db (turns ++ new) t where
  known := hknown
  database := by rw [oneByOne_append, h.database, hdb]
  once := by
    rw [List.filterMap_append]
    refine h.once.append honce fun i hi hi' => ?_
    obtain ⟨turn, hmem, hturn⟩ := List.mem_filterMap.mp hi
    obtain ⟨turn', hmem', hturn'⟩ := List.mem_filterMap.mp hi'
    cases turn with
    | tick => cases hturn
    | serve j op =>
        cases hturn
        cases turn' with
        | tick => cases hturn'
        | serve j' op' =>
            cases hturn'
            exact (hnew _ op' hmem').1 op hmem
  calls i op hmem := by
    obtain ⟨th, hi, rfl⟩ : ∃ th, s.threads i = some th ∧ th.call = op :=
      (List.mem_append.mp hmem).elim (h.calls i op) fun hmem => (hnew i op hmem).2.1
    obtain ⟨th', hi', hcall, -⟩ := exists_thread_step hstep hi
    exact ⟨th', hi', hcall⟩
  routes := hroutes
  events i op event eventId hmem hop :=
    (List.mem_append.mp hmem).elim
      (fun hmem => processedEvents_step hstep (h.events i op event eventId hmem hop))
      fun hmem => (hnew i op hmem).2.2 event eventId hop

/-- The routes of the other threads are where they were. -/
theorem Serial.other (h : Serial haversineKm db turns s)
    {th : Thread Op Cmd Reply TripError Response} (hi : s.threads i = some th)
    (hop : th.call.IsRoute = true) (hnew : ∀ op, .serve i op ∉ new) :
    Pending (turns ++ new) i th ∨ Served haversineKm db (turns ++ new) i th :=
  (h.routes i th hi hop).imp (fun hp => hp.append hnew) fun hs => hs.append

section Run

variable {o : Oracle} {c : DbCmd} {k : Reply (.db c) → Trip Response} {log : TripLog}
  {r : Reply (.db c)} {w : TripHost}

/-- A route that calls the database has not had its turn. -/
theorem Serial.pending (h : Serial haversineKm db turns s)
    (hi : s.threads i = some ⟨op, .call (.db c) k, log⟩) (hop : op.IsRoute = true) :
    Pending turns i ⟨op, .call (.db c) k, log⟩ := by
  rcases h.routes i _ hi hop with hp | ⟨x, -, ⟨r, hr, -⟩ | ⟨err, herr, -⟩ | ⟨-, row, hrow, -⟩⟩
  · exact hp
  · cases hr
  · cases herr
  · have hstage := ((h.known.spec i _ hi).1 hop).stage
    cases hrow.symm.trans hstage.uncommitted

/-- After a rejected call a route gives up. -/
theorem Serial.rejected (h : Serial haversineKm db turns s)
    (hi : s.threads i = some ⟨op, .call (.db c) k, log⟩) (hop : op.IsRoute = true)
    (err : PrismaError) : ∃ e, k (.error err) = .throw (.prisma e) := by
  cases hk : k (.error err) with
  | ret a => exact absurd (h.known.returns hi hop hk).1 not_clean_error
  | call c' k' => exact absurd (h.known.asks hi hop hk).clean not_clean_error
  | throw e =>
      rcases (h.known.fails hi hop hk).2 with hclean | ⟨e', rfl⟩
      · exact absurd hclean not_clean_error
      · exact ⟨e', rfl⟩

/-- A call that commits nothing. -/
theorem exec_of_still (hi : s.threads i = some ⟨op, .call (.db c) k, log⟩)
    (hr : s.world.exec o (.db c) = (r, w))
    (hcom : ∀ op log key es, ¬ CommitsAt s (.run i o) op log key es) :
    w.db = s.world.db ∧ ((∃ err, r = .error err) ∨
      ∃ v, r = .ok v ∧ (Cmd.db c).commits = none ∧
        s.world.db.exec c = .ok (v, s.world.db)) := by
  cases hc : (Cmd.db c).commits with
  | none =>
      obtain ⟨hsame, hexec⟩ := exec_of_not_commits hc hr
      refine ⟨hsame, ?_⟩
      cases r with
      | error err => exact .inl ⟨err, rfl⟩
      | ok v => exact .inr ⟨v, rfl, rfl, hexec v rfl⟩
  | some p =>
      have hr' := congrArg Prod.fst hr
      have hw := congrArg (fun p => p.2.db) hr
      simp only [TripHost.exec] at hr' hw
      cases hx : s.world.db.exec c with
      | error err =>
          obtain ⟨err', hsettle⟩ := settle_error (α := DbValue c) o.fault s.world.db err
          rw [hx, hsettle] at hr' hw
          exact ⟨hw.symm, .inl ⟨err', hr'.symm⟩⟩
      | ok q =>
          have hnot : ∃ message, o.fault = .refused message := by
            by_contra hne
            push Not at hne
            exact hcom op log p.1 p.2 ⟨i, o, c, k, q.1, q.2, rfl, hi, hne, hx, hc⟩
          obtain ⟨message, hf⟩ := hnot
          rw [hx, hf] at hr' hw
          exact ⟨hw.symm, .inl ⟨_, hr'.symm⟩⟩

end Run

/-- The turns of a step come after those before it, and are those of threads
that still had something to do. -/
def Extends (haversineKm : GeoPoint → GeoPoint → Option Rat) (db : TripDb) (turns : List Turn)
    (s t : TripPool) : Prop :=
  ∃ new, Serial haversineKm db (turns ++ new) t ∧
    ∀ i op, .serve i op ∈ new → ∃ th, s.threads i = some th ∧ th.Live

/-- A step without a turn. -/
theorem Serial.pass (h : Serial haversineKm db turns s) (ht : Timely s a t)
    (hstep : (machine haversineKm).Step s a t) (hdb : t.world.db = s.world.db)
    (hroutes : ∀ i th, t.threads i = some th → th.call.IsRoute = true →
      Pending turns i th ∨ Served haversineKm db turns i th) :
    Extends haversineKm db turns s t := by
  refine ⟨[], ?_, fun _ _ h => absurd h List.not_mem_nil⟩
  refine h.extend (h.known.step ht hstep) hstep hdb.symm
    (fun _ _ h => absurd h List.not_mem_nil) List.nodup_nil ?_
  rw [List.append_nil]
  exact hroutes

section Serve

variable {o : Oracle} {c : Cmd} {k : Reply c → Trip Response} {log : TripLog} {r : Reply c}
  {w : TripHost}

/-- A step of thread `i` that is its turn. -/
theorem Serial.serve (h : Serial haversineKm db turns s)
    (ht : Timely s (.run i o) ⟨w, Function.update s.threads i (some ⟨op, k r, ⟨c, r⟩ :: log⟩)⟩)
    (hi : s.threads i = some ⟨op, .call c k, log⟩) (hr : s.world.exec o c = (r, w))
    (hdb : (op.alone haversineKm s.world.db).2 = w.db) (hnew : ∀ op, .serve i op ∉ turns)
    (hevent : ∀ event eventId, op.event = some (event, eventId) →
      ⟨eventId, consumerName⟩ ∈ w.db.processedEvents)
    (hmine : op.IsRoute = true →
      Served haversineKm db (turns ++ [.serve i op]) i ⟨op, k r, ⟨c, r⟩ :: log⟩) :
    Extends haversineKm db turns s
      ⟨w, Function.update s.threads i (some ⟨op, k r, ⟨c, r⟩ :: log⟩)⟩ := by
  have hstep : (machine haversineKm).Step s (.run i o) _ := .run hi (congrArg some hr)
  refine ⟨[.serve i op], h.extend (h.known.step ht hstep) hstep hdb ?_ (List.nodup_singleton i) ?_,
    ?_⟩
  · intro j op' hmem
    cases List.mem_singleton.mp hmem
    exact ⟨hnew, ⟨_, hi, rfl⟩, hevent⟩
  · intro j th hj hop
    rcases update_eq_some hj with ⟨rfl, rfl⟩ | ⟨hne, hj⟩
    · exact .inr (hmine hop)
    · refine h.other hj hop fun op' hmem => hne ?_
      cases List.mem_singleton.mp hmem
      rfl
  · intro j op' hmem
    cases List.mem_singleton.mp hmem
    exact ⟨_, hi, c, k, rfl⟩

/-- A step of thread `i` without a turn. -/
theorem Serial.pass_run (h : Serial haversineKm db turns s)
    (ht : Timely s (.run i o) ⟨w, Function.update s.threads i (some ⟨op, k r, ⟨c, r⟩ :: log⟩)⟩)
    (hi : s.threads i = some ⟨op, .call c k, log⟩) (hr : s.world.exec o c = (r, w))
    (hdb : w.db = s.world.db)
    (hmine : op.IsRoute = true → Pending turns i ⟨op, k r, ⟨c, r⟩ :: log⟩ ∨
      Served haversineKm db turns i ⟨op, k r, ⟨c, r⟩ :: log⟩) :
    Extends haversineKm db turns s
      ⟨w, Function.update s.threads i (some ⟨op, k r, ⟨c, r⟩ :: log⟩)⟩ := by
  refine h.pass ht (.run hi (congrArg some hr)) hdb fun j th hj hop => ?_
  rcases update_eq_some hj with ⟨rfl, rfl⟩ | ⟨-, hj⟩
  · exact hmine hop
  · exact h.routes j th hj hop

end Serve

section Run

variable {o : Oracle} {c : DbCmd} {k : Reply (.db c) → Trip Response} {log : TripLog}
  {r : Reply (.db c)} {w : TripHost}

/-- The commit of a thread is its turn. -/
theorem Serial.commit (h : Serial haversineKm db turns s)
    (ht : Timely s (.run i o) ⟨w, Function.update s.threads i (some ⟨op, k r, ⟨.db c, r⟩ :: log⟩)⟩)
    (hi : s.threads i = some ⟨op, .call (.db c) k, log⟩) (hr : s.world.exec o (.db c) = (r, w))
    {key : Option ProcessedEventRow} {es : List Exec}
    (hc : CommitsAt s (.run i o) op log key es) :
    Extends haversineKm db turns s
      ⟨w, Function.update s.threads i (some ⟨op, k r, ⟨.db c, r⟩ :: log⟩)⟩ := by
  have hstep : (machine haversineKm).Step s (.run i o) _ := .run hi (congrArg some hr)
  have hwrites := (h.known.commit.writes hc).1
  have hpermits := ht op log key es hc
  have happ := hc.applied hstep
  cases key with
  | some key =>
      obtain ⟨event, eventId, hop, rfl, rfl⟩ := hwrites
      refine h.serve ht hi hr (h.known.alone_of_commit hc hpermits hstep) ?_ ?_ ?_
      · intro op' hmem
        obtain ⟨th, hi', rfl⟩ := h.calls i op' hmem
        cases hi.symm.trans hi'
        have hkey := h.events i _ event eventId hmem hop
        obtain ⟨db₁, hpe, -⟩ := Tx.commit_ok.mp happ
        unfold TripDb.createProcessedEvent at hpe
        split at hpe
        · cases hpe
        next hnew => exact hnew (List.contains_iff_mem.mpr hkey)
      · intro event' eventId' hop'
        cases hop.symm.trans hop'
        rw [show w.db.processedEvents = _ from applyCommit_processedEvents happ]
        exact List.mem_append_right _ (.head _)
      · intro hroute
        cases hop.symm.trans (Op.event_of_isRoute hroute)
  | none =>
      obtain ⟨e, he, rfl⟩ := hwrites
      have hdb := h.known.alone_of_commit hc hpermits hstep
      obtain ⟨i', o', c', k', v, db', ⟨⟩, hi', -, hx, hcommits⟩ := hc
      cases hi.symm.trans hi'
      cases c with
      | transact e' =>
          cases hcommits
          obtain ⟨id, tgt, options, rfl, htarget⟩ := he.target
          have hroute := Op.isRoute_of_target htarget
          have halone := h.known.alone_of_transact hi hroute hpermits hx
          refine h.serve ht hi hr hdb (h.pending hi hroute).unserved ?_ ?_
          · intro event eventId hop
            cases hop.symm.trans (Op.event_of_isRoute hroute)
          · intro _
            refine ⟨_, servedWith_last h.database (congrArg Prod.fst halone), .inr ?_⟩
            cases r with
            | ok v' =>
                obtain ⟨-, db'', hx'⟩ := settle_ok (congrArg Prod.fst hr)
                cases hx.symm.trans hx'
                exact .inr ⟨by rw [htarget]; rfl, v, rfl, rfl⟩
            | error err =>
                obtain ⟨e, hk⟩ := h.rejected hi hroute err
                exact .inl ⟨_, hk, .inl ⟨e, rfl⟩⟩
      | _ => cases hcommits

end Run

/-- A database call of a route that commits nothing is its turn if the route
ends with it. -/
theorem Serial.read {o : Oracle} {c : DbCmd} {k : Reply (.db c) → Trip Response} {log : TripLog}
    {r : Reply (.db c)} {w : TripHost} (h : Serial haversineKm db turns s)
    (ht : Timely s (.run i o) ⟨w, Function.update s.threads i (some ⟨op, k r, ⟨.db c, r⟩ :: log⟩)⟩)
    (hi : s.threads i = some ⟨op, .call (.db c) k, log⟩) (hr : s.world.exec o (.db c) = (r, w))
    (hop : op.IsRoute = true)
    (hcom : ∀ op log key es, ¬ CommitsAt s (.run i o) op log key es) :
    Extends haversineKm db turns s
      ⟨w, Function.update s.threads i (some ⟨op, k r, ⟨.db c, r⟩ :: log⟩)⟩ := by
  have hpending := h.pending hi hop
  have hevent {event : RideEvent} {eventId : Nat} (hev : op.event = some (event, eventId)) :
      False := by
    cases hev.symm.trans (Op.event_of_isRoute hop)
  obtain ⟨hdb, ⟨err, rfl⟩ | ⟨v, rfl, hc, hx⟩⟩ := exec_of_still hi hr hcom
  · obtain ⟨e, hk⟩ := h.rejected hi hop err
    refine h.pass_run ht hi hr hdb fun _ => .inl ⟨hpending.unserved, ?_, ?_, ?_⟩
    · exact committedRow_error.trans hpending.uncommitted
    · rintro r hret
      cases hk.symm.trans hret
    · rintro err' herr
      cases hk.symm.trans herr
      exact ⟨e, rfl⟩
  · obtain ⟨hret, hthrow⟩ := h.known.alone_of_read hi hop hc hx
    cases hk : k (.ok v) with
    | call c' k' =>
        refine hk ▸ h.pass_run ht hi hr hdb fun _ => .inl ⟨hpending.unserved, ?_, ?_, ?_⟩
        · exact (committedRow_read hc).trans hpending.uncommitted
        · rintro r hret
          cases hk.symm.trans hret
        · rintro err herr
          cases hk.symm.trans herr
    | ret a =>
        have halone := hret a hk
        refine hk ▸ h.serve ht hi hr (by rw [halone, hdb]) hpending.unserved
          (fun _ _ hev => (hevent hev).elim) fun _ => ?_
        exact ⟨_, servedWith_last h.database (congrArg Prod.fst halone), .inl ⟨a, hk, rfl⟩⟩
    | throw err =>
        obtain ⟨err', halone⟩ := hthrow err hk
        refine hk ▸ h.serve ht hi hr (by rw [halone, hdb]) hpending.unserved
          (fun _ _ hev => (hevent hev).elim) fun _ => ?_
        exact ⟨_, servedWith_last h.database (congrArg Prod.fst halone),
          .inr (.inl ⟨err, hk, .inr ⟨err', rfl⟩⟩)⟩

/-- Every step extends the turns. -/
theorem Serial.step (h : Serial haversineKm db turns s) (ht : Timely s a t)
    (hstep : (machine haversineKm).Step s a t) : Extends haversineKm db turns s t := by
  have hstep' := hstep
  cases hstep with
  | @spawn i op p w hi hp =>
      cases hp
      refine h.pass ht hstep' rfl fun j th hj hop => ?_
      rcases update_eq_some hj with ⟨rfl, rfl⟩ | ⟨-, hj⟩
      · obtain ⟨c, k, hprog⟩ := route_starts haversineKm hop
        left
        constructor
        · intro op' hmem
          obtain ⟨th, hj, -⟩ := h.calls j op' hmem
          cases hi.symm.trans hj
        · rfl
        · rintro r hr
          cases hprog.symm.trans hr
        · rintro err herr
          cases hprog.symm.trans herr
      · exact h.routes j th hj hop
  | env hw =>
      cases hw
      have hnone {i : Nat} {op : Op} : Turn.serve i op ∉ [Turn.tick] := by
        intro hmem
        cases List.mem_singleton.mp hmem
      refine ⟨[.tick], h.extend (h.known.step ht hstep') hstep' rfl
        (fun _ _ hmem => absurd hmem hnone) List.nodup_nil ?_, fun _ _ hmem => absurd hmem hnone⟩
      exact fun i th hi hop => h.other hi hop fun _ => hnone
  | @run i o op c k log r w hi hr =>
      have hr : s.world.exec o c = (r, w) := Option.some.inj hr
      cases c with
      | park fields =>
          refine h.pass_run ht hi hr ?_ fun hop => ((h.known.spec i _ hi).1 hop).elim
          simp only [TripHost.exec] at hr
          split at hr <;> cases hr <;> rfl
      | patch driverId status =>
          refine h.pass_run ht hi hr (by cases hr; rfl) fun hop => ?_
          obtain ⟨-, row, hrow⟩ := (h.known.spec i _ hi).1 hop
          rcases h.routes i _ hi hop with hp | ⟨x, hx, ⟨r', hr', -⟩ | ⟨err, herr, -⟩ | hcommitted⟩
          · cases hrow.symm.trans hp.uncommitted
          · cases hr'
          · cases herr
          · exact .inr ⟨x, hx, .inr (.inr hcommitted)⟩
      | db c =>
          by_cases hcom : ∃ op log key es, CommitsAt s (.run i o) op log key es
          · obtain ⟨op', log', key, es, hc⟩ := hcom
            have hc' := hc
            obtain ⟨i', o', c', k', v, db', ⟨⟩, hi', -⟩ := hc'
            cases hi.symm.trans hi'
            exact h.commit ht hi hr hc
          · push Not at hcom
            cases hop : op.IsRoute with
            | true => exact h.read ht hi hr hop hcom
            | false =>
                obtain ⟨hdb, -⟩ := exec_of_still hi hr hcom
                exact h.pass_run ht hi hr hdb fun hroute => by cases hop.symm.trans hroute

/-- From any pool of a timely run on. -/
theorem Serial.run {acts : List TripAction} (h : Serial haversineKm db turns s)
    (hrun : (machine haversineKm).run s acts = some t)
    (ht : (machine haversineKm).Along Timely s acts) :
    ∃ new, Serial haversineKm db (turns ++ new) t ∧
      ∀ i op, .serve i op ∈ new → ∀ th, s.threads i = some th → th.Live := by
  induction acts generalizing s turns with
  | nil =>
      cases hrun
      exact ⟨[], by rwa [List.append_nil], fun _ _ hmem => absurd hmem List.not_mem_nil⟩
  | cons a acts ih =>
      rw [Machine.run_cons] at hrun
      obtain ⟨u, hu, hrun⟩ := Option.bind_eq_some_iff.mp hrun
      have hstep := (machine haversineKm).step_of_next hu
      obtain ⟨first, hserial, hfirst⟩ := h.step (ht u hu).1 hstep
      obtain ⟨rest, hserial, hrest⟩ := ih hserial hrun (ht u hu).2
      refine ⟨first ++ rest, by rwa [← List.append_assoc], fun i op hmem th hi => ?_⟩
      rcases List.mem_append.mp hmem with hmem | hmem
      · obtain ⟨th', hi', hlive⟩ := hfirst i op hmem
        cases hi.symm.trans hi'
        exact hlive
      · obtain ⟨th', hi', -, hlive⟩ := exists_thread_step hstep hi
        exact hlive (hrest i op hmem th' hi')

/-- In a timely run the pool looks at any time as if the operations had run one
at a time, and the turns that come later are those of threads that had not been
answered yet. -/
theorem serializable {acts acts' : List TripAction}
    (hrun : (machine haversineKm).run (initial db) acts = some s)
    (hrun' : (machine haversineKm).run s acts' = some t)
    (ht : (machine haversineKm).Along Timely (initial db) (acts ++ acts')) :
    ∃ turns later, OneAtATime haversineKm db turns s ∧
      OneAtATime haversineKm db (turns ++ later) t ∧
      ∀ i op, .serve i op ∈ later → ∀ th, s.threads i = some th → th.Live := by
  obtain ⟨turns, hs, -⟩ := (initial_serial haversineKm db).run hrun ht.prefix
  obtain ⟨later, hlater, hlive⟩ := hs.run hrun' (ht.suffix hrun)
  exact ⟨turns, later, hs.oneAtATime, hlater.oneAtATime, hlive⟩

/-- A test for timely steps. -/
def timelyCheck (s : TripPool) (a : TripAction) : Bool :=
  (committed s a).all fun
    | .create _ => true
    | .transition id tgt _ =>
        (s.world.db.findRide id).all fun row => canTransitionRideStatus row.status tgt

theorem timely_of_check {acts : List TripAction}
    (h : (machine haversineKm).checks (fun s a => timelyCheck s a) s acts = true) :
    (machine haversineKm).Along Timely s acts := by
  refine Machine.along_of_checks (fun s a t hcheck op log key es hc => ?_) h
  intro id tgt options row hmem hrow
  unfold timelyCheck at hcheck
  rw [hc.committed] at hcheck
  have hall : (s.world.db.findRide id).all (fun row => canTransitionRideStatus row.status tgt) =
      true := List.all_eq_true.mp hcheck _ hmem
  rw [hrow] at hall
  exact hall

/-- The rider's cancellation has read the ride before the driver's accept
commits, and commits after it. -/
theorem serializable_acceptAndCancel : ∃ s t turns later,
    (machine fun _ _ => some 0).run (initial .empty) (acceptAndCancelRead ++ [.run 2 {}]) = some s ∧
      (machine fun _ _ => some 0).run s [.run 3 {}, .run 3 {}] = some t ∧
      OneAtATime (fun _ _ => some 0) .empty turns s ∧
      OneAtATime (fun _ _ => some 0) .empty (turns ++ later) t ∧
      ∀ i op, .serve i op ∈ later → ∀ th, s.threads i = some th → th.Live := by
  have hcheck : ((machine fun _ _ => some 0).run (initial .empty)
      (acceptAndCancelRead ++ [.run 2 {}])).any (fun s =>
        ((machine fun _ _ => some 0).run s [.run 3 {}, .run 3 {}]).isSome) = true := rfl
  have ht : (machine fun _ _ => some 0).Along Timely (initial .empty)
      ((acceptAndCancelRead ++ [.run 2 {}]) ++ [.run 3 {}, .run 3 {}]) := timely_of_check rfl
  obtain ⟨s, hrun, hs⟩ := (Option.any_eq_true _ _).mp hcheck
  obtain ⟨t, hrun'⟩ := Option.isSome_iff_exists.mp hs
  obtain ⟨turns, later, h⟩ := serializable hrun hrun' ht
  exact ⟨s, t, turns, later, hrun, hrun', h⟩

end Serial

end TripService

end RydTrip
