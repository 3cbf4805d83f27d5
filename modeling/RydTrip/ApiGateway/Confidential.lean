import RydTrip.ApiGateway.Replies
import RydTrip.TripService.Secret
import RydTrip.TripService.Sequential

/-!
# Nobody else learns a code

Two trip databases that differ in the code of one ride only: whatever goes
through the gateway is answered alike from both and leaves them so, as long as it
is not the rider who asks for the code or the driver who tries one.

An answer to HEAD has no body, so the rider learns nothing from that either.
-/

namespace RydTrip

namespace ApiGateway

open Http Process TripService

/-- The rider of the ride asks for its code, or its driver starts the trip. -/
def GatewayCall.MayKnow (jwt : JwtService) (call : GatewayCall) (row : RideRow) : Prop :=
  ∃ req uuid draw user, call.arrival = .request req uuid draw ∧ verified jwt req = some user ∧
    (req.method = "GET" ∧ user.sub = row.riderId ∧
        call.arrival.op? jwt = some (.getOtp row.id (some user.sub)) ∨
      req.method = "POST" ∧ some user.sub = row.driverId ∧
        ∃ otp, call.arrival.op? jwt = some (.start row.id otp (some user.sub)))

/-- A thread that makes its first step does not serve such a call for the ride
`id`. -/
def Undisclosed (jwt : JwtService) (id : String) (s : GatewayPool) : GatewayAction → Prop
  | .run i _ => ∀ th row, s.threads i = some th → th.log = [] →
      s.world.db.findRide id = some row → ¬ th.call.MayKnow jwt row
  | _ => True

/-- The databases differ in the code of the ride only, and the clients have
received the same. -/
structure SameButCode (id : String) (s s' : GatewayPool) : Prop where
  world : s.world.hide id = s'.world.hide id
  received : ∀ i, received s i = received s' i

/-- The action is a step of thread 0, or time passing. -/
def Lone : GatewayAction → Prop
  | .spawn .. => False
  | .run i _ => i = 0
  | .env _ => True

/-! ## Blindness -/

section Blind

variable {haversineKm : GeoPoint → GeoPoint → Option Rat} {jwt : JwtService} {id : String}

/-- The reply does not make the call one that may know the code. -/
def GatewayCall.Refused (jwt : JwtService) (id : String) (call : GatewayCall) (c : Cmd)
    (r : Reply c) : Prop :=
  ∀ req uuid draw op, call.arrival = .request req uuid draw → req.method ≠ "HEAD" →
    call.arrival.op? jwt = some op → op.Refused id c r

/-- Nothing of a service's answer depends on the code. -/
theorem serve_blindAfter {call : GatewayCall} {req : Request Body} {uuid : String}
    {draw : Fin 10000} {route : ProxyRoute} {forwarded : Forwarded Body}
    (hcall : call.arrival = .request req uuid draw)
    (hforward : forward jwt req uuid = .ok (route, forwarded))
    {f : HttpReply → Option GatewayReply}
    (hf : forwarded.method = "HEAD" → ∀ reply reply', f reply = f reply') :
    (serve haversineKm forwarded draw call.elsewhere >>= fun reply =>
      (.ret (f reply) : Trip _)).BlindAfter (Cmd.view id) (call.Refused jwt id) := by
  obtain ⟨-, -, -, hmethod, -⟩ := forward_ok hforward
  unfold serve
  split
  next htrip =>
    cases htripCall : tripCall forwarded draw with
    | op op =>
        have hop : call.arrival.op? jwt = some op := by
          rw [hcall]
          simp only [Arrival.op?, hforward]
          exact Forwarded.op?_eq_some.mpr ⟨htrip, htripCall⟩
        rw [serveTrip_op htripCall, Prog.bind_bind]
        by_cases hhead : forwarded.method = "HEAD"
        · by_cases hget : ∃ id' caller, op = .getOtp id' caller
          · obtain ⟨id', caller, rfl⟩ := hget
            have hconst : (fun outcome : Except TripError Response =>
                (.ret (tripReply forwarded.method outcome) : Trip _) >>= fun reply =>
                  (.ret (f reply) : Trip _)) = fun _ => .ret (f ⟨200, .text ""⟩) :=
              funext fun outcome => congrArg Prog.ret (hf hhead _ _)
            rw [hconst]
            exact (getOtp_ignored_blind haversineKm id' caller _).blindAfter
          · refine ((program_blindAfter haversineKm op).attempt.mono fun c r _ => ?_).bind
              fun _ => trivial
            refine refused_of_other (fun id' caller h => hget ⟨id', caller, h⟩) ?_ c r
            rintro id' otp caller rfl
            rw [hcall] at hop
            have hpost := (caller_of_start hop).1
            rw [← hmethod, hhead] at hpost
            exact absurd hpost (by decide)
        · refine ((program_blindAfter haversineKm op).attempt.mono fun c r hr => ?_).bind
            fun _ => trivial
          exact hr req uuid draw op hcall (fun h => hhead (hmethod.trans h)) hop
    | notFound =>
        unfold serveTrip
        rw [htripCall]
        trivial
    | badRequest messages =>
        unfold serveTrip
        rw [htripCall]
        trivial
  next => trivial

theorem handle_blindAfter (call : GatewayCall) :
    (handle haversineKm jwt call).BlindAfter (Cmd.view id) (call.Refused jwt id) := by
  unfold handle
  split
  next maxAttempts envelope harrival =>
    refine ((consume_blind maxAttempts envelope).bind fun u => ?_).blindAfter
    trivial
  next req uuid draw harrival =>
    split
    next => trivial
    next route forwarded hforward =>
      split
      next => trivial
      next =>
        exact serve_blindAfter (f := fun _ => some (.own (badGatewayReply route))) harrival hforward
          fun _ _ _ => rfl
      next =>
        refine serve_blindAfter (f := fun reply => some (relay route forwarded reply)) harrival
          hforward fun hhead reply reply' => ?_
        simp only [relay, hhead, if_true]

/-- The gatewayMachine answers alike. -/
theorem gatewayMachine_veiled :
    (gatewayMachine haversineKm jwt).Veiled (TripHost.hide id) (Cmd.view id) where
  exec o c w w' h := congrArg some (TripHost.exec_hide o c h)
  start call w w' h := congrArg some (Prod.ext rfl h)
  env u w w' h := by
    obtain ⟨hdb, hpatches, hparked⟩ := TripHost.mk.inj h
    obtain ⟨hrides, hevents, hprocessed, hnow⟩ := TripDb.mk.inj hdb
    refine congrArg some ?_
    simp only [TripHost.hide, TripDb.hide, hrides, hevents, hprocessed, hnow, hpatches, hparked]

end Blind

/-! ## Runs -/

section Runs

variable {haversineKm : GeoPoint → GeoPoint → Option Rat} {jwt : JwtService} {id : String}
  {s s' t : GatewayPool} {a : GatewayAction} {acts : List GatewayAction} {db db' : TripDb}

/-- The row that a call is answered with is the one of the database. -/
theorem firstReplies_of_undisclosed (h : Undisclosed jwt id s a) :
    FirstReplies (gatewayMachine haversineKm jwt) (fun call => call.Refused jwt id) s a := by
  cases a with
  | spawn i call => trivial
  | env u => trivial
  | run i o =>
      intro call c k r w hi hr req uuid draw op harrival hhead hop
      unfold Op.Refused
      split
      next asked row =>
        have hrow : some row = s.world.db.findRide asked := accurate_of_exec (Option.some.inj hr)
        have hknow := h _ row hi rfl
        rw [harrival] at hop
        split
        next id' caller =>
          rintro rfl rfl
          obtain ⟨hmethod, user, hverified, rfl⟩ := caller_of_getOtp hop
          refine ⟨user.sub, truthy_sub hverified, fun hsub => hknow hrow.symm ?_⟩
          refine ⟨req, uuid, draw, user, harrival, hverified, .inl ⟨?_, hsub.symm, ?_⟩⟩
          · exact hmethod.resolve_right hhead
          · rw [harrival, TripDb.findRide_id hrow.symm]
            exact hop
        next id' otp caller =>
          rintro rfl rfl
          obtain ⟨hmethod, user, hverified, rfl⟩ := caller_of_start hop
          refine ⟨user.sub, truthy_sub hverified, fun hsub => hknow hrow.symm ?_⟩
          refine ⟨req, uuid, draw, user, harrival, hverified, .inr ⟨hmethod, hsub.symm, otp, ?_⟩⟩
          rw [harrival, TripDb.findRide_id hrow.symm]
          exact hop
        next => trivial
      next => trivial

theorem received_eq (s : GatewayPool) (i : Nat) :
    received s i = ((s.threads i).map Thread.rest).bind fun rest => replyOf rest.2 := by
  unfold received
  cases s.threads i with
  | none => rfl
  | some th => rfl

theorem sameButCode_of_alike (h : Alike (TripHost.hide id) s s') : SameButCode id s s' where
  world := h.world
  received i := by rw [received_eq, received_eq, h.threads i]

theorem initialGateway_blind : ThreadsBlind (Cmd.view id)
    (fun call : GatewayCall => call.Refused jwt id) (initialGateway db) := by
  rintro i th ⟨⟩

theorem initialGateway_alike (h : db.hide id = db'.hide id) :
    Alike (TripHost.hide id) (initialGateway db) (initialGateway db') :=
  ⟨congrArg (fun db => TripHost.mk db [] []) h, fun _ => rfl⟩

/-! ## One call by itself -/

/-- Only the call has been started, and before its first reply the ride is what
it was. -/
def LoneCall (call : GatewayCall) (id : String) (db : TripDb) (s : GatewayPool) : Prop :=
  ∀ i th, s.threads i = some th →
    i = 0 ∧ th.call = call ∧ (th.log = [] → s.world.db.findRide id = db.findRide id)

theorem LoneCall.step {call : GatewayCall} (hs : LoneCall call id db s) (ha : Lone a)
    (hstep : (gatewayMachine haversineKm jwt).Step s a t) : LoneCall call id db t := by
  intro j th hj
  cases hstep with
  | spawn hi hp => cases ha
  | @run i o call' c k log r w hi hr =>
      rcases update_eq_some hj with ⟨rfl, rfl⟩ | ⟨hne, hj⟩
      · refine ⟨ha, (hs j _ hi).2.1, fun hlog => ?_⟩
        cases hlog
      · -- there is no other thread
        exact absurd ((hs j th hj).1.trans (hs i _ hi).1.symm) hne
  | @env u w hw =>
      cases hw
      exact hs j th hj

theorem LoneCall.undisclosed {call : GatewayCall} (hs : LoneCall call id db s)
    (hcall : ∀ row, db.findRide id = some row → ¬ call.MayKnow jwt row) :
    Undisclosed jwt id s a := by
  cases a with
  | spawn i call => trivial
  | env u => trivial
  | run i o =>
      intro th row hi hlog hrow
      obtain ⟨-, rfl, hsame⟩ := hs i th hi
      exact hcall row ((hsame hlog).symm.trans hrow)

theorem LoneCall.along {call : GatewayCall} (hs : LoneCall call id db s)
    (hcall : ∀ row, db.findRide id = some row → ¬ call.MayKnow jwt row)
    (hacts : ∀ a ∈ acts, Lone a) :
    (gatewayMachine haversineKm jwt).Along (fun s a _ => Undisclosed jwt id s a) s acts := by
  induction acts generalizing s with
  | nil => trivial
  | cons a acts ih =>
      intro t ht
      refine ⟨hs.undisclosed hcall, ih ?_ fun b hb => hacts b (.tail _ hb)⟩
      exact hs.step (hacts a (.head _)) ((gatewayMachine haversineKm jwt).step_of_next ht)

theorem loneCall_spawn {call : GatewayCall}
    (hnext : (gatewayMachine haversineKm jwt).next (initialGateway db) (.spawn 0 call) = some s) :
    LoneCall call id db s := by
  intro j th hj
  cases (gatewayMachine haversineKm jwt).step_of_next hnext with
  | spawn hi hp =>
      cases hp
      rcases update_eq_some hj with ⟨rfl, rfl⟩ | ⟨-, hj⟩
      · exact ⟨rfl, rfl, fun _ => rfl⟩
      · cases hj

/-! ## Confidentiality -/

/-- From two databases that differ in the code of a ride only, every call by
itself, and every run, gives the clients the same and leaves the databases so,
unless the rider asks for the code or the driver starts the trip. -/
theorem code_confidential (hdb : db.hide id = db'.hide id) :
    (∀ call acts s, (∀ row, db.findRide id = some row → ¬ call.MayKnow jwt row) →
      (∀ a ∈ acts, Lone a) →
      (gatewayMachine haversineKm jwt).run (initialGateway db) (.spawn 0 call :: acts) = some s →
      ∃ s', (gatewayMachine haversineKm jwt).run (initialGateway db') (.spawn 0 call :: acts) =
          some s' ∧ SameButCode id s s') ∧
    ∀ acts s,
      (gatewayMachine haversineKm jwt).Along (fun s a _ => Undisclosed jwt id s a)
        (initialGateway db) acts →
      (gatewayMachine haversineKm jwt).run (initialGateway db) acts = some s →
      ∃ s', (gatewayMachine haversineKm jwt).run (initialGateway db') acts = some s' ∧
        SameButCode id s s' := by
  have hall (acts : List GatewayAction) (s : GatewayPool)
      (hfree : (gatewayMachine haversineKm jwt).Along (fun s a _ => Undisclosed jwt id s a)
        (initialGateway db) acts)
      (hrun : (gatewayMachine haversineKm jwt).run (initialGateway db) acts = some s) :
      ∃ s', (gatewayMachine haversineKm jwt).run (initialGateway db') acts = some s' ∧
        SameButCode id s s' := by
    have hstart (call : GatewayCall) (w : TripHost) (p : Trip (Option GatewayReply))
        (w' : TripHost) (h : (gatewayMachine haversineKm jwt).start call w = some (p, w')) :
        p.BlindAfter (Cmd.view id) (call.Refused jwt id) := by
      cases h
      exact handle_blindAfter call
    obtain ⟨s', hrun', halike⟩ := gatewayMachine_veiled.run hstart
      (fun s a _ h => firstReplies_of_undisclosed h) (initialGateway_alike hdb)
      initialGateway_blind hfree hrun
    exact ⟨s', hrun', sameButCode_of_alike halike⟩
  refine ⟨fun call acts s hcall hacts hrun => hall _ s ?_ hrun, hall⟩
  intro t ht
  exact ⟨trivial, (loneCall_spawn ht).along hcall hacts⟩

/-- The token of a driver who is not the one of the ride. -/
def strangerToken : JwtService where
  verify token := if token = "t" then some ⟨"driver-2", .driver⟩ else none
  isPlain_sub token user h := by
    split at h
    · cases h
      decide
    · cases h

/-- The stranger tries a code. -/
def strangerStart : GatewayCall where
  arrival := .request
    { method := "POST"
      path := "trips/ride-1/start".toList
      headers := fun name => if name = "authorization" then some "Bearer t" else none
      limit := none
      body := { otp := .text "0007" } }
    "c" ⟨0, by decide⟩

/-- A driver waits at the pickup, and the rider has this code. -/
def waitingDb (otp : String) : TripDb :=
  { TripDb.empty with
    rides := [⟨"ride-1", "rider-1", some "driver-1", ⟨0, 0⟩, ⟨0, 0⟩, .driverArrived, none, some otp,
      none, none, 0, 0⟩] }

/-- The stranger is sent away from either database with the same words. -/
theorem strangerStart_confidential :
    ∃ s, (gatewayMachine (fun _ _ => some 0) strangerToken).run (initialGateway (waitingDb "4321"))
        [.spawn 0 strangerStart, .run 0 {}] = some s ∧
      received s 0 = some (.relayed "c"
        ⟨403, .message "Only the assigned driver can start this trip"⟩) := by
  have hrun : ∃ s, (gatewayMachine (fun _ _ => some 0) strangerToken).run
        (initialGateway (waitingDb "0007")) [.spawn 0 strangerStart, .run 0 {}] = some s ∧
      received s 0 = some (.relayed "c"
        ⟨403, .message "Only the assigned driver can start this trip"⟩) := ⟨_, rfl, by decide⟩
  obtain ⟨s, hrun, hreply⟩ := hrun
  have hdb : (waitingDb "0007").hide "ride-1" = (waitingDb "4321").hide "ride-1" := rfl
  obtain ⟨s', hrun', hsame⟩ := (code_confidential hdb).1 strangerStart [.run 0 {}] s (by
    rintro row ⟨⟩ ⟨req, uuid, draw, user, ⟨⟩, hverified, ⟨hmethod, -⟩ | ⟨-, hsub, -⟩⟩
    · exact absurd hmethod (by decide)
    · cases hverified
      exact absurd hsub (by decide)) (fun a ha => by
    rw [List.mem_singleton.mp ha]
    rfl) hrun
  exact ⟨s', hrun', (hsame.received 0).symm.trans hreply⟩

end Runs

end ApiGateway

end RydTrip
