import Mathlib.Algebra.Order.Floor.Ring
import Mathlib.Data.Rat.Floor
import Mathlib.Tactic.Linarith
import Mathlib.Tactic.NormNum
import RydTrip.Process.Transition

/-!
# The WebSocket client of the web app

A client holds at most one socket in `ws`, but the sockets it has let go of are
still there, and their callbacks still run.  The window below keeps all sockets
the client has created, in order of creation.

The callbacks do not look at the socket they belong to.  So the close of an old
socket puts a client that is connected through a new one into `RECONNECTING`,
and the reconnect then opens another socket next to it.  The last theorem says
which steps of a run do this.
-/

namespace RydTrip

namespace Web

open Process

/-! ## Delays -/

structure ReconnectConfig where
  initialDelayMs : ℚ
  maxDelayMs : ℚ
  factor : ℚ
  jitterRatio : ℚ
  deriving DecidableEq, Repr

def DEFAULT_CONFIG : ReconnectConfig where
  initialDelayMs := 1000
  maxDelayMs := 15000
  factor := 2
  jitterRatio := 1 / 5

structure ReconnectStrategy where
  attempts : Nat
  config : ReconnectConfig
  deriving DecidableEq, Repr

namespace ReconnectStrategy

def new : ReconnectStrategy where
  attempts := 0
  config := DEFAULT_CONFIG

/-- The delay before jitter is applied. -/
def rawDelay (strategy : ReconnectStrategy) : ℚ :=
  min (strategy.config.initialDelayMs * strategy.config.factor ^ (strategy.attempts - 1))
    strategy.config.maxDelayMs

/-- The next delay, for a draw `random` of `Math.random()`. -/
def getNextDelay (strategy : ReconnectStrategy) (random : ℚ) : Int × ReconnectStrategy :=
  let strategy := { strategy with attempts := strategy.attempts + 1 }
  let jitter := strategy.rawDelay * strategy.config.jitterRatio * (random * 2 - 1)
  (max 0 ⌊strategy.rawDelay + jitter⌋, strategy)

def reset (strategy : ReconnectStrategy) : ReconnectStrategy := { strategy with attempts := 0 }

/-- No delay is longer than the longest one and its jitter. -/
theorem getNextDelay_le {strategy : ReconnectStrategy} {random : ℚ}
    (hmax : 0 ≤ strategy.config.maxDelayMs) (hjitter : 0 ≤ strategy.config.jitterRatio)
    (hjitter' : strategy.config.jitterRatio ≤ 1) (h0 : 0 ≤ random) (h1 : random ≤ 1) :
    (strategy.getNextDelay random).1 ≤
      strategy.config.maxDelayMs * (1 + strategy.config.jitterRatio) := by
  have hbound : 0 ≤ strategy.config.maxDelayMs * (1 + strategy.config.jitterRatio) :=
    mul_nonneg hmax (by linarith)
  rw [getNextDelay, Int.cast_max, Int.cast_zero]
  refine max_le hbound (le_trans (Int.floor_le _) ?_)
  have hraw : rawDelay { strategy with attempts := strategy.attempts + 1 } ≤
      strategy.config.maxDelayMs := min_le_right _ _
  generalize rawDelay { strategy with attempts := strategy.attempts + 1 } = raw at hraw ⊢
  have hscale : 0 ≤ 1 + strategy.config.jitterRatio * (random * 2 - 1) := by nlinarith
  calc raw + raw * strategy.config.jitterRatio * (random * 2 - 1)
      = raw * (1 + strategy.config.jitterRatio * (random * 2 - 1)) := by ring
    _ ≤ strategy.config.maxDelayMs * (1 + strategy.config.jitterRatio * (random * 2 - 1)) :=
        mul_le_mul_of_nonneg_right hraw hscale
    _ ≤ strategy.config.maxDelayMs * (1 + strategy.config.jitterRatio) := by
        refine mul_le_mul_of_nonneg_left ?_ hmax
        nlinarith

end ReconnectStrategy

/-! ## Sockets -/

/-- `readyState` of a socket. -/
inductive ReadyState where
  | connecting
  | «open»
  | closing
  | closed
  deriving DecidableEq, Repr

/-- A socket, and whether its `onopen` has run. -/
structure WebSocket where
  url : String
  readyState : ReadyState
  opened : Bool
  deriving DecidableEq, Repr

namespace WebSocket

def new (url : String) : WebSocket where
  url := url
  readyState := .connecting
  opened := false

/-- Connecting or open. -/
def Live (socket : WebSocket) : Prop :=
  socket.readyState = .connecting ∨ socket.readyState = .open

instance (socket : WebSocket) : Decidable socket.Live :=
  inferInstanceAs (Decidable (_ ∨ _))

/-- `close()` starts the closing handshake of a live socket. -/
def close (socket : WebSocket) : WebSocket :=
  if socket.Live then { socket with readyState := .closing } else socket

/-- The connection is established.  A socket that is closing already does not
open any more. -/
def established (socket : WebSocket) : WebSocket where
  url := socket.url
  readyState := if socket.readyState = .connecting then .open else socket.readyState
  opened := true

theorem not_live_close (socket : WebSocket) : ¬ socket.close.Live := by
  unfold close
  split
  · simp [Live]
  · assumption

theorem live_established {socket : WebSocket} (h : socket.established.Live) : socket.Live := by
  unfold established at h
  by_cases hc : socket.readyState = .connecting
  · exact .inl hc
  · simpa [Live, hc] using h

end WebSocket

/-! ## The client -/

inductive ConnectionState where
  | connecting
  | connected
  | disconnected
  | reconnecting
  | «local»
  deriving DecidableEq, Repr

/-- The fields of a client.  `ws` is the number of its socket, and
`reconnectTimer` the delay of the timer that is pending. -/
structure WebSocketClient where
  ws : Option Nat
  url : String
  hasBackend : Bool
  state : ConnectionState
  reconnectStrategy : ReconnectStrategy
  reconnectTimer : Option Int
  deriving DecidableEq, Repr

namespace WebSocketClient

/-- The constructor.  An empty URL counts as none. -/
def new (url envUrl : String) : WebSocketClient where
  ws := none
  url := if url ≠ "" then url else if envUrl ≠ "" then envUrl else "ws://localhost:3000"
  hasBackend := url ≠ "" || envUrl ≠ ""
  state := .disconnected
  reconnectStrategy := .new
  reconnectTimer := none

def updateState (client : WebSocketClient) (newState : ConnectionState) : WebSocketClient :=
  { client with state := newState }

/-- What both `onerror` and `onclose` do. -/
def handleDisconnect (client : WebSocketClient) (random : ℚ) : WebSocketClient :=
  if client.state = .disconnected then client
  else
    let (delay, strategy) := client.reconnectStrategy.getNextDelay random
    { client.updateState .reconnecting with
      reconnectStrategy := strategy
      reconnectTimer := some delay }

/-- What `onopen` does. -/
def onopen (client : WebSocketClient) : WebSocketClient :=
  { client.updateState .connected with reconnectStrategy := client.reconnectStrategy.reset }

/-- `connect` gets past its guards and tries to open a socket. -/
def Opens (client : WebSocketClient) : Prop :=
  client.state ≠ .connected ∧ client.state ≠ .connecting ∧ client.hasBackend = true

instance (client : WebSocketClient) : Decidable client.Opens :=
  inferInstanceAs (Decidable (_ ∧ _))

@[simp] theorem handleDisconnect_ws (client : WebSocketClient) (random : ℚ) :
    (client.handleDisconnect random).ws = client.ws := by
  unfold handleDisconnect
  split
  · rfl
  · rfl

theorem handleDisconnect_disconnected {client : WebSocketClient} (random : ℚ)
    (h : client.state = .disconnected) : client.handleDisconnect random = client :=
  if_pos h

theorem handleDisconnect_timer {client : WebSocketClient} (random : ℚ)
    (h : client.state ≠ .disconnected) :
    (client.handleDisconnect random).reconnectTimer ≠ none := by
  rw [handleDisconnect, if_neg h]
  exact Option.some_ne_none _

end WebSocketClient

/-! ## The window -/

/-- A client with all sockets it has created, and whether `disconnect` has been
called with no call of `connect` since. -/
structure Window where
  client : WebSocketClient
  sockets : List WebSocket
  stopped : Bool
  deriving DecidableEq, Repr

inductive Event where
  /-- A call of `connect`.  If the constructor of the socket throws, `random` is
  the draw for the delay. -/
  | connect (constructed : Bool) (random : ℚ)
  /-- A call of `disconnect`. -/
  | disconnect
  /-- The reconnect timer fires. -/
  | timer (constructed : Bool) (random : ℚ)
  /-- The `onopen` of a socket. -/
  | opened (i : Nat)
  /-- The server starts to close a socket. -/
  | closing (i : Nat)
  /-- The `onerror` of a socket. -/
  | errored (i : Nat) (random : ℚ)
  /-- The `onclose` of a socket. -/
  | closed (i : Nat) (random : ℚ)
  deriving DecidableEq, Repr

namespace Window

/-- A window with a new client. -/
def new (url envUrl : String) : Window where
  client := .new url envUrl
  sockets := []
  stopped := false

/-- Socket `i` exists and is connecting or open. -/
def Live (w : Window) (i : Nat) : Prop := ∃ socket, w.sockets[i]? = some socket ∧ socket.Live

/-- Socket `i` exists and is open. -/
def Open (w : Window) (i : Nat) : Prop :=
  ∃ socket, w.sockets[i]? = some socket ∧ socket.readyState = .open

def connect (w : Window) (constructed : Bool) (random : ℚ) : Window :=
  if w.client.state = .connected ∨ w.client.state = .connecting then w
  else if !w.client.hasBackend then { w with client := w.client.updateState .local }
  else
    let client := w.client.updateState .connecting
    if constructed then
      { w with
        client := { client with ws := some w.sockets.length }
        sockets := w.sockets ++ [WebSocket.new client.url] }
    else { w with client := client.handleDisconnect random }

/-- Clearing the timer also forgets it: a cleared timer is never pending. -/
def disconnect (w : Window) : Window :=
  { w with
    client := { w.client with ws := none, reconnectTimer := none }.updateState .disconnected
    sockets :=
      match w.client.ws with
      | some i => w.sockets.modify i WebSocket.close
      | none => w.sockets }

/-- What an event does.  A socket opens at most once, and nothing comes from it
once it is closed.  The open callback of a socket may still come after the
client has called `close` on it. -/
def next (w : Window) : Event → Option Window
  | .connect constructed random => some (connect { w with stopped := false } constructed random)
  | .disconnect => some { disconnect w with stopped := true }
  | .timer constructed random =>
      if w.client.reconnectTimer = none then none
      else some (connect { w with client := { w.client with reconnectTimer := none } }
        constructed random)
  | .opened i =>
      match w.sockets[i]? with
      | none => none
      | some socket =>
          if socket.opened ∨ socket.readyState = .closed then none
          else some { w with
            client := w.client.onopen
            sockets := w.sockets.set i socket.established }
  | .closing i =>
      match w.sockets[i]? with
      | none => none
      | some socket =>
          if socket.readyState = .closed then none
          else some { w with sockets := w.sockets.set i { socket with readyState := .closing } }
  | .errored i random =>
      match w.sockets[i]? with
      | none => none
      | some socket =>
          if socket.readyState = .closed then none
          else some { w with client := w.client.handleDisconnect random }
  | .closed i random =>
      match w.sockets[i]? with
      | none => none
      | some socket =>
          if socket.readyState = .closed then none
          else some { w with
            client := w.client.handleDisconnect random
            sockets := w.sockets.set i { socket with readyState := .closed } }

/-- The client, its timer and the callbacks of its sockets. -/
def system : Transition Window Event where
  next := next

/-- At most one socket is connecting or open.  After `disconnect` no socket is
open and no reconnect is scheduled. -/
structure Safe (w : Window) : Prop where
  single : ∀ i j, w.Live i → w.Live j → i = j
  quiet : w.stopped = true → (∀ i, ¬ w.Open i) ∧ w.client.reconnectTimer = none

/-- What an event has to find for its callback to do no harm.  A socket is
opened only if the one the client holds is neither connecting nor open any
more, and a socket that fails or closes after `disconnect` finds the client
`DISCONNECTED`. -/
def Settled (w : Window) : Event → Prop
  | .connect constructed _ | .timer constructed _ =>
      constructed = true → w.client.Opens → ∀ i, w.client.ws = some i → ¬ w.Live i
  | .errored _ _ | .closed _ _ => w.stopped = true → w.client.state = .disconnected
  | _ => True

/-! ## One step -/

/-- Every live socket is the one the client holds, and a client that was told
to disconnect holds none and waits for no timer. -/
structure Tied (w : Window) : Prop where
  held : ∀ i, w.Live i → w.client.ws = some i
  stopped : w.stopped = true → w.client.ws = none ∧ w.client.reconnectTimer = none

theorem tied_new (url envUrl : String) : (new url envUrl).Tied where
  held i h := by
    obtain ⟨socket, hs, -⟩ := h
    simp [new] at hs
  stopped h := by simp [new] at h

theorem Open.live {w : Window} {i : Nat} (h : w.Open i) : w.Live i := by
  obtain ⟨socket, hs, hopen⟩ := h
  exact ⟨socket, hs, .inr hopen⟩

theorem Tied.safe {w : Window} (h : w.Tied) : w.Safe where
  single i j hi hj := by
    have hi := h.held i hi
    rw [h.held j hj] at hi
    exact (Option.some.inj hi).symm
  quiet hstopped := by
    obtain ⟨hws, htimer⟩ := h.stopped hstopped
    refine ⟨fun i hopen => ?_, htimer⟩
    have hheld := h.held i hopen.live
    rw [hws] at hheld
    cases hheld

/-- The window once `connect` has opened a socket. -/
def opening (w : Window) : Window :=
  { w with
    client := { w.client.updateState .connecting with ws := some w.sockets.length }
    sockets := w.sockets ++ [WebSocket.new w.client.url] }

/-- `connect` either opens a socket, or leaves the sockets and `ws` alone. -/
theorem connect_cases (w : Window) (constructed : Bool) (random : ℚ) :
    ((constructed = true ∧ w.client.Opens) ∧ w.connect constructed random = w.opening) ∨
      (¬ (constructed = true ∧ w.client.Opens) ∧
        (w.connect constructed random).sockets = w.sockets ∧
        (w.connect constructed random).client.ws = w.client.ws ∧
        (w.connect constructed random).stopped = w.stopped) := by
  unfold connect
  split
  case isTrue hguard =>
      refine .inr ⟨?_, rfl, rfl, rfl⟩
      rintro ⟨-, hopens⟩
      exact hguard.elim hopens.1 hopens.2.1
  case isFalse hguard =>
      rw [not_or] at hguard
      cases hb : w.client.hasBackend with
      | false =>
          refine .inr ⟨?_, rfl, rfl, rfl⟩
          rintro ⟨-, hopens⟩
          rw [hopens.2.2] at hb
          cases hb
      | true =>
          cases constructed with
          | true => exact .inl ⟨⟨rfl, hguard.1, hguard.2, hb⟩, rfl⟩
          | false =>
              refine .inr ⟨fun h => Bool.false_ne_true h.1, rfl, ?_, rfl⟩
              exact WebSocketClient.handleDisconnect_ws _ _

theorem live_opening {w : Window} {i : Nat} (h : w.opening.Live i) :
    w.Live i ∨ i = w.sockets.length := by
  obtain ⟨socket, hs, hlive⟩ := h
  rw [opening, List.getElem?_append] at hs
  split at hs
  · exact .inl ⟨socket, hs, hlive⟩
  · refine .inr ?_
    obtain ⟨hi, -⟩ := List.getElem?_eq_some_iff.mp hs
    rw [List.length_singleton] at hi
    omega

/-- The new socket is connecting. -/
theorem opening_live_new (w : Window) : w.opening.Live w.sockets.length :=
  ⟨WebSocket.new w.client.url, List.getElem?_concat_length, .inl rfl⟩

/-- The sockets there were stay as they were. -/
theorem Live.opening {w : Window} {i : Nat} (h : w.Live i) : w.opening.Live i := by
  obtain ⟨socket, hs, hlive⟩ := h
  refine ⟨socket, ?_, hlive⟩
  rw [Window.opening, List.getElem?_append_left]
  · exact hs
  · exact (List.getElem?_eq_some_iff.mp hs).1

theorem Live.lt {w : Window} {i : Nat} (h : w.Live i) : i < w.sockets.length := by
  obtain ⟨socket, hs, -⟩ := h
  exact (List.getElem?_eq_some_iff.mp hs).1

theorem live_congr {w w' : Window} (h : w'.sockets = w.sockets) {i : Nat} :
    w'.Live i ↔ w.Live i := by
  rw [Live, Live, h]

/-- A socket that is replaced by one that is live only if it was. -/
theorem live_of_set {w w' : Window} {i j : Nat} {old new : WebSocket}
    (hold : w.sockets[i]? = some old) (hset : w'.sockets = w.sockets.set i new)
    (hmono : new.Live → old.Live) (h : w'.Live j) : w.Live j := by
  obtain ⟨socket, hs, hlive⟩ := h
  rw [hset] at hs
  by_cases hij : i = j
  · subst hij
    rw [List.getElem?_set_self (List.getElem?_eq_some_iff.mp hold).1] at hs
    cases hs
    exact ⟨old, hold, hmono hlive⟩
  · rw [List.getElem?_set_ne hij] at hs
    exact ⟨socket, hs, hlive⟩

/-- The socket that `disconnect` closes is not live, and no other becomes so. -/
theorem live_disconnect {w : Window} {j : Nat} (h : w.disconnect.Live j) :
    w.Live j ∧ w.client.ws ≠ some j := by
  obtain ⟨socket, hs, hlive⟩ := h
  rw [disconnect] at hs
  cases hws : w.client.ws with
  | none =>
      rw [hws] at hs
      exact ⟨⟨socket, hs, hlive⟩, (Option.some_ne_none j).symm⟩
  | some i =>
      rw [hws] at hs
      dsimp only at hs
      rw [List.getElem?_modify, Option.map_eq_map, Option.map_eq_some_iff] at hs
      obtain ⟨old, hold, rfl⟩ := hs
      by_cases hij : i = j
      · rw [if_pos hij] at hlive
        exact absurd hlive old.not_live_close
      · rw [if_neg hij] at hlive
        exact ⟨⟨old, hold, hlive⟩, fun h => hij (Option.some.inj h)⟩

theorem disconnect_quiet (w : Window) :
    w.disconnect.client.ws = none ∧ w.disconnect.client.reconnectTimer = none :=
  ⟨rfl, rfl⟩

/-! ## Whole runs -/

/-- A step that opens no socket and makes none live keeps the tie. -/
theorem Tied.mono {w w' : Window} (h : w.Tied) (hlive : ∀ i, w'.Live i → w.Live i)
    (hws : w'.client.ws = w.client.ws)
    (hstopped : w'.stopped = true → w.stopped = true ∧ w'.client.reconnectTimer = none) :
    w'.Tied where
  held i hi := by
    rw [hws]
    exact h.held i (hlive i hi)
  stopped hs := by
    obtain ⟨hold, htimer⟩ := hstopped hs
    rw [hws]
    exact ⟨(h.stopped hold).1, htimer⟩

/-- `connect` keeps the tie if the socket that the client holds is dead
whenever it opens another. -/
theorem Tied.connect {w : Window} (h : w.Tied) (hstopped : w.stopped = false) {constructed : Bool}
    {random : ℚ}
    (hdead : constructed = true → w.client.Opens → ∀ i, w.client.ws = some i → ¬ w.Live i) :
    (w.connect constructed random).Tied := by
  rcases connect_cases w constructed random with ⟨⟨hc, hopens⟩, heq⟩ | ⟨-, hsockets, hws, hst⟩
  · rw [heq]
    refine ⟨fun i hi => ?_, fun hs => ?_⟩
    · rcases live_opening hi with hold | hnew
      · exact absurd hold (hdead hc hopens i (h.held i hold))
      · rw [hnew]
        rfl
    · rw [opening, hstopped] at hs
      cases hs
  · refine h.mono (fun i hi => (live_congr hsockets).mp hi) hws fun hs => ?_
    rw [hst, hstopped] at hs
    cases hs

/-- `connect` breaks safety if it opens a socket next to a live one. -/
theorem not_safe_connect {w : Window} {constructed : Bool} {random : ℚ} {i : Nat}
    (hc : constructed = true) (hopens : w.client.Opens) (hlive : w.Live i) :
    ¬ (w.connect constructed random).Safe := by
  rcases connect_cases w constructed random with ⟨-, heq⟩ | ⟨hnot, -⟩
  · rw [heq]
    intro hsafe
    have hi := hsafe.single i w.sockets.length hlive.opening w.opening_live_new
    exact absurd hlive.lt (by omega)
  · exact absurd ⟨hc, hopens⟩ hnot

/-- A callback comes from a socket that is there. -/
theorem callback_eq_some {c : WebSocket → Prop} [DecidablePred c] {f : WebSocket → Window}
    {found : Option WebSocket} {w' : Window}
    (h : (match found with
      | none => none
      | some socket => if c socket then none else some (f socket)) = some w') :
    ∃ socket, found = some socket ∧ w' = f socket := by
  cases found with
  | none => cases h
  | some socket =>
      dsimp only at h
      split at h
      · cases h
      · cases h
        exact ⟨socket, rfl, rfl⟩

theorem next_opened {w w' : Window} {i : Nat} (h : w.next (.opened i) = some w') :
    ∃ socket, w.sockets[i]? = some socket ∧
      w' = { w with client := w.client.onopen, sockets := w.sockets.set i socket.established } :=
  callback_eq_some h

theorem next_closing {w w' : Window} {i : Nat} (h : w.next (.closing i) = some w') :
    ∃ socket, w.sockets[i]? = some socket ∧
      w' = { w with sockets := w.sockets.set i { socket with readyState := .closing } } :=
  callback_eq_some h

theorem next_errored {w w' : Window} {i : Nat} {random : ℚ}
    (h : w.next (.errored i random) = some w') :
    w' = { w with client := w.client.handleDisconnect random } := by
  obtain ⟨-, -, heq⟩ := callback_eq_some h
  exact heq

theorem next_closed {w w' : Window} {i : Nat} {random : ℚ}
    (h : w.next (.closed i random) = some w') :
    ∃ socket, w.sockets[i]? = some socket ∧
      w' = { w with
        client := w.client.handleDisconnect random
        sockets := w.sockets.set i { socket with readyState := .closed } } :=
  callback_eq_some h

theorem next_timer {w w' : Window} {constructed : Bool} {random : ℚ}
    (h : w.next (.timer constructed random) = some w') :
    w.client.reconnectTimer ≠ none ∧
      w' = connect { w with client := { w.client with reconnectTimer := none } }
        constructed random := by
  simp only [next] at h
  split at h
  case isTrue => cases h
  case isFalse hpending =>
      cases h
      exact ⟨hpending, rfl⟩

/-- A client that waits for its timer has not been told to disconnect. -/
theorem Tied.not_stopped {w : Window} (h : w.Tied) (hpending : w.client.reconnectTimer ≠ none) :
    w.stopped = false := by
  cases hs : w.stopped with
  | true => exact absurd (h.stopped hs).2 hpending
  | false => rfl

/-- A settled event keeps the tie. -/
theorem next_tied (w : Window) (e : Event) (w' : Window) (h : w.Tied)
    (hnext : system.next w e = some w') (hsettled : w.Settled e) : w'.Tied := by
  cases e with
  | connect constructed random =>
      cases hnext
      have hfresh : Tied { w with stopped := false } := h.mono (fun _ hi => hi) rfl nofun
      exact hfresh.connect rfl hsettled
  | disconnect =>
      cases hnext
      refine ⟨fun i hi => ?_, fun _ => w.disconnect_quiet⟩
      obtain ⟨hlive, hother⟩ := live_disconnect hi
      exact absurd (h.held i hlive) hother
  | timer constructed random =>
      obtain ⟨hpending, rfl⟩ := next_timer hnext
      have hfired : Tied { w with client := { w.client with reconnectTimer := none } } :=
        h.mono (fun _ hi => hi) rfl fun hs => ⟨hs, rfl⟩
      exact hfired.connect (h.not_stopped hpending) hsettled
  | opened i =>
      obtain ⟨socket, hs, rfl⟩ := next_opened hnext
      refine h.mono (fun j => ?_) rfl fun hstop => ⟨hstop, (h.stopped hstop).2⟩
      exact live_of_set hs rfl WebSocket.live_established
  | closing i =>
      obtain ⟨socket, hs, rfl⟩ := next_closing hnext
      refine h.mono (fun j => ?_) rfl fun hstop => ⟨hstop, (h.stopped hstop).2⟩
      exact live_of_set hs rfl fun hlive => by simp [WebSocket.Live] at hlive
  | errored i random =>
      cases next_errored hnext
      refine h.mono (fun _ hj => hj) (WebSocketClient.handleDisconnect_ws _ _) fun hstop => ?_
      dsimp only
      rw [WebSocketClient.handleDisconnect_disconnected _ (hsettled hstop)]
      exact ⟨hstop, (h.stopped hstop).2⟩
  | closed i random =>
      obtain ⟨socket, hs, rfl⟩ := next_closed hnext
      refine h.mono (fun j => ?_) (WebSocketClient.handleDisconnect_ws _ _) fun hstop => ?_
      · exact live_of_set hs rfl fun hlive => by simp [WebSocket.Live] at hlive
      · dsimp only
        rw [WebSocketClient.handleDisconnect_disconnected _ (hsettled hstop)]
        exact ⟨hstop, (h.stopped hstop).2⟩

/-- An event that is not settled makes the window unsafe. -/
theorem not_safe_of_not_settled (w : Window) (e : Event) (w' : Window)
    (hnext : system.next w e = some w') (hsettled : ¬ w.Settled e) : ¬ w'.Safe := by
  cases e with
  | connect constructed random =>
      cases hnext
      simp only [Settled, Classical.not_imp, not_forall, not_not] at hsettled
      obtain ⟨hc, hopens, i, -, hlive⟩ := hsettled
      exact not_safe_connect hc hopens hlive
  | disconnect => exact absurd trivial hsettled
  | timer constructed random =>
      obtain ⟨-, rfl⟩ := next_timer hnext
      simp only [Settled, Classical.not_imp, not_forall, not_not] at hsettled
      obtain ⟨hc, hopens, i, -, hlive⟩ := hsettled
      exact not_safe_connect hc hopens hlive
  | opened i => exact absurd trivial hsettled
  | closing i => exact absurd trivial hsettled
  | errored i random =>
      cases next_errored hnext
      simp only [Settled, Classical.not_imp] at hsettled
      intro hsafe
      exact WebSocketClient.handleDisconnect_timer _ hsettled.2 (hsafe.quiet hsettled.1).2
  | closed i random =>
      obtain ⟨socket, -, rfl⟩ := next_closed hnext
      simp only [Settled, Classical.not_imp] at hsettled
      intro hsafe
      exact WebSocketClient.handleDisconnect_timer _ hsettled.2 (hsafe.quiet hsettled.1).2

/-- A run of a new client stays safe exactly if all its events are settled: no
socket is opened while the one the client holds is still connecting or open,
and no socket fails or closes after `disconnect` in a client that a late
`onopen` has made `CONNECTED` again. -/
theorem safe_iff_settled (url envUrl : String) (events : List Event) :
    system.Along (fun _ _ w' => w'.Safe) (new url envUrl) events ↔
      system.Along (fun w e _ => w.Settled e) (new url envUrl) events := by
  refine Transition.along_iff_of_invariant (I := Tied) ?_ next_tied (tied_new url envUrl)
  intro w e w' h hnext
  constructor
  · intro hsafe
    by_contra hsettled
    exact not_safe_of_not_settled w e w' hnext hsettled hsafe
  · intro hsettled
    exact (next_tied w e w' h hnext hsettled).safe

/-- The client disconnects and connects again before its old socket has closed.
The late close of the old socket then makes it open a third one next to the
second. -/
def lateClose : List Event :=
  [.connect true 0, .opened 0, .disconnect, .connect true 0, .closed 0 0, .timer true 0]

/-- After the late close two sockets are connecting at once. -/
theorem lateClose_not_safe :
    ¬ ∀ url envUrl events, (new url envUrl).client.hasBackend = true →
      system.Along (fun _ _ w' => w'.Safe) (new url envUrl) events := by
  intro hall
  have hrun : ∃ w, system.run (new "wss://gateway" "") lateClose = some w ∧
      w.Live 1 ∧ w.Live 2 := by
    refine ⟨_, rfl, ⟨_, rfl, .inl rfl⟩, ⟨_, rfl, .inl rfl⟩⟩
  obtain ⟨w, hw, h1, h2⟩ := hrun
  have hsafe : w.Safe := Transition.run_invariant (fun _ _ _ _ _ h => h)
    (tied_new "wss://gateway" "").safe (hall "wss://gateway" "" lateClose rfl) hw
  exact absurd (hsafe.single 1 2 h1 h2) (by decide)

end Window

end Web

end RydTrip
