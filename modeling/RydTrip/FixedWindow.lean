import Mathlib.Data.List.Basic
import Mathlib.Logic.Function.Basic

/-!
# Fixed-window counters

A table of windows, one for each key.  A hit falls into the window of its key,
or opens one when there is none or its time is over, and it is accepted while
the window has room.  A sweep removes windows whose time is over.

Only the live window of a key matters for a hit, so sweeps change nothing.  The
bounds on what is accepted are by induction over the events that are still to
come: what is left of the window that is live now, and at most one window after
it.
-/

namespace FixedWindow

/-! ## Windows -/

structure Window where
  count : Nat
  resetAt : Nat
  deriving DecidableEq, Repr

/-- A hit on a key, with the limit and the window length that it is held to. -/
structure Hit (κ : Type) where
  key : κ
  limit : Nat
  windowMs : Nat
  time : Nat
  deriving DecidableEq, Repr

abbrev Table (κ : Type) : Type := κ → Option Window

inductive Event (κ : Type) where
  | hit (h : Hit κ)
  | sweep (now : Nat)
  deriving DecidableEq, Repr

variable {κ : Type}

def Event.time : Event κ → Nat
  | .hit h => h.time
  | .sweep now => now

namespace Table

/-- The window of the key, if its time is not over. -/
def live (t : Table κ) (key : κ) (now : Nat) : Option Window :=
  (t key).filter fun w => decide (now < w.resetAt)

def sweep (t : Table κ) (now : Nat) : Table κ := fun key => t.live key now

end Table

section Live

variable {t : Table κ} {key : κ} {now later : Nat} {w : Window}

theorem Table.live_eq_some : t.live key now = some w ↔ t key = some w ∧ now < w.resetAt := by
  unfold Table.live
  rw [Option.filter_eq_some_iff, decide_eq_true_eq]

theorem Table.live_eq_none : t.live key now = none ↔ ∀ w, t key = some w → w.resetAt ≤ now := by
  unfold Table.live
  rw [Option.filter_eq_none_iff]
  constructor
  · intro h w hw
    have hnot := h w hw
    rw [decide_eq_true_eq] at hnot
    omega
  · intro h w hw
    rw [decide_eq_true_eq]
    have hle := h w hw
    omega

theorem Table.live_later (hle : now ≤ later) (key : κ) :
    t.live key later = (t.live key now).filter fun w => decide (later < w.resetAt) := by
  unfold Table.live
  cases hw : t key with
  | none => rfl
  | some w =>
      by_cases hnow : now < w.resetAt
      · rw [Option.filter_some (p := fun w : Window => decide (now < w.resetAt)),
          if_pos (decide_eq_true hnow)]
      · have hlater : ¬ later < w.resetAt := by omega
        rw [Option.filter_some, if_neg (by simpa using hlater), Option.filter_some,
          if_neg (by simpa using hnow)]
        rfl

end Live

/-- Whether a hit is accepted, and the window that it falls into. -/
def serve (h : Hit κ) : Option Window → Bool × Window
  | none => (true, ⟨1, h.time + h.windowMs⟩)
  | some w => if h.limit ≤ w.count then (false, w) else (true, ⟨w.count + 1, w.resetAt⟩)

variable [DecidableEq κ]

/-- The answer to a hit, and the table after it. -/
def Table.hit (t : Table κ) (h : Hit κ) : (Bool × Window) × Table κ :=
  let served := serve h (t.live h.key h.time)
  (served, Function.update t h.key (some served.2))

def Table.after (t : Table κ) : Event κ → Table κ
  | .hit h => (t.hit h).2
  | .sweep now => t.sweep now

/-- What is known of a hit that has been answered. -/
structure Entry (κ : Type) where
  hit : Hit κ
  accepted : Bool
  /-- Of the window that it has fallen into. -/
  resetAt : Nat
  deriving DecidableEq, Repr

def trace : Table κ → List (Event κ) → List (Entry κ)
  | _, [] => []
  | t, .hit h :: events =>
      ⟨h, (t.hit h).1.1, (t.hit h).1.2.resetAt⟩ :: trace (t.hit h).2 events
  | t, .sweep now :: events => trace (t.sweep now) events

/-- The clock does not go back. -/
def InOrder : Nat → List (Event κ) → Prop
  | _, [] => True
  | now, event :: events => now ≤ event.time ∧ InOrder event.time events

/-- How many hits on the key are accepted from `lo` on and before `hi`. -/
def acceptedIn (key : κ) (lo hi : Nat) (entries : List (Entry κ)) : Nat :=
  entries.countP fun e =>
    e.accepted && decide (e.hit.key = key) && decide (lo ≤ e.hit.time) && decide (e.hit.time < hi)

/-! ## Sweeps -/

section Sweeps

variable {t t' : Table κ} {now later : Nat}

/-- The tables have the same live windows from now on. -/
def Agree (now : Nat) (t t' : Table κ) : Prop := ∀ key, t.live key now = t'.live key now

omit [DecidableEq κ] in
theorem Agree.mono (h : Agree now t t') (hle : now ≤ later) : Agree later t t' := by
  intro key
  rw [Table.live_later hle, Table.live_later hle, h key]

omit [DecidableEq κ] in
theorem agree_sweep (hle : now ≤ later) (h : Agree now t t') : Agree later (t.sweep later) t' := by
  intro key
  rw [← h.mono hle key]
  exact (Table.live_later (Nat.le_refl later) key).symm

theorem Table.live_update (t : Table κ) (key key' : κ) (w : Window) (now : Nat) :
    Table.live (Function.update t key' (some w)) key now =
      if key = key' then (some w).filter fun w => decide (now < w.resetAt)
      else t.live key now := by
  unfold Table.live
  split
  next heq =>
    subst heq
    rw [Function.update_self]
  next hne => rw [Function.update_of_ne hne]

/-- Tables that agree answer a hit alike, and agree after it. -/
theorem Agree.hit {h : Hit κ} (hagree : Agree h.time t t') :
    (t.hit h).1 = (t'.hit h).1 ∧ Agree h.time (t.hit h).2 (t'.hit h).2 := by
  have hserve : (t.hit h).1 = (t'.hit h).1 := congrArg (serve h) (hagree h.key)
  refine ⟨hserve, fun key => ?_⟩
  unfold Table.hit at hserve ⊢
  rw [Table.live_update, Table.live_update, show serve h (t.live h.key h.time) = _ from hserve,
    hagree key]

end Sweeps

/-! ## What is accepted -/

section Bounds

variable {t : Table κ} {key : κ} {limit windowMs now lo hi : Nat} {w : Window}
  {events : List (Event κ)}

/-- Every hit on the key is held to this limit and this window length. -/
def Uniform (key : κ) (limit windowMs : Nat) (events : List (Event κ)) : Prop :=
  ∀ h, .hit h ∈ events → h.key = key → h.limit = limit ∧ h.windowMs = windowMs

omit [DecidableEq κ] in
theorem Uniform.tail {event : Event κ} (h : Uniform key limit windowMs (event :: events)) :
    Uniform key limit windowMs events :=
  fun hit hmem => h hit (.tail _ hmem)

theorem acceptedIn_cons (e : Entry κ) (entries : List (Entry κ)) :
    acceptedIn key lo hi (e :: entries) = acceptedIn key lo hi entries +
      if e.accepted = true ∧ e.hit.key = key ∧ lo ≤ e.hit.time ∧ e.hit.time < hi then 1 else 0 := by
  unfold acceptedIn
  rw [List.countP_cons]
  simp only [Bool.and_eq_true, decide_eq_true_eq, and_assoc]

theorem acceptedIn_mono {hi' : Nat} (hle : hi ≤ hi') (entries : List (Entry κ)) :
    acceptedIn key lo hi entries ≤ acceptedIn key lo hi' entries := by
  induction entries with
  | nil => exact Nat.le_refl _
  | cons e entries ih =>
      rw [acceptedIn_cons, acceptedIn_cons]
      refine Nat.add_le_add ih ?_
      split
      next hin =>
        obtain ⟨haccepted, hkey, hlo, hlt⟩ := hin
        exact Nat.le_of_eq (if_pos ⟨haccepted, hkey, hlo, Nat.lt_of_lt_of_le hlt hle⟩).symm
      next => exact Nat.zero_le _

/-- Nothing that is still to come is accepted before now. -/
theorem acceptedIn_late (horder : InOrder now events) (hle : hi ≤ now) (t : Table κ) :
    acceptedIn key lo hi (trace t events) = 0 := by
  induction events generalizing now t with
  | nil => rfl
  | cons event events ih =>
      obtain ⟨htime, horder⟩ := horder
      have hlater : hi ≤ event.time := by omega
      cases event with
      | hit h =>
          have hlater : hi ≤ h.time := hlater
          rw [trace, acceptedIn_cons, ih horder hlater, if_neg]
          rintro ⟨-, -, -, hlt⟩
          have hlt : h.time < hi := hlt
          omega
      | sweep later => exact ih horder hlater _

theorem Table.hit_table (t : Table κ) (h : Hit κ) :
    (t.hit h).2 = Function.update t h.key (some (t.hit h).1.2) := rfl

/-- A hit on another key leaves the window alone. -/
theorem Table.hit_of_ne {h : Hit κ} (hne : h.key ≠ key) : (t.hit h).2 key = t key :=
  Function.update_of_ne (Ne.symm hne) _ _

/-- A hit in a live window. -/
theorem Table.hit_live {h : Hit κ} (hw : t h.key = some w) (hlt : h.time < w.resetAt) :
    (h.limit ≤ w.count ∧ (t.hit h).1 = (false, w) ∧ (t.hit h).2 h.key = some w) ∨
      (w.count < h.limit ∧ (t.hit h).1 = (true, ⟨w.count + 1, w.resetAt⟩) ∧
        (t.hit h).2 h.key = some ⟨w.count + 1, w.resetAt⟩) := by
  have hserved : (t.hit h).1 = serve h (some w) :=
    congrArg (serve h) (Table.live_eq_some.mpr ⟨hw, hlt⟩)
  have hself : (t.hit h).2 h.key = some (t.hit h).1.2 := Function.update_self ..
  have hserve : serve h (some w) =
      if h.limit ≤ w.count then (false, w) else (true, ⟨w.count + 1, w.resetAt⟩) := rfl
  rw [hself, hserved, hserve]
  rcases Nat.lt_or_ge w.count h.limit with hroom | hfull
  · rw [if_neg (Nat.not_le.mpr hroom)]
    exact .inr ⟨hroom, rfl, rfl⟩
  · rw [if_pos hfull]
    exact .inl ⟨hfull, rfl, rfl⟩

/-- A hit that opens a window. -/
theorem Table.hit_over {h : Hit κ} (hover : ∀ w, t h.key = some w → w.resetAt ≤ h.time) :
    (t.hit h).1 = (true, ⟨1, h.time + h.windowMs⟩) ∧
      (t.hit h).2 h.key = some ⟨1, h.time + h.windowMs⟩ := by
  have hserved : (t.hit h).1 = serve h none := congrArg (serve h) (Table.live_eq_none.mpr hover)
  have hself : (t.hit h).2 h.key = some (t.hit h).1.2 := Function.update_self ..
  rw [hself, hserved]
  exact ⟨rfl, rfl⟩

/-- The window that is live has room for what is left of the limit.  What is
accepted after its time is over has to be bounded on its own. -/
theorem acceptedIn_live {bound : Nat} (horder : InOrder now events)
    (hu : Uniform key limit windowMs events) (hw : t key = some w) (hcount : w.count ≤ limit)
    (hafter : ∀ t' events', InOrder w.resetAt events' → Uniform key limit windowMs events' →
      (∀ w', t' key = some w' → w'.resetAt ≤ w.resetAt) →
      acceptedIn key lo hi (trace t' events') ≤ bound) :
    acceptedIn key lo hi (trace t events) ≤ limit - w.count + bound := by
  induction events generalizing now t w with
  | nil => exact Nat.zero_le _
  | cons event events ih =>
      have horder' := horder.2
      rcases Nat.lt_or_ge event.time w.resetAt with hlt | hge
      · cases event with
        | sweep later =>
            exact ih horder' hu.tail (Table.live_eq_some.mpr ⟨hw, hlt⟩) hcount hafter
        | hit h =>
            rw [trace, acceptedIn_cons]
            by_cases hkey : h.key = key
            · subst hkey
              obtain ⟨hlimit, -⟩ := hu h (.head _) rfl
              rcases Table.hit_live hw hlt with ⟨hfull, hserved, hself⟩ | ⟨hroom, hserved, hself⟩
              · have hrest := ih horder' hu.tail hself hcount hafter
                rw [hserved, if_neg (fun h => nomatch h.1)]
                exact hrest
              · have hrest := ih horder' hu.tail hself (by show w.count + 1 ≤ limit; omega) hafter
                have hrest : acceptedIn h.key lo hi _ ≤ limit - (w.count + 1) + bound := hrest
                split <;> omega
            · have hrest := ih horder' hu.tail ((Table.hit_of_ne hkey).trans hw) hcount hafter
              rw [if_neg (fun h => hkey h.2.1)]
              exact hrest
      · have hrest := hafter t (event :: events) ⟨hge, horder'⟩ hu fun w' hw' => by
          cases hw.symm.trans hw'
          exact Nat.le_refl _
        omega

/-- Until its time is over, nothing else is accepted. -/
theorem acceptedIn_window (horder : InOrder now events) (hu : Uniform key limit windowMs events)
    (hw : t key = some w) (hcount : w.count ≤ limit) :
    acceptedIn key lo w.resetAt (trace t events) ≤ limit - w.count := by
  have hlive : acceptedIn key lo w.resetAt (trace t events) ≤ limit - w.count + 0 :=
    acceptedIn_live horder hu hw hcount fun t' _ hlater _ _ =>
      Nat.le_of_eq (acceptedIn_late hlater (Nat.le_refl _) t')
  exact hlive

/-- From a moment at which no window is live, a bound has to be shown from the
first window on that is opened. -/
theorem acceptedIn_open {bound : Nat} (horder : InOrder now events)
    (hu : Uniform key limit windowMs events) (hover : ∀ w, t key = some w → w.resetAt ≤ now)
    (hopen : ∀ opened t' events', now ≤ opened → InOrder opened events' →
      Uniform key limit windowMs events' → t' key = some ⟨1, opened + windowMs⟩ →
      acceptedIn key lo hi (trace t' events') + 1 ≤ bound) :
    acceptedIn key lo hi (trace t events) ≤ bound := by
  induction events generalizing now t with
  | nil => exact Nat.zero_le _
  | cons event events ih =>
      obtain ⟨htime, horder'⟩ := horder
      have hover' : ∀ w, t key = some w → w.resetAt ≤ event.time := fun w hw =>
        Nat.le_trans (hover w hw) htime
      have hopen' : ∀ opened t' events', event.time ≤ opened → InOrder opened events' →
          Uniform key limit windowMs events' → t' key = some ⟨1, opened + windowMs⟩ →
          acceptedIn key lo hi (trace t' events') + 1 ≤ bound :=
        fun opened t' events' hle => hopen opened t' events' (Nat.le_trans htime hle)
      cases event with
      | sweep later =>
          exact ih horder' hu.tail (fun w hw => hover' w (Table.live_eq_some.mp hw).1) hopen'
      | hit h =>
          rw [trace, acceptedIn_cons]
          by_cases hkey : h.key = key
          · subst hkey
            obtain ⟨-, hwindow⟩ := hu h (.head _) rfl
            obtain ⟨-, hself⟩ := Table.hit_over hover'
            rw [hwindow] at hself
            have hrest := hopen h.time (t.hit h).2 events htime horder' hu.tail hself
            split <;> omega
          · have hkept : (t.hit h).2 key = t key := Table.hit_of_ne hkey
            have hrest := ih horder' hu.tail (fun w hw => hover' w (hkept.symm.trans hw)) hopen'
            rw [if_neg (fun h => hkey h.2.1)]
            exact hrest

/-- From there on, what is accepted within one window length stays within the
limit. -/
theorem acceptedIn_over (hlimit : 1 ≤ limit) (horder : InOrder now events)
    (hu : Uniform key limit windowMs events) (hover : ∀ w, t key = some w → w.resetAt ≤ now)
    (hle : hi ≤ now + windowMs) : acceptedIn key lo hi (trace t events) ≤ limit := by
  refine acceptedIn_open horder hu hover fun opened t' events' hlater horder' hu' hw => ?_
  have hrest : acceptedIn key lo (opened + windowMs) (trace t' events') ≤ limit - 1 :=
    acceptedIn_window horder' hu' hw hlimit
  have hend : hi ≤ opened + windowMs := by omega
  have hmono : acceptedIn key lo hi (trace t' events') ≤
      acceptedIn key lo (opened + windowMs) (trace t' events') := acceptedIn_mono hend _
  omega

/-- What is accepted until one window length after the end of the window that is
live. -/
theorem acceptedIn_next (hlimit : 1 ≤ limit) (horder : InOrder now events)
    (hu : Uniform key limit windowMs events) (hw : t key = some w) (hcount : w.count ≤ limit)
    (hle : hi ≤ w.resetAt + windowMs) :
    acceptedIn key lo hi (trace t events) ≤ limit - w.count + limit :=
  acceptedIn_live horder hu hw hcount fun _ _ hlater hu' hover =>
    acceptedIn_over hlimit hlater hu' hover hle

/-- No window has counted more than the limit. -/
def Table.Within (t : Table κ) (key : κ) (limit : Nat) : Prop :=
  ∀ w, t key = some w → w.count ≤ limit

theorem Table.Within.after (ht : t.Within key limit) (hlimit : 1 ≤ limit) {event : Event κ}
    (hu : ∀ h, event = .hit h → h.key = key → h.limit = limit) :
    (t.after event).Within key limit := by
  intro w' hw'
  cases event with
  | sweep later => exact ht w' (Table.live_eq_some.mp hw').1
  | hit h =>
      change (t.hit h).2 key = some w' at hw'
      by_cases hkey : h.key = key
      · subst hkey
        cases hlive : t.live h.key h.time with
        | none =>
            rw [(Table.hit_over (Table.live_eq_none.mp hlive)).2] at hw'
            cases hw'
            exact hlimit
        | some w =>
            obtain ⟨hw, hlt⟩ := Table.live_eq_some.mp hlive
            have heq := hu h rfl rfl
            rcases Table.hit_live hw hlt with ⟨-, -, hself⟩ | ⟨hroom, -, hself⟩
            · rw [hself] at hw'
              cases hw'
              exact ht _ hw
            · rw [hself] at hw'
              cases hw'
              show w.count + 1 ≤ limit
              omega
      · rw [Table.hit_of_ne hkey] at hw'
        exact ht w' hw'

/-- In an interval of one window length, its end included, at most twice the
limit is accepted. -/
theorem acceptedIn_interval (hlimit : 1 ≤ limit) (hwindow : 1 ≤ windowMs)
    (horder : InOrder now events) (hu : Uniform key limit windowMs events)
    (ht : t.Within key limit) (start : Nat) :
    acceptedIn key start (start + windowMs + 1) (trace t events) ≤ 2 * limit := by
  induction events generalizing now t with
  | nil => exact Nat.zero_le _
  | cons event events ih =>
      have horder' := horder.2
      have hafter : (t.after event).Within key limit := ht.after hlimit fun h heq hkey =>
        (hu h (heq ▸ .head _) hkey).1
      rcases Nat.lt_or_ge event.time start with hlt | hge
      · have hrest := ih horder' hu.tail hafter
        cases event with
        | sweep later => exact hrest
        | hit h =>
            have hlt : h.time < start := hlt
            rw [trace, acceptedIn_cons, if_neg]
            · exact hrest
            · rintro ⟨-, -, hle, -⟩
              have hle : start ≤ h.time := hle
              omega
      · -- the first event of the interval is in a window that is live, or in none
        have hnow : InOrder event.time (event :: events) := ⟨Nat.le_refl _, horder'⟩
        cases hlive : t.live key event.time with
        | some w =>
            obtain ⟨hw, hlt⟩ := Table.live_eq_some.mp hlive
            have hcount := ht w hw
            have hrest : acceptedIn key start (start + windowMs + 1) (trace t (event :: events)) ≤
                limit - w.count + limit :=
              acceptedIn_next hlimit hnow hu hw hcount (by omega)
            omega
        | none =>
            refine acceptedIn_open hnow hu (Table.live_eq_none.mp hlive)
              fun opened t' events' hlater horder' hu' hw => ?_
            have hlater : event.time ≤ opened := hlater
            have hend : start + windowMs + 1 ≤ opened + windowMs + windowMs := by omega
            have hrest : acceptedIn key start (start + windowMs + 1) (trace t' events') ≤
                limit - 1 + limit :=
              acceptedIn_next hlimit horder' hu' hw hlimit hend
            omega

/-! ## What fills a window -/

def Table.afterAll (t : Table κ) (events : List (Event κ)) : Table κ := events.foldl Table.after t

theorem acceptedIn_le_cons (e : Entry κ) (entries : List (Entry κ)) :
    acceptedIn key lo hi entries ≤ acceptedIn key lo hi (e :: entries) := by
  rw [acceptedIn_cons]
  omega

theorem acceptedIn_le_trace (t : Table κ) (event : Event κ) (events : List (Event κ)) :
    acceptedIn key lo hi (trace (t.after event) events) ≤
      acceptedIn key lo hi (trace t (event :: events)) := by
  cases event with
  | sweep later => exact Nat.le_refl _
  | hit h => exact acceptedIn_le_cons _ _

/-- A window was there before, or it has been opened since.  What it has counted
since was accepted. -/
theorem filled (hwindow : 1 ≤ windowMs) (horder : InOrder now events)
    (hu : Uniform key limit windowMs events) (hlo : lo ≤ now) {w' : Window}
    (hw' : t.afterAll events key = some w') :
    (∃ w, t key = some w ∧ w'.resetAt = w.resetAt ∧
        w'.count ≤ w.count + acceptedIn key lo w'.resetAt (trace t events)) ∨
      now + windowMs ≤ w'.resetAt ∧
        w'.count ≤ acceptedIn key lo w'.resetAt (trace t events) := by
  induction events generalizing now t with
  | nil => exact .inl ⟨w', hw', rfl, Nat.le_add_right _ _⟩
  | cons event events ih =>
      obtain ⟨htime, horder'⟩ := horder
      have hmono : acceptedIn key lo w'.resetAt (trace (t.after event) events) ≤
          acceptedIn key lo w'.resetAt (trace t (event :: events)) :=
        acceptedIn_le_trace t event events
      rcases ih horder' hu.tail (by omega) hw' with ⟨w₁, hw₁, hreset, hcount⟩ | ⟨hreset, hcount⟩
      · have hkept (hsame : t key = some w₁) : ∃ w, t key = some w ∧ w'.resetAt = w.resetAt ∧
            w'.count ≤ w.count + acceptedIn key lo w'.resetAt (trace t (event :: events)) :=
          ⟨w₁, hsame, hreset, by omega⟩
        cases event with
        | sweep later => exact .inl (hkept (Table.live_eq_some.mp hw₁).1)
        | hit h =>
            have hw₁ : (t.hit h).2 key = some w₁ := hw₁
            by_cases hkey : h.key = key
            · subst hkey
              obtain ⟨-, heq⟩ := hu h (.head _) rfl
              have htime : now ≤ h.time := htime
              cases hlive : t.live h.key h.time with
              | none =>
                  obtain ⟨hserved, hself⟩ := Table.hit_over (Table.live_eq_none.mp hlive)
                  rw [hself] at hw₁
                  cases hw₁
                  have hreset : w'.resetAt = h.time + h.windowMs := hreset
                  have hcount : w'.count ≤ 1 + _ := hcount
                  right
                  rw [trace, acceptedIn_cons, hserved,
                    if_pos ⟨rfl, rfl, Nat.le_trans hlo htime, by show h.time < _; omega⟩]
                  exact ⟨by omega, by rw [Nat.add_comm]; exact hcount⟩
              | some w =>
                  obtain ⟨hw, hlt⟩ := Table.live_eq_some.mp hlive
                  rcases Table.hit_live hw hlt with ⟨-, -, hself⟩ | ⟨-, hserved, hself⟩
                  · exact .inl (hkept (hw.trans (hself.symm.trans hw₁)))
                  · rw [hself] at hw₁
                    cases hw₁
                    have hreset : w'.resetAt = w.resetAt := hreset
                    have hcount : w'.count ≤ w.count + 1 + _ := hcount
                    refine .inl ⟨w, hw, hreset, ?_⟩
                    rw [trace, acceptedIn_cons, hserved,
                      if_pos ⟨rfl, rfl, Nat.le_trans hlo htime, by show h.time < _; omega⟩]
                    rw [← Nat.add_assoc, Nat.add_right_comm]
                    exact hcount
            · exact .inl (hkept ((Table.hit_of_ne hkey).symm.trans hw₁))
      · exact .inr ⟨by omega, by omega⟩

/-- From a window on, the window of the key is this one, or one that was opened
after its end and has counted what was accepted since. -/
theorem filled_after (hwindow : 1 ≤ windowMs) (horder : InOrder now events)
    (hu : Uniform key limit windowMs events) (hw : t key = some w) {w' : Window}
    (hw' : t.afterAll events key = some w') :
    w'.resetAt = w.resetAt ∨ w.resetAt + windowMs ≤ w'.resetAt ∧
      w'.count ≤ acceptedIn key w.resetAt w'.resetAt (trace t events) := by
  induction events generalizing now t w with
  | nil =>
      cases hw.symm.trans hw'
      exact .inl rfl
  | cons event events ih =>
      have horder' := horder.2
      have hmono : acceptedIn key w.resetAt w'.resetAt (trace (t.after event) events) ≤
          acceptedIn key w.resetAt w'.resetAt (trace t (event :: events)) :=
        acceptedIn_le_trace t event events
      rcases Nat.lt_or_ge event.time w.resetAt with hlt | hge
      · have hafter : ∃ w₁, t.after event key = some w₁ ∧ w₁.resetAt = w.resetAt := by
          cases event with
          | sweep later => exact ⟨w, Table.live_eq_some.mpr ⟨hw, hlt⟩, rfl⟩
          | hit h =>
              show ∃ w₁, (t.hit h).2 key = some w₁ ∧ w₁.resetAt = w.resetAt
              by_cases hkey : h.key = key
              · subst hkey
                rcases Table.hit_live hw hlt with ⟨-, -, hself⟩ | ⟨-, -, hself⟩
                · exact ⟨w, hself, rfl⟩
                · exact ⟨_, hself, rfl⟩
              · exact ⟨w, (Table.hit_of_ne hkey).trans hw, rfl⟩
        obtain ⟨w₁, hw₁, hreset⟩ := hafter
        have hrest := ih horder' hu.tail hw₁ hw'
        rw [hreset] at hrest
        rcases hrest with hsame | ⟨hnext, hcount⟩
        · exact .inl hsame
        · exact .inr ⟨hnext, by omega⟩
      · have hnow : InOrder event.time (event :: events) := ⟨Nat.le_refl _, horder'⟩
        rcases filled hwindow hnow hu hge hw' with ⟨w₁, hw₁, hreset, -⟩ | ⟨hreset, hcount⟩
        · cases hw.symm.trans hw₁
          exact .inl hreset
        · exact .inr ⟨by omega, hcount⟩

/-- A hit that is rejected, although the window that rejected an earlier hit is
over, finds a newer window that the hits in between have filled. -/
theorem rejected_later {h h' : Hit κ} (hwindow : 1 ≤ windowMs) (horder : InOrder h.time events)
    (hu : Uniform h.key limit windowMs events) (hlimit : h'.limit = limit)
    (hrejected : (t.hit h).1 = (false, w)) (hkey : h'.key = h.key) (hlater : w.resetAt ≤ h'.time)
    (hrejected' : (((t.hit h).2.afterAll events).hit h').1.1 = false) :
    ∃ resetAt, w.resetAt + windowMs ≤ resetAt ∧ h'.time < resetAt ∧
      limit ≤ acceptedIn h.key w.resetAt resetAt (trace (t.hit h).2 events) := by
  have hself : (t.hit h).2 h.key = some w := by
    have hupdate : (t.hit h).2 h.key = some (t.hit h).1.2 := Function.update_self ..
    rw [hupdate, hrejected]
  cases hlive : ((t.hit h).2.afterAll events).live h'.key h'.time with
  | none =>
      rw [(Table.hit_over (Table.live_eq_none.mp hlive)).1] at hrejected'
      cases hrejected'
  | some w' =>
      obtain ⟨hw', hlt⟩ := Table.live_eq_some.mp hlive
      rcases Table.hit_live hw' hlt with ⟨hfull, -, -⟩ | ⟨-, hserved, -⟩
      · rw [hkey] at hw'
        rcases filled_after hwindow horder hu hself hw' with hsame | ⟨hnext, hcount⟩
        · omega
        · exact ⟨w'.resetAt, hnext, hlt, by omega⟩
      · rw [hserved] at hrejected'
        cases hrejected'

end Bounds

end FixedWindow
