import RydTrip.Process.Pool

/-!
# Programs that do not see a secret

A part of the world is hidden, and `view` is what is left of a reply without it.
A program is blind if replies with one view make no difference to it.  Two pools
whose worlds differ in the hidden part only then stay so when blind programs run
in them, and every thread does the same in both.

A thread may also depend on its first reply: `BlindAfter` asks for blindness
only when that reply meets a condition, such as that somebody else owns the
secret.
-/

namespace Process

variable {W V κ C ε α β δ O A : Type} {R T : C → Type}

namespace Prog

/-- Replies with one view make no difference. -/
def Blind (view : (c : C) → R c → T c) : Prog C R ε α → Prop
  | .ret _ => True
  | .throw _ => True
  | .call c k => ∀ r, (∀ r', view c r' = view c r → k r' = k r) ∧ (k r).Blind view

/-- The same from a first reply that meets `post`. -/
def BlindAfter (view : (c : C) → R c → T c) (post : (c : C) → R c → Prop) :
    Prog C R ε α → Prop
  | .ret _ => True
  | .throw _ => True
  | .call c k => ∀ r, post c r → (∀ r', view c r' = view c r → k r' = k r) ∧ (k r).Blind view

section Blind

variable {view : (c : C) → R c → T c} {post : (c : C) → R c → Prop} {p : Prog C R ε α}

theorem Blind.blindAfter (h : p.Blind view) : p.BlindAfter view post := by
  cases p with
  | ret a => trivial
  | throw e => trivial
  | call c k => exact fun r _ => h r

theorem BlindAfter.mono {post' : (c : C) → R c → Prop} (h : p.BlindAfter view post)
    (hpost : ∀ c r, post' c r → post c r) : p.BlindAfter view post' := by
  cases p with
  | ret a => trivial
  | throw e => trivial
  | call c k => exact fun r hr => h r (hpost c r hr)

theorem Blind.bind {f : α → Prog C R ε β} (hp : p.Blind view) (hf : ∀ a, (f a).Blind view) :
    (p >>= f).Blind view := by
  induction p with
  | ret a => exact hf a
  | throw e => trivial
  | call c k ih =>
      intro r
      obtain ⟨hk, hr⟩ := hp r
      exact ⟨fun r' hr' => congrArg (fun q => q.bind f) (hk r' hr'), ih r hr⟩

theorem Blind.tryCatch {f : ε → Prog C R ε α} (hp : p.Blind view) (hf : ∀ e, (f e).Blind view) :
    (p.tryCatch f).Blind view := by
  induction p with
  | ret a => trivial
  | throw e => exact hf e
  | call c k ih =>
      intro r
      obtain ⟨hk, hr⟩ := hp r
      exact ⟨fun r' hr' => congrArg (fun q => q.tryCatch f) (hk r' hr'), ih r hr⟩

theorem Blind.attempt (hp : p.Blind view) : (p.attempt : Prog C R δ _).Blind view := by
  induction p with
  | ret a => trivial
  | throw e => trivial
  | call c k ih =>
      intro r
      obtain ⟨hk, hr⟩ := hp r
      exact ⟨fun r' hr' => congrArg Prog.attempt (hk r' hr'), ih r hr⟩

theorem BlindAfter.bind {f : α → Prog C R ε β} (hp : p.BlindAfter view post)
    (hf : ∀ a, (f a).Blind view) : (p >>= f).BlindAfter view post := by
  cases p with
  | ret a => exact (hf a).blindAfter
  | throw e => trivial
  | call c k =>
      intro r hpost
      obtain ⟨hk, hr⟩ := hp r hpost
      exact ⟨fun r' hr' => congrArg (fun q => q.bind f) (hk r' hr'), hr.bind hf⟩

theorem BlindAfter.attempt (hp : p.BlindAfter view post) :
    (p.attempt : Prog C R δ _).BlindAfter view post := by
  cases p with
  | ret a => trivial
  | throw e => trivial
  | call c k =>
      intro r hpost
      obtain ⟨hk, hr⟩ := hp r hpost
      exact ⟨fun r' hr' => congrArg Prog.attempt (hk r' hr'), hr.attempt⟩

end Blind

end Prog

/-! ## Two pools -/

/-- What is hidden of the world stays hidden: worlds that differ in it only move
to such worlds, with replies of one view. -/
structure Machine.Veiled (m : Machine W κ C R ε α O A) (hide : W → V)
    (view : (c : C) → R c → T c) : Prop where
  exec : ∀ o c w w', hide w = hide w' →
    (m.exec o c w).map (Prod.map (view c) hide) = (m.exec o c w').map (Prod.map (view c) hide)
  start : ∀ call w w', hide w = hide w' →
    (m.start call w).map (Prod.map id hide) = (m.start call w').map (Prod.map id hide)
  env : ∀ a w w', hide w = hide w' → (m.env a w).map hide = (m.env a w').map hide

/-- A thread without its log. -/
def Thread.rest (th : Thread κ C R ε α) : κ × Prog C R ε α := (th.call, th.prog)

/-- The pools differ in what is hidden of the world, and in the logs. -/
structure Alike (hide : W → V) (s s' : Pool W κ C R ε α) : Prop where
  world : hide s.world = hide s'.world
  threads : ∀ i, (s.threads i).map Thread.rest = (s'.threads i).map Thread.rest

/-- Every thread is blind, or will be after its first reply. -/
def ThreadsBlind (view : (c : C) → R c → T c) (post : κ → (c : C) → R c → Prop)
    (s : Pool W κ C R ε α) : Prop :=
  ∀ i th, s.threads i = some th →
    th.prog.Blind view ∨ th.log = [] ∧ th.prog.BlindAfter view (post th.call)

section Pools

variable {m : Machine W κ C R ε α O A} {hide : W → V} {view : (c : C) → R c → T c}
  {post : κ → (c : C) → R c → Prop} {s s' t : Pool W κ C R ε α} {a : Action κ O A}
  {acts : List (Action κ O A)}

theorem Alike.update (hs : Alike hide s s') {w w' : W} (hw : hide w = hide w') {i : Nat}
    {th th' : Thread κ C R ε α} (h : th.rest = th'.rest) :
    Alike hide ⟨w, Function.update s.threads i (some th)⟩
      ⟨w', Function.update s'.threads i (some th')⟩ := by
  refine ⟨hw, fun j => ?_⟩
  by_cases hj : j = i
  · subst hj
    simp only [Function.update_self, Option.map_some, h]
  · simp only [Function.update_of_ne hj, hs.threads j]

/-- What is possible in one of the pools is possible in the other. -/
theorem exists_map_eq {X Y : Type} {x x' : Option X} {f : X → Y} {a : X}
    (h : x.map f = x'.map f) (hx : x = some a) : ∃ a', x' = some a' ∧ f a' = f a := by
  rw [hx, Option.map_some] at h
  exact Option.map_eq_some_iff.mp h.symm

/-- The first reply that a thread gets meets its condition. -/
def FirstReplies (m : Machine W κ C R ε α O A) (post : κ → (c : C) → R c → Prop)
    (s : Pool W κ C R ε α) : Action κ O A → Prop
  | .run i o => ∀ call c k r w, s.threads i = some ⟨call, .call c k, []⟩ →
      m.exec o c s.world = some (r, w) → post call c r
  | _ => True

/-- A blind step is the same step in both pools. -/
theorem Machine.Veiled.next (hm : m.Veiled hide view) (hs : Alike hide s s')
    (hblind : ThreadsBlind view post s) (hpost : FirstReplies m post s a)
    (h : m.next s a = some t) :
    ∃ t', m.next s' a = some t' ∧ Alike hide t t' := by
  cases m.step_of_next h with
  | @spawn i call p w hi hp =>
      have hi' : s'.threads i = none := by
        have hmap := hs.threads i
        rw [hi, Option.map_none] at hmap
        exact Option.map_eq_none_iff.mp hmap.symm
      obtain ⟨⟨p', w'⟩, hp', heq⟩ := exists_map_eq (hm.start call _ _ hs.world) hp
      obtain ⟨rfl, hw⟩ := Prod.mk.inj heq
      exact ⟨_, m.next_of_step (.spawn hi' hp'), hs.update hw.symm rfl⟩
  | @run i o call c k log r w hi hr =>
      obtain ⟨⟨r', w'⟩, hr', heq⟩ := exists_map_eq (hm.exec o c _ _ hs.world) hr
      obtain ⟨hview, hw⟩ := Prod.mk.inj heq
      obtain ⟨⟨call', prog', log'⟩, hi', hrest⟩ := exists_map_eq (hs.threads i) hi
      simp only [Thread.rest, Prod.mk.injEq] at hrest
      obtain ⟨rfl, rfl⟩ := hrest
      have hk : k r' = k r := by
        rcases hblind i _ hi with hall | ⟨rfl, hafter⟩
        · exact (hall r).1 r' hview
        · exact (hafter r (hpost call' c k r w hi hr)).1 r' hview
      refine ⟨_, m.next_of_step (.run hi' hr'), hs.update hw.symm ?_⟩
      rw [Thread.rest, Thread.rest, hk]
  | @env u w hw =>
      obtain ⟨w', hw', heq⟩ := exists_map_eq (hm.env u _ _ hs.world) hw
      exact ⟨_, m.next_of_step (.env hw'), heq.symm, hs.threads⟩

theorem ThreadsBlind.step (hs : ThreadsBlind view post s)
    (hstart : ∀ call w p w', m.start call w = some (p, w') → p.BlindAfter view (post call))
    (hpost : FirstReplies m post s a) (hstep : m.Step s a t) : ThreadsBlind view post t := by
  refine Machine.threads_step ?_ ?_ hs hstep
  · intro i call p _ hp
    exact .inr ⟨rfl, hstart call _ p t.world hp⟩
  · rintro i o call c k log r rfl hi hr
    left
    rcases hs i _ hi with hall | ⟨rfl, hafter⟩
    · exact (hall r).2
    · exact (hafter r (hpost call c k r t.world hi hr)).2

/-- Two pools that differ in what is hidden only go through the same run. -/
theorem Machine.Veiled.run {P : Pool W κ C R ε α → Action κ O A → Pool W κ C R ε α → Prop}
    (hm : m.Veiled hide view)
    (hstart : ∀ call w p w', m.start call w = some (p, w') → p.BlindAfter view (post call))
    (hpost : ∀ s a t, P s a t → FirstReplies m post s a) (hs : Alike hide s s')
    (hblind : ThreadsBlind view post s) (hP : m.Along P s acts) (hrun : m.run s acts = some t) :
    ∃ t', m.run s' acts = some t' ∧ Alike hide t t' := by
  induction acts generalizing s s' with
  | nil =>
      cases hrun
      exact ⟨s', rfl, hs⟩
  | cons a acts ih =>
      rw [Machine.run_cons] at hrun
      obtain ⟨u, hu, hrun⟩ := Option.bind_eq_some_iff.mp hrun
      obtain ⟨hPa, hPacts⟩ := hP u hu
      obtain ⟨u', hu', halike⟩ := hm.next hs hblind (hpost s a u hPa) hu
      obtain ⟨t', hrun', ht⟩ := ih halike
        (hblind.step hstart (hpost s a u hPa) (m.step_of_next hu)) hPacts hrun
      refine ⟨t', ?_, ht⟩
      rw [Machine.run_cons, hu']
      exact hrun'

end Pools

end Process
