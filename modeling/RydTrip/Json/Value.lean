import RydTrip.Json.Strings

/-!
# Values

The values that a JSON text can denote.  An object lists its members in the
order in which its keys are enumerated: the keys that are array indices come
first and ascend, the others follow in the order of their creation.  Setting a
property that is there keeps its place.

`Value.reread` is what is left of a value that is written and read again: a
number that is not finite becomes `null`, and a negative zero loses its sign.
A template literal prints any value but an object that hides `toString`, or an
array with one.
-/

namespace Json

inductive Value where
  | null
  | bool (b : Bool)
  | number (x : Double)
  | string (s : JsString)
  | array (elements : List Value)
  | object (members : List (JsString × Value))

namespace Value

/-- Induction over a value, its elements and the values of its members. -/
theorem ind {P : Value → Prop} (null : P .null) (bool : ∀ b, P (.bool b))
    (number : ∀ x, P (.number x)) (string : ∀ s, P (.string s))
    (array : ∀ elements : List Value, (∀ v ∈ elements, P v) → P (.array elements))
    (object : ∀ members : List (JsString × Value), (∀ m ∈ members, P m.2) → P (.object members))
    (v : Value) : P v := by
  refine @Value.rec P (fun elements => ∀ v ∈ elements, P v) (fun members => ∀ m ∈ members, P m.2)
    (fun m => P m.2) null bool number string array object ?_ ?_ ?_ ?_ ?_ v
  · intro v hv
    cases hv
  · intro v elements hv hrest w hw
    rcases List.mem_cons.mp hw with rfl | hw
    · exact hv
    · exact hrest w hw
  · intro m hm
    cases hm
  · intro m members hm hrest n hn
    rcases List.mem_cons.mp hn with rfl | hn
    · exact hm
    · exact hrest n hn
  · intro key v hv
    exact hv

/-! ## Truth -/

/-- Whether a condition takes the value for true. -/
def truthy : Value → Bool
  | .null => false
  | .bool b => b
  | .number (.finite _ x) => decide (0 < x.val)
  | .number (.infinity _) => true
  | .string s => !s.isEmpty
  | .array _ => true
  | .object _ => true

end Value

/-- The own property of a value, `none` where it is undefined.  Reading a
property of `null` throws, and is left to the caller. -/
def Value.get (v : Value) (key : JsString) : Option Value :=
  match v with
  | .object members => (members.find? fun m => m.1 = key).map Prod.snd
  | _ => none

/-! ## Printing -/

mutual

/-- A template literal can print the value.  An own property `toString` is not a
function, and `valueOf` does not give a primitive, so `ToString` throws. -/
def Value.printable : Value → Bool
  | .null => true
  | .bool _ => true
  | .number _ => true
  | .string _ => true
  | .array elements => elementsPrintable elements
  | .object members => !members.any fun m => m.1 = .ofText "toString".toList

/-- `join` prints every element, and goes into arrays. -/
def elementsPrintable : List Value → Bool
  | [] => true
  | v :: rest => v.printable && elementsPrintable rest

end

/-! ## The order of keys -/

/-- The number of a key that is an array index. -/
def arrayIndex (key : JsString) : Option ℕ :=
  let n := Nat.ofDigitChars 10 key.toText 0
  if JsString.ofText (Nat.toDigits 10 n) = key ∧ n < 2 ^ 32 - 1 then some n else none

/-- A new key goes before an old one. -/
def precedes (key old : JsString) : Prop :=
  ∃ n ∈ arrayIndex key, ∀ m ∈ arrayIndex old, n < m

instance (key old : JsString) : Decidable (precedes key old) :=
  match h : arrayIndex key with
  | none => .isFalse fun ⟨_, hn, _⟩ => by rw [h] at hn; cases hn
  | some n =>
      decidable_of_iff (∀ m ∈ arrayIndex old, n < m)
        ⟨fun hlt => ⟨n, h, hlt⟩, fun ⟨n', hn', hlt⟩ => by
          rw [h] at hn'
          cases hn'
          exact hlt⟩

/-- Set a property of an object. -/
def setProperty : List (JsString × Value) → JsString → Value → List (JsString × Value)
  | [], key, value => [(key, value)]
  | (k, v) :: rest, key, value =>
      if k = key then (key, value) :: rest
      else if precedes key k then (key, value) :: (k, v) :: rest
      else (k, v) :: setProperty rest key value

/-- Two keys in the order of enumeration. -/
def Before (a b : JsString) : Prop :=
  a ≠ b ∧ ∀ n ∈ arrayIndex b, ∃ m ∈ arrayIndex a, m < n

/-- The keys of an object are distinct and in order. -/
def Ordered (members : List (JsString × Value)) : Prop :=
  (members.map Prod.fst).Pairwise Before

/-- Keys of which none is an array index are in order if they are distinct. -/
theorem ordered_of_names {members : List (JsString × Value)}
    (hnames : ∀ key ∈ members.map Prod.fst, arrayIndex key = none)
    (hdistinct : (members.map Prod.fst).Nodup) : Ordered members := by
  refine List.Pairwise.imp_of_mem (fun {a b} _ hb hne => ⟨hne, fun n hn => ?_⟩) hdistinct
  rw [hnames b hb] at hn
  cases hn

theorem arrayIndex_inj {a b : JsString} {n : ℕ} (ha : arrayIndex a = some n)
    (hb : arrayIndex b = some n) : a = b := by
  have hkey (key : JsString) (h : arrayIndex key = some n) :
      JsString.ofText (Nat.toDigits 10 n) = key := by
    unfold arrayIndex at h
    dsimp only at h
    split at h
    case isTrue hcanonical =>
        cases h
        exact hcanonical.1
    case isFalse => cases h
  rw [← hkey a ha, hkey b hb]

/-- A key after all others is added at the end. -/
theorem setProperty_of_before {members : List (JsString × Value)} {key : JsString}
    (h : ∀ k ∈ members.map Prod.fst, Before k key) (value : Value) :
    setProperty members key value = members ++ [(key, value)] := by
  induction members with
  | nil => rfl
  | cons m members ih =>
      obtain ⟨k, v⟩ := m
      obtain ⟨hne, hbefore⟩ := h k List.mem_cons_self
      have hnot : ¬ precedes key k := by
        rintro ⟨n, hn, hlt⟩
        obtain ⟨m, hm, hless⟩ := hbefore n hn
        have := hlt m hm
        omega
      rw [setProperty, if_neg hne, if_neg hnot, ih fun k' hk' => h k' (List.mem_cons_of_mem _ hk')]
      rfl

/-- The keys after a property is set. -/
theorem mem_setProperty {members : List (JsString × Value)} {key k : JsString} {value : Value}
    (h : k ∈ (setProperty members key value).map Prod.fst) :
    k = key ∨ k ∈ members.map Prod.fst := by
  induction members with
  | nil => exact .inl (List.mem_singleton.mp h)
  | cons m members ih =>
      obtain ⟨k', v⟩ := m
      unfold setProperty at h
      split at h
      · next heq =>
          subst heq
          exact .inr h
      · split at h
        · exact List.mem_cons.mp h
        · rcases List.mem_cons.mp h with heq | h
          · exact .inr (heq ▸ List.mem_cons_self)
          · exact (ih h).imp_right (List.mem_cons_of_mem _)

/-- A new key goes before the keys that come after one it precedes. -/
theorem before_of_precedes {key k k' : JsString} (h : precedes key k) (hk : Before k k') :
    Before key k' := by
  obtain ⟨n, hn, hlt⟩ := h
  have hless : ∀ m ∈ arrayIndex k', n < m := by
    intro m hm
    obtain ⟨i, hi, him⟩ := hk.2 m hm
    exact (hlt i hi).trans him
  refine ⟨?_, fun m hm => ⟨n, hn, hless m hm⟩⟩
  rintro rfl
  exact absurd (hless n hn) (lt_irrefl n)

/-- Of two different keys one goes before the other. -/
theorem before_of_not_precedes {key k : JsString} (hne : k ≠ key) (h : ¬ precedes key k) :
    Before k key := by
  refine ⟨hne, fun n hn => ?_⟩
  simp only [precedes, not_exists, not_and, not_forall, not_lt, exists_prop] at h
  obtain ⟨m, hm, hle⟩ := h n hn
  refine ⟨m, hm, lt_of_le_of_ne hle ?_⟩
  rintro rfl
  exact hne (arrayIndex_inj hm hn)

/-- Setting a property keeps the order. -/
theorem Ordered.setProperty {members : List (JsString × Value)} (h : Ordered members)
    (key : JsString) (value : Value) : Ordered (setProperty members key value) := by
  induction members with
  | nil => exact List.pairwise_singleton _ _
  | cons m members ih =>
      obtain ⟨k, v⟩ := m
      obtain ⟨hfirst, hrest⟩ := List.pairwise_cons.mp h
      unfold Json.setProperty
      split
      · next heq =>
          subst heq
          exact h
      · next hne =>
          split
          · next hprecedes =>
              refine List.pairwise_cons.mpr ⟨fun k' hk' => ?_, h⟩
              rcases List.mem_cons.mp hk' with rfl | hk'
              · refine ⟨fun heq => hne heq.symm, fun n hn => ?_⟩
                obtain ⟨m, hm, hlt⟩ := hprecedes
                exact ⟨m, hm, hlt n hn⟩
              · exact before_of_precedes hprecedes (hfirst k' hk')
          · next hprecedes =>
              refine List.pairwise_cons.mpr ⟨fun k' hk' => ?_, ih hrest⟩
              rcases mem_setProperty hk' with rfl | hk'
              · exact before_of_not_precedes hne hprecedes
              · exact hfirst k' hk'

/-! ## Writing -/

mutual

/-- `JSON.stringify`. -/
def Value.text : Value → Text
  | .null => ['n', 'u', 'l', 'l']
  | .bool true => ['t', 'r', 'u', 'e']
  | .bool false => ['f', 'a', 'l', 's', 'e']
  | .number x => x.text
  | .string s => quote s
  | .array elements => '[' :: (elementsText elements ++ [']'])
  | .object members => '{' :: (membersText members ++ ['}'])

def elementsText : List Value → Text
  | [] => []
  | v :: rest => v.text ++ elementsTail rest

def elementsTail : List Value → Text
  | [] => []
  | v :: rest => ',' :: (v.text ++ elementsTail rest)

def membersText : List (JsString × Value) → Text
  | [] => []
  | (key, v) :: rest => quote key ++ ':' :: (v.text ++ membersTail rest)

def membersTail : List (JsString × Value) → Text
  | [] => []
  | (key, v) :: rest => ',' :: (quote key ++ ':' :: (v.text ++ membersTail rest))

end

/-! ## What is left -/

mutual

/-- The value that is read where `v` was written. -/
def Value.reread : Value → Value
  | .null => .null
  | .bool b => .bool b
  | .number x => if x.IsFinite then .number x.reread else .null
  | .string s => .string s
  | .array elements => .array (elementsReread elements)
  | .object members => .object (membersReread members)

def elementsReread : List Value → List Value
  | [] => []
  | v :: rest => v.reread :: elementsReread rest

def membersReread : List (JsString × Value) → List (JsString × Value)
  | [] => []
  | (key, v) :: rest => (key, v.reread) :: membersReread rest

end

mutual

/-- All numbers in the value are finite, and none is the negative zero. -/
def Value.Exact : Value → Prop
  | .null => True
  | .bool _ => True
  | .number x => x.IsFinite ∧ x ≠ .finite true .zero
  | .string _ => True
  | .array elements => ExactElements elements
  | .object members => ExactMembers members

def ExactElements : List Value → Prop
  | [] => True
  | v :: rest => v.Exact ∧ ExactElements rest

def ExactMembers : List (JsString × Value) → Prop
  | [] => True
  | (_, v) :: rest => v.Exact ∧ ExactMembers rest

end

mutual

/-- All objects in the value have their keys in order. -/
def Value.Normal : Value → Prop
  | .null => True
  | .bool _ => True
  | .number _ => True
  | .string _ => True
  | .array elements => NormalElements elements
  | .object members => Ordered members ∧ NormalMembers members

def NormalElements : List Value → Prop
  | [] => True
  | v :: rest => v.Normal ∧ NormalElements rest

def NormalMembers : List (JsString × Value) → Prop
  | [] => True
  | (_, v) :: rest => v.Normal ∧ NormalMembers rest

end

theorem elementsReread_eq (elements : List Value) :
    elementsReread elements = elements.map Value.reread := by
  induction elements with
  | nil => rfl
  | cons v elements ih => rw [elementsReread, ih, List.map_cons]

theorem membersReread_eq (members : List (JsString × Value)) :
    membersReread members = members.map fun m => (m.1, m.2.reread) := by
  induction members with
  | nil => rfl
  | cons m members ih =>
      obtain ⟨key, v⟩ := m
      rw [membersReread, ih]
      rfl

theorem normalElements_iff {elements : List Value} :
    NormalElements elements ↔ ∀ v ∈ elements, v.Normal := by
  induction elements with
  | nil => exact iff_of_true trivial (by simp)
  | cons v elements ih => rw [NormalElements, ih, List.forall_mem_cons]

theorem normalMembers_iff {members : List (JsString × Value)} :
    NormalMembers members ↔ ∀ m ∈ members, m.2.Normal := by
  induction members with
  | nil => exact iff_of_true trivial (by simp)
  | cons m members ih =>
      obtain ⟨key, v⟩ := m
      rw [NormalMembers, ih, List.forall_mem_cons]

theorem keys_membersReread (members : List (JsString × Value)) :
    (membersReread members).map Prod.fst = members.map Prod.fst := by
  rw [membersReread_eq, List.map_map]
  rfl

theorem Ordered.reread {members : List (JsString × Value)} (h : Ordered members) :
    Ordered (membersReread members) := by
  rw [Ordered, keys_membersReread]
  exact h

theorem Value.Normal.reread {v : Value} (h : v.Normal) : v.reread.Normal := by
  induction v using Value.ind with
  | null => trivial
  | bool b => trivial
  | string s => trivial
  | number x =>
      rw [Value.reread]
      split
      · trivial
      · trivial
  | array elements ih =>
      rw [Value.reread, elementsReread_eq]
      refine normalElements_iff.mpr fun w hw => ?_
      obtain ⟨v, hv, rfl⟩ := List.mem_map.mp hw
      exact ih v hv (normalElements_iff.mp h v hv)
  | object members ih =>
      refine ⟨h.1.reread, ?_⟩
      rw [membersReread_eq]
      refine normalMembers_iff.mpr fun n hn => ?_
      obtain ⟨m, hm, rfl⟩ := List.mem_map.mp hn
      exact ih m hm (normalMembers_iff.mp h.2 m hm)

theorem Double.reread_reread (x : Double) : x.reread.reread = x.reread := by
  cases x with
  | infinity negative => rfl
  | finite negative x =>
      by_cases h : 0 < x.val
      · rw [reread_of_pos h, reread_of_pos h]
      · rw [reread_of_zero h, reread_of_zero (lt_irrefl 0)]

theorem Double.isFinite_reread {x : Double} (hx : x.IsFinite) : x.reread.IsFinite := by
  cases x with
  | infinity negative => exact absurd hx id
  | finite negative x => trivial

/-- A second time nothing is lost. -/
theorem Value.reread_reread (v : Value) : v.reread.reread = v.reread := by
  induction v using Value.ind with
  | null => rfl
  | bool b => rfl
  | string s => rfl
  | number x =>
      by_cases hx : x.IsFinite
      · rw [Value.reread, if_pos hx, Value.reread, if_pos (Double.isFinite_reread hx),
          Double.reread_reread]
      · rw [Value.reread, if_neg hx]
        rfl
  | array elements ih =>
      simp only [Value.reread, elementsReread_eq, List.map_map]
      exact congrArg Value.array (List.map_congr_left fun v hv => ih v hv)
  | object members ih =>
      simp only [Value.reread, membersReread_eq, List.map_map]
      refine congrArg Value.object (List.map_congr_left fun m hm => ?_)
      exact Prod.ext rfl (ih m hm)

/-- The properties of an object that is read back are those it had. -/
theorem Value.get_reread (members : List (JsString × Value)) (key : JsString) :
    (Value.object members).reread.get key =
      ((Value.object members).get key).map Value.reread := by
  rw [Value.reread, membersReread_eq, Value.get, Value.get, List.find?_map]
  simp only [Option.map_map, Function.comp_def]

theorem Double.reread_eq_iff {x : Double} (hx : x.IsFinite) :
    x.reread = x ↔ x ≠ .finite true .zero := by
  cases x with
  | infinity negative => exact absurd hx id
  | finite negative x =>
      by_cases h : 0 < x.val
      · rw [Double.reread_of_pos h]
        refine ⟨fun _ heq => ?_, fun _ => rfl⟩
        cases heq
        exact absurd h (lt_irrefl 0)
      · have hzero : x = .zero := Subtype.ext (le_antisymm (not_lt.mp h) x.property.1)
        subst hzero
        rw [Double.reread_of_zero h]
        cases negative with
        | true => simp
        | false => simp

/-- Exactly the values without an infinity and without a negative zero stay as
they are. -/
theorem Value.reread_eq_iff (v : Value) : v.reread = v ↔ v.Exact := by
  induction v using Value.ind with
  | null => exact iff_of_true rfl trivial
  | bool b => exact iff_of_true rfl trivial
  | string s => exact iff_of_true rfl trivial
  | number x =>
      unfold Value.reread Value.Exact
      by_cases hx : x.IsFinite
      · rw [if_pos hx, Value.number.injEq, Double.reread_eq_iff hx]
        exact (and_iff_right hx).symm
      · rw [if_neg hx]
        exact iff_of_false nofun fun h => hx h.1
  | array elements ih =>
      rw [Value.reread, Value.Exact, Value.array.injEq]
      induction elements with
      | nil => exact iff_of_true rfl trivial
      | cons v rest ihrest =>
          rw [elementsReread, ExactElements, List.cons.injEq, ih v List.mem_cons_self,
            ihrest fun w hw => ih w (List.mem_cons_of_mem v hw)]
  | object members ih =>
      rw [Value.reread, Value.Exact, Value.object.injEq]
      induction members with
      | nil => exact iff_of_true rfl trivial
      | cons m rest ihrest =>
          obtain ⟨key, v⟩ := m
          rw [membersReread, ExactMembers, List.cons.injEq, Prod.mk.injEq,
            ih (key, v) List.mem_cons_self,
            ihrest fun w hw => ih w (List.mem_cons_of_mem _ hw)]
          exact and_congr_left' (and_iff_right rfl)

end Json
