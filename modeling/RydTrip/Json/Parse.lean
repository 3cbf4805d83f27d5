import RydTrip.Json.Value

/-!
# Reading values

The parser goes down the grammar.  Every call of it uses up fuel, and twice the
length of the text is always enough (`parseValue_fuel`), so that `parse` never
runs out.

`parse_text` is the round trip: the text of a value is read as the value, up to
what numbers lose.
-/

namespace Json

/-! ## The parser -/

def isSpace (c : Char) : Bool := c = ' ' || c = '\t' || c = '\n' || c = '\r'

def skipSpace (text : Text) : Text := text.dropWhile isSpace

/-- The text behind a punctuation mark. -/
def expect (mark : Char) (text : Text) : Option Text :=
  match skipSpace text with
  | [] => none
  | c :: rest => if c = mark then some rest else none

/-- The rest of `null`, `true` or `false`. -/
def parseWord (tail : Text) (v : Value) (text : Text) : Option (Value × Text) :=
  if tail.isPrefixOf text then some (v, text.drop tail.length) else none

mutual

def parseValue : ℕ → Text → Option (Value × Text)
  | 0, _ => none
  | fuel + 1, text =>
      match skipSpace text with
      | [] => none
      | c :: rest =>
          if c = '"' then (parseChars rest).map fun p => (.string p.1, p.2)
          else if c = '[' then
            match expect ']' rest with
            | some rest => some (.array [], rest)
            | none => parseElements fuel [] rest
          else if c = '{' then
            match expect '}' rest with
            | some rest => some (.object [], rest)
            | none => parseMembers fuel [] rest
          else if c = 't' then parseWord ['r', 'u', 'e'] (.bool true) rest
          else if c = 'f' then parseWord ['a', 'l', 's', 'e'] (.bool false) rest
          else if c = 'n' then parseWord ['u', 'l', 'l'] .null rest
          else (parseNumber (c :: rest)).map fun p => (.number p.1, p.2)

/-- The rest of an array behind the elements that are read already. -/
def parseElements : ℕ → List Value → Text → Option (Value × Text)
  | 0, _, _ => none
  | fuel + 1, elements, text =>
      (parseValue fuel text).bind fun p =>
        match expect ',' p.2 with
        | some rest => parseElements fuel (elements ++ [p.1]) rest
        | none => (expect ']' p.2).map fun rest => (.array (elements ++ [p.1]), rest)

/-- The rest of an object behind the members that are read already. -/
def parseMembers : ℕ → List (JsString × Value) → Text → Option (Value × Text)
  | 0, _, _ => none
  | fuel + 1, members, text =>
      (expect '"' text).bind fun text =>
        (parseChars text).bind fun key =>
          (expect ':' key.2).bind fun text =>
            (parseValue fuel text).bind fun p =>
              match expect ',' p.2 with
              | some rest => parseMembers fuel (setProperty members key.1 p.1) rest
              | none =>
                  (expect '}' p.2).map fun rest =>
                    (.object (setProperty members key.1 p.1), rest)

end

/-- `JSON.parse`, `none` where it throws. -/
def parse (text : Text) : Option Value :=
  (parseValue (2 * text.length + 2) text).bind fun p =>
    if skipSpace p.2 = [] then some p.1 else none

/-! ## Marks -/

theorem skipSpace_cons {c : Char} (h : isSpace c = false) (rest : Text) :
    skipSpace (c :: rest) = c :: rest := by
  rw [skipSpace, List.dropWhile_cons_of_neg (by rw [h]; exact Bool.false_ne_true)]

theorem expect_self {mark : Char} (h : isSpace mark = false) (rest : Text) :
    expect mark (mark :: rest) = some rest := by
  rw [expect, skipSpace_cons h]
  exact if_pos rfl

theorem expect_ne {mark c : Char} (h : isSpace c = false) (hne : c ≠ mark) (rest : Text) :
    expect mark (c :: rest) = none := by
  rw [expect, skipSpace_cons h]
  exact if_neg hne

theorem skipSpace_length (text : Text) : (skipSpace text).length ≤ text.length :=
  (List.dropWhile_sublist isSpace).length_le

theorem expect_length {mark : Char} {text rest : Text} (h : expect mark text = some rest) :
    rest.length < text.length := by
  have hskip := skipSpace_length text
  unfold expect at h
  split at h
  · cases h
  · next c rest' heq =>
      rw [heq, List.length_cons] at hskip
      split at h
      · cases h
        omega
      · cases h

/-! ## Fuel -/

theorem parseChars_length {text rest : Text} {s : JsString}
    (h : parseChars text = some (s, rest)) : rest.length < text.length := by
  fun_induction parseChars text generalizing s rest with
  | case1 => cases h
  | case2 text =>
      cases h
      exact Nat.lt_succ_self _
  | case3 a b c d text ih =>
      obtain ⟨u, -, h⟩ := Option.bind_eq_some_iff.mp h
      obtain ⟨p, hp, heq⟩ := Option.map_eq_some_iff.mp h
      cases heq
      have := ih hp
      simp only [List.length_cons]
      omega
  | case4 c text hu ih =>
      obtain ⟨u, -, h⟩ := Option.bind_eq_some_iff.mp h
      obtain ⟨p, hp, heq⟩ := Option.map_eq_some_iff.mp h
      cases heq
      have := ih hp
      simp only [List.length_cons]
      omega
  | case5 c text hquote hu hslash hcontrol => cases h
  | case6 c text hquote hu hslash hcontrol ih =>
      obtain ⟨p, hp, heq⟩ := Option.map_eq_some_iff.mp h
      cases heq
      have := ih hp
      simp only [List.length_cons]
      omega

theorem scanDigits_eq (text : Text) : (scanDigits text).1 ++ (scanDigits text).2 = text := by
  rw [scanDigits, List.span_eq_takeWhile_dropWhile]
  exact List.takeWhile_append_dropWhile

theorem parseSign_length (text : Text) : (parseSign text).2.length ≤ text.length := by
  unfold parseSign
  split
  · exact Nat.le_succ _
  · exact le_refl _

theorem parseWhole_length {text digits rest : Text} (h : parseWhole text = some (digits, rest)) :
    rest.length < text.length := by
  have hscan := congrArg List.length (scanDigits_eq text)
  rw [List.length_append] at hscan
  unfold parseWhole at h
  split at h
  · cases h
  · cases h
  · next hne _ heq =>
      cases h
      rw [heq] at hscan
      have hpos : 0 < digits.length := by
        rw [List.length_pos_iff]
        rintro rfl
        exact hne rfl
      dsimp only at hscan
      omega

theorem parseFraction_length {text fraction rest : Text}
    (h : parseFraction text = some (fraction, rest)) : rest.length ≤ text.length := by
  unfold parseFraction at h
  split at h
  · next text =>
      have hscan := congrArg List.length (scanDigits_eq text)
      rw [List.length_append] at hscan
      split at h
      · cases h
      · next heq =>
          cases h
          rw [heq] at hscan
          rw [List.length_cons]
          dsimp only at hscan
          omega
  · cases h
    exact le_refl _

theorem parseExponentSign_length (text : Text) :
    (parseExponentSign text).2.length ≤ text.length := by
  unfold parseExponentSign
  split
  · exact Nat.le_succ _
  · exact parseSign_length _

theorem parseExponent_length {text rest : Text} {exponent : Option ℤ}
    (h : parseExponent text = some (exponent, rest)) : rest.length ≤ text.length := by
  cases text with
  | nil =>
      cases h
      exact le_refl _
  | cons c text =>
      rw [parseExponent] at h
      split at h
      · have hsign := parseExponentSign_length text
        have hscan := congrArg List.length (scanDigits_eq (parseExponentSign text).2)
        rw [List.length_append] at hscan
        dsimp only at h
        split at h
        · cases h
        · next heq =>
            cases h
            rw [heq] at hscan
            rw [List.length_cons]
            dsimp only at hscan
            omega
      · cases h
        exact le_refl _

theorem parseNumber_length {text rest : Text} {x : Double}
    (h : parseNumber text = some (x, rest)) : rest.length < text.length := by
  have hsign := parseSign_length text
  unfold parseNumber at h
  dsimp only at h
  obtain ⟨⟨whole, afterWhole⟩, hwhole, h⟩ := Option.bind_eq_some_iff.mp h
  obtain ⟨⟨fraction, afterFraction⟩, hfraction, h⟩ := Option.bind_eq_some_iff.mp h
  obtain ⟨⟨exponent, afterExponent⟩, hexponent, h⟩ := Option.bind_eq_some_iff.mp h
  cases h
  have h1 := parseWhole_length hwhole
  have h2 := parseFraction_length hfraction
  have h3 := parseExponent_length hexponent
  exact (h3.trans h2).trans_lt (h1.trans_le hsign)

theorem parseWord_cases {tail text rest : Text} {v w : Value}
    (h : parseWord tail v text = some (w, rest)) : w = v ∧ rest.length ≤ text.length := by
  unfold parseWord at h
  split at h
  · cases h
    refine ⟨rfl, ?_⟩
    rw [List.length_drop]
    omega
  · cases h

/-! ## One call -/

/-- A call reads a scalar or an empty container, or it goes on with the elements
or members of one. -/
theorem parseValue_cases {fuel : ℕ} {text rest : Text} {v : Value}
    (h : parseValue (fuel + 1) text = some (v, rest)) :
    (v.Normal ∧ rest.length < text.length) ∨
      (∃ mid, mid.length < text.length ∧ parseElements fuel [] mid = some (v, rest)) ∨
      ∃ mid, mid.length < text.length ∧ parseMembers fuel [] mid = some (v, rest) := by
  have hskip := skipSpace_length text
  rw [parseValue] at h
  generalize skipSpace text = skipped at h hskip
  cases skipped with
  | nil => cases h
  | cons c mid =>
      have hmid : mid.length < text.length := hskip
      dsimp only at h
      split at h
      · obtain ⟨p, hp, heq⟩ := Option.map_eq_some_iff.mp h
        cases heq
        exact .inl ⟨trivial, (parseChars_length hp).trans hmid⟩
      split at h
      · split at h
        · next hclose =>
            cases h
            exact .inl ⟨trivial, (expect_length hclose).trans hmid⟩
        · exact .inr (.inl ⟨mid, hmid, h⟩)
      split at h
      · split at h
        · next hclose =>
            cases h
            exact .inl ⟨⟨List.Pairwise.nil, trivial⟩, (expect_length hclose).trans hmid⟩
        · exact .inr (.inr ⟨mid, hmid, h⟩)
      split at h
      · obtain ⟨rfl, hle⟩ := parseWord_cases h
        exact .inl ⟨trivial, hle.trans_lt hmid⟩
      split at h
      · obtain ⟨rfl, hle⟩ := parseWord_cases h
        exact .inl ⟨trivial, hle.trans_lt hmid⟩
      split at h
      · obtain ⟨rfl, hle⟩ := parseWord_cases h
        exact .inl ⟨trivial, hle.trans_lt hmid⟩
      · obtain ⟨p, hp, heq⟩ := Option.map_eq_some_iff.mp h
        cases heq
        exact .inl ⟨trivial, (parseNumber_length hp).trans_le hskip⟩

/-- A call reads one element, and either another follows or the array ends. -/
theorem parseElements_cases {fuel : ℕ} {elements : List Value} {text rest : Text} {w : Value}
    (h : parseElements (fuel + 1) elements text = some (w, rest)) :
    ∃ v mid, parseValue fuel text = some (v, mid) ∧
      ((∃ next, expect ',' mid = some next ∧
          parseElements fuel (elements ++ [v]) next = some (w, rest)) ∨
        (expect ']' mid = some rest ∧ w = .array (elements ++ [v]))) := by
  rw [parseElements] at h
  obtain ⟨⟨v, mid⟩, hv, h⟩ := Option.bind_eq_some_iff.mp h
  refine ⟨v, mid, hv, ?_⟩
  dsimp only at h
  split at h
  · next hnext => exact .inl ⟨_, hnext, h⟩
  · obtain ⟨_, hclose, heq⟩ := Option.map_eq_some_iff.mp h
    cases heq
    exact .inr ⟨hclose, rfl⟩

/-- A call reads one member, and either another follows or the object ends. -/
theorem parseMembers_cases {fuel : ℕ} {members : List (JsString × Value)} {text rest : Text}
    {w : Value} (h : parseMembers (fuel + 1) members text = some (w, rest)) :
    ∃ key v colon mid, colon.length < text.length ∧ parseValue fuel colon = some (v, mid) ∧
      ((∃ next, expect ',' mid = some next ∧
          parseMembers fuel (setProperty members key v) next = some (w, rest)) ∨
        (expect '}' mid = some rest ∧ w = .object (setProperty members key v))) := by
  rw [parseMembers] at h
  obtain ⟨quoted, hquoted, h⟩ := Option.bind_eq_some_iff.mp h
  obtain ⟨⟨key, unquoted⟩, hkey, h⟩ := Option.bind_eq_some_iff.mp h
  obtain ⟨colon, hcolon, h⟩ := Option.bind_eq_some_iff.mp h
  obtain ⟨⟨v, mid⟩, hv, h⟩ := Option.bind_eq_some_iff.mp h
  have h1 := expect_length hquoted
  have h2 := parseChars_length hkey
  have h3 := expect_length hcolon
  refine ⟨key, v, colon, mid, h3.trans (h2.trans h1), hv, ?_⟩
  dsimp only at h
  split at h
  · next hnext => exact .inl ⟨_, hnext, h⟩
  · obtain ⟨_, hclose, heq⟩ := Option.map_eq_some_iff.mp h
    cases heq
    exact .inr ⟨hclose, rfl⟩

/-! ## Whole texts -/

/-- Every call reads something. -/
theorem parse_lengths (fuel : ℕ) :
    (∀ text v rest, parseValue fuel text = some (v, rest) → rest.length < text.length) ∧
      (∀ elements text v rest,
        parseElements fuel elements text = some (v, rest) → rest.length < text.length) ∧
      ∀ members text v rest,
        parseMembers fuel members text = some (v, rest) → rest.length < text.length := by
  induction fuel with
  | zero =>
      refine ⟨?_, ?_, ?_⟩
      · intro text v rest h
        cases h
      · intro elements text v rest h
        cases h
      · intro members text v rest h
        cases h
  | succ fuel ih =>
      obtain ⟨ihValue, ihElements, ihMembers⟩ := ih
      refine ⟨?_, ?_, ?_⟩
      · intro text v rest h
        rcases parseValue_cases h with ⟨-, hlt⟩ | ⟨mid, hmid, h⟩ | ⟨mid, hmid, h⟩
        · exact hlt
        · exact (ihElements [] mid v rest h).trans hmid
        · exact (ihMembers [] mid v rest h).trans hmid
      · intro elements text w rest h
        obtain ⟨v, mid, hv, ⟨next, hnext, h⟩ | ⟨hclose, -⟩⟩ := parseElements_cases h
        · exact (ihElements _ next w rest h).trans
            ((expect_length hnext).trans (ihValue text v mid hv))
        · exact (expect_length hclose).trans (ihValue text v mid hv)
      · intro members text w rest h
        obtain ⟨key, v, colon, mid, hcolon, hv, ⟨next, hnext, h⟩ | ⟨hclose, -⟩⟩ :=
          parseMembers_cases h
        · exact (ihMembers _ next w rest h).trans
            ((expect_length hnext).trans ((ihValue colon v mid hv).trans hcolon))
        · exact (expect_length hclose).trans ((ihValue colon v mid hv).trans hcolon)

theorem NormalElements.append {elements : List Value} (h : NormalElements elements) {v : Value}
    (hv : v.Normal) : NormalElements (elements ++ [v]) := by
  induction elements with
  | nil => exact ⟨hv, trivial⟩
  | cons w elements ih => exact ⟨h.1, ih h.2⟩

theorem NormalMembers.setProperty {members : List (JsString × Value)} (h : NormalMembers members)
    (key : JsString) {v : Value} (hv : v.Normal) :
    NormalMembers (setProperty members key v) := by
  induction members with
  | nil => exact ⟨hv, trivial⟩
  | cons m members ih =>
      obtain ⟨k, w⟩ := m
      unfold Json.setProperty
      split
      · exact ⟨hv, h.2⟩
      · split
        · exact ⟨hv, h⟩
        · exact ⟨h.1, ih h.2⟩

/-- Only values in order are read. -/
theorem parse_normals (fuel : ℕ) :
    (∀ text v rest, parseValue fuel text = some (v, rest) → v.Normal) ∧
      (∀ elements text v rest, NormalElements elements →
        parseElements fuel elements text = some (v, rest) → v.Normal) ∧
      ∀ members text v rest, Ordered members → NormalMembers members →
        parseMembers fuel members text = some (v, rest) → v.Normal := by
  induction fuel with
  | zero =>
      refine ⟨?_, ?_, ?_⟩
      · intro text v rest h
        cases h
      · intro elements text v rest _ h
        cases h
      · intro members text v rest _ _ h
        cases h
  | succ fuel ih =>
      obtain ⟨ihValue, ihElements, ihMembers⟩ := ih
      refine ⟨?_, ?_, ?_⟩
      · intro text v rest h
        rcases parseValue_cases h with ⟨hnormal, -⟩ | ⟨mid, -, h⟩ | ⟨mid, -, h⟩
        · exact hnormal
        · exact ihElements [] mid v rest trivial h
        · exact ihMembers [] mid v rest List.Pairwise.nil trivial h
      · intro elements text w rest hnormal h
        obtain ⟨v, mid, hv, hcases⟩ := parseElements_cases h
        have hnormal' := hnormal.append (ihValue text v mid hv)
        rcases hcases with ⟨next, -, h⟩ | ⟨-, rfl⟩
        · exact ihElements _ next w rest hnormal' h
        · exact hnormal'
      · intro members text w rest hordered hnormal h
        obtain ⟨key, v, colon, mid, -, hv, hcases⟩ := parseMembers_cases h
        have hordered' := hordered.setProperty key v
        have hnormal' := hnormal.setProperty key (ihValue colon v mid hv)
        rcases hcases with ⟨next, -, h⟩ | ⟨-, rfl⟩
        · exact ihMembers _ next w rest hordered' hnormal' h
        · exact ⟨hordered', hnormal'⟩

theorem parse_normal {text : Text} {v : Value} (h : parse text = some v) : v.Normal := by
  unfold parse at h
  obtain ⟨⟨w, rest⟩, hw, h⟩ := Option.bind_eq_some_iff.mp h
  split at h
  · cases h
    exact (parse_normals _).1 text _ rest hw
  · cases h

/-! ## Enough fuel -/

theorem parseValue_congr {f g : ℕ} {text : Text}
    (h : ∀ mid, mid.length < text.length →
      parseElements f [] mid = parseElements g [] mid ∧
        parseMembers f [] mid = parseMembers g [] mid) :
    parseValue (f + 1) text = parseValue (g + 1) text := by
  have hskip := skipSpace_length text
  rw [parseValue, parseValue]
  generalize skipSpace text = skipped at hskip ⊢
  cases skipped with
  | nil => rfl
  | cons c mid =>
      obtain ⟨helements, hmembers⟩ := h mid hskip
      dsimp only
      rw [helements, hmembers]

theorem parseElements_congr {f g : ℕ} {elements : List Value} {text : Text}
    (hvalue : parseValue f text = parseValue g text)
    (hnext : ∀ elements' next, next.length + 1 < text.length →
      parseElements f elements' next = parseElements g elements' next) :
    parseElements (f + 1) elements text = parseElements (g + 1) elements text := by
  rw [parseElements, parseElements, hvalue]
  cases hread : parseValue g text with
  | none => rfl
  | some p =>
      have hlt := (parse_lengths g).1 text p.1 p.2 hread
      rw [Option.bind_some, Option.bind_some]
      split
      · next next heq =>
          have hless := expect_length heq
          exact hnext _ next (by omega)
      · rfl

theorem parseMembers_congr {f g : ℕ} {members : List (JsString × Value)} {text : Text}
    (hvalue : ∀ mid, mid.length < text.length → parseValue f mid = parseValue g mid)
    (hnext : ∀ members' next, next.length + 1 < text.length →
      parseMembers f members' next = parseMembers g members' next) :
    parseMembers (f + 1) members text = parseMembers (g + 1) members text := by
  rw [parseMembers, parseMembers]
  cases hquote : expect '"' text with
  | none => rfl
  | some quoted =>
      rw [Option.bind_some, Option.bind_some]
      cases hkey : parseChars quoted with
      | none => rfl
      | some key =>
          rw [Option.bind_some, Option.bind_some]
          cases hcolon : expect ':' key.2 with
          | none => rfl
          | some colon =>
              have h1 := expect_length hquote
              have h2 : key.2.length < quoted.length := parseChars_length hkey
              have h3 := expect_length hcolon
              rw [Option.bind_some, Option.bind_some, hvalue colon (by omega)]
              cases hread : parseValue g colon with
              | none => rfl
              | some p =>
                  have hlt := (parse_lengths g).1 colon p.1 p.2 hread
                  rw [Option.bind_some, Option.bind_some]
                  split
                  · next next heq =>
                      have hless := expect_length heq
                      exact hnext _ next (by omega)
                  · rfl

/-- More fuel than twice the length of the text makes no difference. -/
theorem parse_fuels (f : ℕ) : ∀ g,
    (∀ text : Text, 2 * text.length < f → 2 * text.length < g →
      parseValue f text = parseValue g text) ∧
      (∀ elements (text : Text), 2 * text.length + 1 < f → 2 * text.length + 1 < g →
        parseElements f elements text = parseElements g elements text) ∧
      ∀ members (text : Text), 2 * text.length + 1 < f → 2 * text.length + 1 < g →
        parseMembers f members text = parseMembers g members text := by
  induction f with
  | zero =>
      intro g
      refine ⟨?_, ?_, ?_⟩
      · intro text hf
        omega
      · intro elements text hf
        omega
      · intro members text hf
        omega
  | succ f ih =>
      intro g
      cases g with
      | zero =>
          refine ⟨?_, ?_, ?_⟩
          · intro text _ hg
            omega
          · intro elements text _ hg
            omega
          · intro members text _ hg
            omega
      | succ g =>
          obtain ⟨ihValue, ihElements, ihMembers⟩ := ih g
          refine ⟨?_, ?_, ?_⟩
          · intro text hf hg
            refine parseValue_congr fun mid hmid => ⟨?_, ?_⟩
            · exact ihElements [] mid (by omega) (by omega)
            · exact ihMembers [] mid (by omega) (by omega)
          · intro elements text hf hg
            refine parseElements_congr (ihValue text (by omega) (by omega)) ?_
            exact fun elements' next hnext => ihElements elements' next (by omega) (by omega)
          · intro members text hf hg
            refine parseMembers_congr ?_ ?_
            · exact fun mid hmid => ihValue mid (by omega) (by omega)
            · exact fun members' next hnext => ihMembers members' next (by omega) (by omega)

/-- `parse` never runs out of fuel. -/
theorem parseValue_fuel {fuel : ℕ} {text : Text} (h : 2 * text.length + 2 ≤ fuel) :
    parseValue fuel text = parseValue (2 * text.length + 2) text :=
  (parse_fuels fuel _).1 text (by omega) (by omega)

/-! ## Reading what was written -/

/-- The first character of a value is neither space nor a bracket that closes. -/
theorem Value.text_head (v : Value) :
    ∃ c text, v.text = c :: text ∧ isSpace c = false ∧ c ≠ ']' := by
  cases v with
  | null => exact ⟨'n', _, rfl, rfl, by decide⟩
  | bool b =>
      cases b with
      | true => exact ⟨'t', _, rfl, rfl, by decide⟩
      | false => exact ⟨'f', _, rfl, rfl, by decide⟩
  | number x =>
      by_cases hx : x.IsFinite
      · obtain ⟨c, text, htext, hc⟩ := Double.text_head hx
        refine ⟨c, text, htext, ?_⟩
        rcases hc with rfl | hc
        · exact ⟨rfl, by decide⟩
        · refine ⟨?_, ?_⟩
          · simp only [isSpace, Bool.or_eq_false_iff, decide_eq_false_iff_not]
            refine ⟨⟨⟨?_, ?_⟩, ?_⟩, ?_⟩
            all_goals
              rintro rfl
              exact absurd hc (by decide)
          · rintro rfl
            exact absurd hc (by decide)
      · cases x with
        | finite negative x => exact absurd trivial hx
        | infinity negative => exact ⟨'n', _, rfl, rfl, by decide⟩
  | string s => exact ⟨'"', _, rfl, rfl, by decide⟩
  | array elements => exact ⟨'[', _, rfl, rfl, by decide⟩
  | object members => exact ⟨'{', _, rfl, rfl, by decide⟩

/-- A comma or a closing bracket ends a number. -/
theorem ends_cons {c : Char} (h : c = ',' ∨ c = ']' ∨ c = '}') (rest : Text) :
    Ends (c :: rest) := by
  intro d hd
  cases hd
  rcases h with rfl | rfl | rfl
  all_goals decide

theorem parseValue_number {x : Double} (hx : x.IsFinite) {rest : Text} (hrest : Ends rest)
    (fuel : ℕ) : parseValue (fuel + 1) (x.text ++ rest) = some (.number x.reread, rest) := by
  have hread := parseNumber_text hx hrest
  obtain ⟨c, text, htext, hc⟩ := Double.text_head hx
  have hne (d : Char) (hd : d.isDigit = false) (hminus : d ≠ '-') : c ≠ d := by
    rintro rfl
    rcases hc with hc | hc
    · exact hminus hc
    · rw [hc] at hd
      cases hd
  obtain ⟨d, text', htext', hspace, -⟩ := (Value.number x).text_head
  rw [Value.text, htext] at htext'
  cases htext'
  rw [htext, List.cons_append] at hread ⊢
  rw [parseValue, skipSpace_cons hspace]
  dsimp only
  rw [if_neg (hne '"' rfl (by decide)), if_neg (hne '[' rfl (by decide)),
    if_neg (hne '{' rfl (by decide)), if_neg (hne 't' rfl (by decide)),
    if_neg (hne 'f' rfl (by decide)), if_neg (hne 'n' rfl (by decide)), hread]
  rfl

theorem parseWord_self (tail : Text) (v : Value) (rest : Text) :
    parseWord tail v (tail ++ rest) = some (v, rest) := by
  rw [parseWord, if_pos (List.isPrefixOf_iff_prefix.mpr (List.prefix_append tail rest)),
    List.drop_left]

/-- The property of a value that the round trip rests on, for enough fuel. -/
def Reads (v : Value) : Prop :=
  ∀ fuel rest, 2 * v.text.length ≤ fuel → Ends rest →
    parseValue fuel (v.text ++ rest) = some (v.reread, rest)

theorem parseElements_text {v : Value} {elements : List Value} (hv : Reads v)
    (helements : ∀ w ∈ elements, Reads w) (fuel : ℕ) (before : List Value) (rest : Text)
    (hfuel : 2 * (v.text ++ elementsTail elements).length + 1 ≤ fuel) :
    parseElements fuel before (v.text ++ elementsTail elements ++ ']' :: rest) =
      some (.array (before ++ v.reread :: elementsReread elements), rest) := by
  induction elements generalizing v fuel before with
  | nil =>
      obtain ⟨fuel, rfl⟩ := Nat.exists_eq_add_of_le' (show 1 ≤ fuel by omega)
      rw [elementsTail, List.append_nil] at hfuel ⊢
      rw [parseElements, hv fuel _ (by omega) (ends_cons (.inr (.inl rfl)) rest), Option.bind_some]
      dsimp only
      rw [expect_ne rfl (by decide), expect_self rfl]
      rfl
  | cons w elements ih =>
      obtain ⟨fuel, rfl⟩ := Nat.exists_eq_add_of_le' (show 1 ≤ fuel by omega)
      rw [elementsTail] at hfuel ⊢
      rw [List.length_append, List.length_cons] at hfuel
      have hread := hv fuel (',' :: (w.text ++ elementsTail elements ++ ']' :: rest)) (by omega)
        (ends_cons (.inl rfl) _)
      rw [List.append_assoc, List.cons_append, parseElements, hread, Option.bind_some]
      dsimp only
      rw [expect_self rfl]
      dsimp only
      rw [ih (helements w List.mem_cons_self)
        (fun u hu => helements u (List.mem_cons_of_mem w hu)) fuel (before ++ [v.reread])
        (by omega), List.append_assoc, elementsReread, List.singleton_append]

theorem parseMembers_text {key : JsString} {v : Value} {members : List (JsString × Value)}
    (hv : Reads v) (hmembers : ∀ m ∈ members, Reads m.2) (fuel : ℕ)
    (before : List (JsString × Value)) (rest : Text)
    (hordered : Ordered (before ++ (key, v.reread) :: membersReread members))
    (hfuel : 2 * (quote key ++ ':' :: (v.text ++ membersTail members)).length + 1 ≤ fuel) :
    parseMembers fuel before (quote key ++ ':' :: (v.text ++ membersTail members) ++ '}' :: rest) =
      some (.object (before ++ (key, v.reread) :: membersReread members), rest) := by
  have hafter {tail : List (JsString × Value)} {key : JsString} {w : Value}
      {before : List (JsString × Value)} (h : Ordered (before ++ (key, w) :: tail)) :
      setProperty before key w = before ++ [(key, w)] := by
    refine setProperty_of_before (fun k hk => ?_) w
    rw [Ordered, List.map_append, List.pairwise_append] at h
    exact h.2.2 k hk key List.mem_cons_self
  induction members generalizing key v fuel before with
  | nil =>
      obtain ⟨fuel, rfl⟩ := Nat.exists_eq_add_of_le' (show 1 ≤ fuel by omega)
      rw [List.length_append, List.length_cons, List.length_append] at hfuel
      rw [membersTail, List.append_nil, quote]
      simp only [List.cons_append, List.append_assoc, List.nil_append]
      rw [parseMembers, expect_self rfl, Option.bind_some, parseChars_quoteChars, Option.bind_some]
      dsimp only
      rw [expect_self rfl, Option.bind_some,
        hv fuel _ (by omega) (ends_cons (.inr (.inr rfl)) rest), Option.bind_some]
      dsimp only
      rw [expect_ne rfl (by decide), expect_self rfl, hafter hordered]
      rfl
  | cons m members ih =>
      obtain ⟨key', w⟩ := m
      obtain ⟨fuel, rfl⟩ := Nat.exists_eq_add_of_le' (show 1 ≤ fuel by omega)
      rw [membersTail] at hfuel ⊢
      rw [List.length_append, List.length_cons, List.length_append, List.length_cons] at hfuel
      have hread := hv fuel
        (',' :: (quote key' ++ ':' :: (w.text ++ membersTail members) ++ '}' :: rest)) (by omega)
        (ends_cons (.inl rfl) _)
      rw [quote]
      simp only [List.cons_append, List.append_assoc, List.nil_append] at hread ⊢
      rw [parseMembers, expect_self rfl, Option.bind_some, parseChars_quoteChars, Option.bind_some]
      dsimp only
      rw [expect_self rfl, Option.bind_some, hread, Option.bind_some]
      dsimp only
      rw [expect_self rfl]
      dsimp only
      have hrest := ih (v := w) (hmembers (key', w) List.mem_cons_self)
        (fun u hu => hmembers u (List.mem_cons_of_mem _ hu)) fuel (before ++ [(key, v.reread)])
        (by rw [List.append_assoc]; exact hordered) (by omega)
      simp only [List.cons_append, List.append_assoc, List.nil_append] at hrest
      rw [hafter hordered, hrest, membersReread]

theorem Value.text_pos (v : Value) : 0 < v.text.length := by
  obtain ⟨c, text, htext, -⟩ := v.text_head
  rw [htext]
  exact Nat.succ_pos _

/-- No value is read without fuel. -/
theorem reads_of_succ {v : Value}
    (h : ∀ fuel rest, 2 * v.text.length ≤ fuel + 1 → Ends rest →
      parseValue (fuel + 1) (v.text ++ rest) = some (v.reread, rest)) : Reads v := by
  intro fuel rest hfuel hrest
  have hpos := v.text_pos
  obtain ⟨fuel, rfl⟩ := Nat.exists_eq_add_of_le' (show 1 ≤ fuel by omega)
  exact h fuel rest hfuel hrest

theorem reads_string (s : JsString) : Reads (.string s) := by
  refine reads_of_succ fun fuel rest _ _ => ?_
  rw [Value.text, quote, List.cons_append, List.append_assoc, parseValue,
    skipSpace_cons (by decide)]
  dsimp only
  rw [if_pos rfl, List.singleton_append, parseChars_quoteChars]
  rfl

theorem reads_array {elements : List Value} (h : ∀ v ∈ elements, Reads v) :
    Reads (.array elements) := by
  refine reads_of_succ fun fuel rest hfuel _ => ?_
  rw [Value.text, List.length_cons, List.length_append, List.length_singleton] at hfuel
  rw [Value.text, List.cons_append, List.append_assoc, List.singleton_append, parseValue,
    skipSpace_cons (by decide)]
  dsimp only
  rw [if_neg (by decide), if_pos rfl]
  cases elements with
  | nil => rfl
  | cons v elements =>
      obtain ⟨c, text, htext, hspace, hne⟩ := v.text_head
      have hopen : expect ']' (elementsText (v :: elements) ++ ']' :: rest) = none := by
        rw [elementsText, htext]
        exact expect_ne hspace hne _
      rw [hopen]
      exact parseElements_text (h v List.mem_cons_self)
        (fun w hw => h w (List.mem_cons_of_mem v hw)) fuel [] rest
        (by rw [elementsText] at hfuel; omega)

theorem reads_object {members : List (JsString × Value)} (hordered : Ordered members)
    (h : ∀ m ∈ members, Reads m.2) : Reads (.object members) := by
  refine reads_of_succ fun fuel rest hfuel _ => ?_
  rw [Value.text, List.length_cons, List.length_append, List.length_singleton] at hfuel
  rw [Value.text, List.cons_append, List.append_assoc, List.singleton_append, parseValue,
    skipSpace_cons (by decide)]
  dsimp only
  rw [if_neg (by decide), if_neg (by decide), if_pos rfl]
  cases members with
  | nil => rfl
  | cons m members =>
      obtain ⟨key, v⟩ := m
      have hopen : expect '}' (membersText ((key, v) :: members) ++ '}' :: rest) = none := by
        rw [membersText, quote]
        exact expect_ne (by decide) (by decide) _
      rw [hopen]
      exact parseMembers_text (v := v) (h (key, v) List.mem_cons_self)
        (fun w hw => h w (List.mem_cons_of_mem _ hw)) fuel [] rest hordered.reread
        (by rw [membersText] at hfuel; omega)

/-- Every value in order is read back, whatever follows it. -/
theorem reads (v : Value) : v.Normal → Reads v := by
  induction v using Value.ind with
  | null =>
      exact fun _ => reads_of_succ fun _ rest _ _ => parseWord_self ['u', 'l', 'l'] .null rest
  | bool b =>
      intro _
      refine reads_of_succ fun fuel rest _ _ => ?_
      cases b with
      | true => exact parseWord_self ['r', 'u', 'e'] (.bool true) rest
      | false => exact parseWord_self ['a', 'l', 's', 'e'] (.bool false) rest
  | number x =>
      intro _
      refine reads_of_succ fun fuel rest _ hrest => ?_
      by_cases hx : x.IsFinite
      · rw [Value.text, Value.reread, if_pos hx]
        exact parseValue_number hx hrest fuel
      · rw [Value.reread, if_neg hx]
        cases x with
        | finite negative x => exact absurd trivial hx
        | infinity negative => exact parseWord_self ['u', 'l', 'l'] .null rest
  | string s => exact fun _ => reads_string s
  | array elements ih =>
      exact fun hnormal => reads_array fun v hv => ih v hv (normalElements_iff.mp hnormal v hv)
  | object members ih =>
      exact fun hnormal => reads_object hnormal.1 fun m hm =>
        ih m hm (normalMembers_iff.mp hnormal.2 m hm)

/-- The text of a value is read as the value, up to what numbers lose. -/
theorem parse_text {v : Value} (h : v.Normal) : parse v.text = some v.reread := by
  have hread := reads v h (2 * v.text.length + 2) [] (by omega) nofun
  rw [List.append_nil] at hread
  rw [parse, hread]
  rfl

end Json
