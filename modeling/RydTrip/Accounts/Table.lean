import Mathlib.Data.List.Pairwise

/-!
# Tables of accounts

The `riders` and `drivers` tables as far as accounts go: an id, a phone and an
email, each with a unique constraint of its own, and a password hash.  An
account is looked up by an identifier that may be either of phone and email, in
which case `findFirst` returns any row that matches.  `findFirst_iff_noCross`
says when that is the row one has in mind.
-/

namespace RydTrip

namespace Accounts

/-- `isEmail` of class-validator. -/
structure EmailCheck where
  isEmail : String → Bool
  isEmail_empty : isEmail "" = false

/-- `@IsString() @IsNotEmpty()` -/
abbrev NonEmpty : Type := { s : String // s ≠ "" }

/-- `@IsEmail()` -/
abbrev Email (v : EmailCheck) : Type := { s : String // v.isEmail s = true }

theorem Email.ne_empty {v : EmailCheck} (email : Email v) : email.val ≠ "" := by
  intro h
  have hvalid := email.property
  rw [h, v.isEmail_empty] at hvalid
  cases hvalid

variable {v : EmailCheck} {π : Type}

/-- A row.  `profile` holds the columns that are not about the account. -/
structure AccountRow (v : EmailCheck) (π : Type) where
  id : String
  phone : NonEmpty
  email : Email v
  passwordHash : String
  profile : π

/-- The rows share no key. -/
structure Apart (a b : AccountRow v π) : Prop where
  id : a.id ≠ b.id
  phone : a.phone ≠ b.phone
  email : a.email ≠ b.email

theorem Apart.symm {a b : AccountRow v π} (h : Apart a b) : Apart b a :=
  ⟨h.id.symm, h.phone.symm, h.email.symm⟩

instance : Std.Symm (Apart (v := v) (π := π)) := ⟨fun _ _ => Apart.symm⟩

/-- The unique constraints are part of the table. -/
structure AccountTable (v : EmailCheck) (π : Type) where
  rows : List (AccountRow v π)
  apart : rows.Pairwise Apart

inductive PrismaError where
  /-- P2002, with the column it is about. -/
  | uniqueConstraint (target : String)
  /-- P2025 -/
  | recordNotFound
  /-- A `null` for a column that takes none. -/
  | nullArgument
  deriving DecidableEq, Repr

/-- The values an update sets. -/
structure Changes (v : EmailCheck) (π : Type) where
  phone : Option NonEmpty
  email : Option (Email v)
  profile : π → π

def Changes.apply (changes : Changes v π) (row : AccountRow v π) : AccountRow v π :=
  { row with
    phone := changes.phone.getD row.phone
    email := changes.email.getD row.email
    profile := changes.profile row.profile }

/-- The first constraint that a row would break beside the others. -/
def conflict (others : List (AccountRow v π)) (row : AccountRow v π) : Option String :=
  if others.any fun other => other.id = row.id then some "id"
  else if others.any fun other => other.phone = row.phone then some "phone"
  else if others.any fun other => other.email = row.email then some "email"
  else none

theorem conflict_eq_none {others : List (AccountRow v π)} {row : AccountRow v π} :
    conflict others row = none ↔ ∀ other ∈ others, Apart other row := by
  unfold conflict
  constructor
  · intro h other hmem
    split at h
    · cases h
    next hid =>
      split at h
      · cases h
      next hphone =>
        split at h
        · cases h
        next hemail =>
          simp only [List.any_eq_true, decide_eq_true_eq, not_exists, not_and] at hid hphone hemail
          exact ⟨hid other hmem, hphone other hmem, hemail other hmem⟩
  · intro h
    have hnone {p : AccountRow v π → Bool} (hp : ∀ other, Apart other row → p other = false) :
        ¬ others.any p = true := by
      rw [Bool.not_eq_true, List.any_eq_false]
      intro other hmem
      rw [hp other (h other hmem)]
      exact Bool.false_ne_true
    rw [if_neg (hnone fun other ha => decide_eq_false ha.id),
      if_neg (hnone fun other ha => decide_eq_false ha.phone),
      if_neg (hnone fun other ha => decide_eq_false ha.email)]

namespace AccountTable

def empty : AccountTable v π := ⟨[], .nil⟩

/-! ## Statements -/

/-- `findUnique` by id. -/
def findById (table : AccountTable v π) (id : String) : Option (AccountRow v π) :=
  table.rows.find? fun row => row.id = id

/-- `create` -/
def create (table : AccountTable v π) (row : AccountRow v π) :
    Except PrismaError (AccountTable v π) :=
  match h : conflict table.rows row with
  | some target => .error (.uniqueConstraint target)
  | none =>
      .ok
        { rows := table.rows ++ [row]
          apart := List.pairwise_append.mpr ⟨table.apart, List.pairwise_singleton _ _,
            fun other hmem _ hrow => List.mem_singleton.mp hrow ▸
              conflict_eq_none.mp h other hmem⟩ }

/-- The rows with other ids. -/
def others (table : AccountTable v π) (id : String) : List (AccountRow v π) :=
  table.rows.filter fun row => row.id ≠ id

/-- No two rows have the same key. -/
theorem eq_of_not_apart (table : AccountTable v π) {a b : AccountRow v π} (ha : a ∈ table.rows)
    (hb : b ∈ table.rows) (h : ¬ Apart a b) : a = b := by
  by_contra hne
  exact h (table.apart.forall ha hb hne)

theorem eq_of_id_eq (table : AccountTable v π) {a b : AccountRow v π} (ha : a ∈ table.rows)
    (hb : b ∈ table.rows) (h : a.id = b.id) : a = b :=
  table.eq_of_not_apart ha hb fun hapart => hapart.id h

/-- The rows after an update stay apart. -/
theorem apart_update (table : AccountTable v π) (id : String) (changes : Changes v π)
    (row : AccountRow v π) (hrow : row ∈ table.rows) (hid : row.id = id)
    (h : ∀ other ∈ table.others id, Apart other (changes.apply row)) :
    (table.rows.map fun r => if r.id = id then changes.apply r else r).Pairwise Apart := by
  rw [List.pairwise_map]
  have hthis {r : AccountRow v π} (hr : r ∈ table.rows) (hr' : r.id = id) : r = row :=
    table.eq_of_id_eq hr hrow (hr'.trans hid.symm)
  have hother {r : AccountRow v π} (hr : r ∈ table.rows) (hne : r.id ≠ id) :
      Apart r (changes.apply row) := h r (List.mem_filter.mpr ⟨hr, decide_eq_true hne⟩)
  refine table.apart.imp_of_mem fun {a b} ha hb hab => ?_
  by_cases haid : a.id = id
  · by_cases hbid : b.id = id
    · exact absurd (haid.trans hbid.symm) hab.id
    · rw [if_pos haid, if_neg hbid, hthis ha haid]
      exact (hother hb hbid).symm
  · by_cases hbid : b.id = id
    · rw [if_neg haid, if_pos hbid, hthis hb hbid]
      exact hother ha haid
    · rw [if_neg haid, if_neg hbid]
      exact hab

/-- `update` by id. -/
def update (table : AccountTable v π) (id : String) (changes : Changes v π) :
    Except PrismaError (AccountRow v π × AccountTable v π) :=
  match hrow : table.findById id with
  | none => .error .recordNotFound
  | some row =>
      match h : conflict (table.others id) (changes.apply row) with
      | some target => .error (.uniqueConstraint target)
      | none =>
          .ok (changes.apply row,
            { rows := table.rows.map fun r => if r.id = id then changes.apply r else r
              apart := table.apart_update id changes row (List.mem_of_find?_eq_some hrow)
                (by simpa using List.find?_some hrow) (conflict_eq_none.mp h) })

/-- The rows that a login identifier matches. -/
def matching (table : AccountTable v π) (identifier : String) : List (AccountRow v π) :=
  table.rows.filter fun row => row.phone.val = identifier ∨ row.email.val = identifier

/-- `findFirst` over phone and email.  Without an order it may return any of the
rows that match. -/
def findFirst (table : AccountTable v π) (choice : Nat) (identifier : String) :
    Option (AccountRow v π) :=
  let rows := table.matching identifier
  rows[choice % rows.length]?

/-! ## What the statements leave -/

theorem create_ok {table table' : AccountTable v π} {row : AccountRow v π}
    (h : table.create row = .ok table') :
    table'.rows = table.rows ++ [row] ∧ ∀ other ∈ table.rows, Apart other row := by
  unfold create at h
  split at h
  · cases h
  next hnone =>
    cases h
    exact ⟨rfl, conflict_eq_none.mp hnone⟩

theorem update_ok {table table' : AccountTable v π} {id : String} {changes : Changes v π}
    {row' : AccountRow v π} (h : table.update id changes = .ok (row', table')) :
    ∃ row, table.findById id = some row ∧ row' = changes.apply row ∧
      (∀ other ∈ table.others id, Apart other row') ∧
      table'.rows = table.rows.map fun r => if r.id = id then changes.apply r else r := by
  unfold update at h
  split at h
  · cases h
  next row hrow =>
    split at h
    · cases h
    next hnone =>
      cases h
      exact ⟨row, hrow, rfl, conflict_eq_none.mp hnone, rfl⟩

/-- A create only fails for a row that shares a key. -/
theorem create_error {table : AccountTable v π} {row : AccountRow v π} {err : PrismaError}
    (h : table.create row = .error err) : ¬ ∀ other ∈ table.rows, Apart other row := by
  intro hapart
  rw [← conflict_eq_none] at hapart
  unfold create at h
  split at h
  next target htarget =>
    rw [htarget] at hapart
    cases hapart
  · cases h

/-- So does the update of a row that is there. -/
theorem update_error {table : AccountTable v π} {id : String} {changes : Changes v π}
    {row : AccountRow v π} {err : PrismaError} (hrow : table.findById id = some row)
    (h : table.update id changes = .error err) :
    ¬ ∀ other ∈ table.others id, Apart other (changes.apply row) := by
  intro hapart
  rw [← conflict_eq_none] at hapart
  unfold update at h
  split at h
  next hnone =>
    rw [hrow] at hnone
    cases hnone
  next row' hrow' =>
    rw [hrow] at hrow'
    cases hrow'
    split at h
    next target htarget =>
      rw [htarget] at hapart
      cases hapart
    · cases h

theorem mem_of_findById {table : AccountTable v π} {id : String} {row : AccountRow v π}
    (h : table.findById id = some row) : row ∈ table.rows ∧ row.id = id :=
  ⟨List.mem_of_find?_eq_some h, by simpa using List.find?_some h⟩

/-- The rows after an update: the one it names, and all others as they were. -/
theorem mem_update {table : AccountTable v π} {id : String} {changes : Changes v π}
    {row : AccountRow v π} (hrow : table.findById id = some row) {r : AccountRow v π} :
    (r ∈ table.rows.map fun r => if r.id = id then changes.apply r else r) ↔
      r = changes.apply row ∨ r ∈ table.others id := by
  obtain ⟨hmem, hid⟩ := mem_of_findById hrow
  rw [List.mem_map]
  constructor
  · rintro ⟨r₀, hr₀, rfl⟩
    by_cases h : r₀.id = id
    · rw [if_pos h, table.eq_of_id_eq hr₀ hmem (h.trans hid.symm)]
      exact .inl rfl
    · rw [if_neg h]
      exact .inr (List.mem_filter.mpr ⟨hr₀, decide_eq_true h⟩)
  · rintro (rfl | hr)
    · exact ⟨row, hmem, by rw [if_pos hid]⟩
    · obtain ⟨hr, hne⟩ := List.mem_filter.mp hr
      exact ⟨r, hr, if_neg (of_decide_eq_true hne)⟩

/-! ## Looking up an account -/

theorem mem_matching {table : AccountTable v π} {identifier : String} {row : AccountRow v π} :
    row ∈ table.matching identifier ↔
      row ∈ table.rows ∧ (row.phone.val = identifier ∨ row.email.val = identifier) := by
  unfold matching
  rw [List.mem_filter, decide_eq_true_iff]

theorem findFirst_mem {table : AccountTable v π} {choice : Nat} {identifier : String}
    {row : AccountRow v π} (h : table.findFirst choice identifier = some row) :
    row ∈ table.matching identifier :=
  List.mem_of_getElem? h

theorem findFirst_isSome {table : AccountTable v π} {identifier : String} {row : AccountRow v π}
    (h : row ∈ table.matching identifier) (choice : Nat) :
    ∃ found, table.findFirst choice identifier = some found := by
  have hpos : 0 < (table.matching identifier).length := List.length_pos_of_mem h
  exact ⟨_, List.getElem?_eq_getElem (Nat.mod_lt choice hpos)⟩

/-- No phone of an account is the email of another. -/
def NoCross (table : AccountTable v π) : Prop :=
  ∀ a ∈ table.rows, ∀ b ∈ table.rows, a.phone.val = b.email.val → a = b

/-- Either identifier of an account only ever finds that account. -/
def Unambiguous (table : AccountTable v π) : Prop :=
  ∀ row ∈ table.rows, ∀ identifier, (identifier = row.phone.val ∨ identifier = row.email.val) →
    ∀ choice, table.findFirst choice identifier = some row

theorem NoCross.unambiguous {table : AccountTable v π} (h : table.NoCross) :
    table.Unambiguous := by
  intro row hrow identifier hid choice
  have hmatch : row ∈ table.matching identifier :=
    mem_matching.mpr ⟨hrow, hid.imp Eq.symm Eq.symm⟩
  obtain ⟨found, hfound⟩ := findFirst_isSome hmatch choice
  obtain ⟨hmem, hkey⟩ := mem_matching.mp (findFirst_mem hfound)
  suffices found = row by rw [hfound, this]
  rcases hid with rfl | rfl
  · rcases hkey with hphone | hemail
    · exact table.eq_of_not_apart hmem hrow fun hapart => hapart.phone (Subtype.ext hphone)
    · exact (h row hrow found hmem hemail.symm).symm
  · rcases hkey with hphone | hemail
    · exact h found hmem row hrow hphone
    · exact table.eq_of_not_apart hmem hrow fun hapart => hapart.email (Subtype.ext hemail)

/-- The columns are unique each by itself, so all that can go wrong is a phone
that is another account's email. -/
theorem unambiguous_iff_noCross {table : AccountTable v π} :
    table.Unambiguous ↔ table.NoCross := by
  refine ⟨fun h a ha b hb heq => ?_, NoCross.unambiguous⟩
  have hfind := h a ha a.phone.val (.inl rfl) 0
  rw [h b hb a.phone.val (.inr heq) 0] at hfind
  exact (Option.some.inj hfind).symm

end AccountTable

end Accounts

end RydTrip
