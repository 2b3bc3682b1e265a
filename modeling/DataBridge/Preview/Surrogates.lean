import DataBridge.Preview.Json

/-!
# Unpaired surrogates

`_check_row` walks a row with a work list. `Value.Occurs` says what a walk through the
whole tree would find: the keys and the strings at any depth. The work list accepts a row
exactly when none of them holds a surrogate (`checkPending_iff`): a container on the list
stands for everything in it, and a pass over one puts what it has not looked at back on
the list.
-/

namespace DataBridge

open Json

variable {N : Type}

/-! ## The texts of a value -/

/-- `text` is a key or a string at some depth of a value. -/
inductive Json.Value.Occurs (text : Text) : Value N → Prop
  | string : Value.Occurs text (.string text)
  | item {items : List (Value N)} {item : Value N} :
    item ∈ items → Value.Occurs text item → Value.Occurs text (.array items)
  | key {members : List (Text × Value N)} {value : Value N} :
    (text, value) ∈ members → Value.Occurs text (.object members)
  | value {members : List (Text × Value N)} {key : Text} {value : Value N} :
    (key, value) ∈ members → Value.Occurs text value → Value.Occurs text (.object members)

/-- No key and no string at any depth holds a surrogate. -/
def Json.Value.Paired (value : Value N) : Prop := ∀ text, Value.Occurs text value → text.Plain

def Container.value : Container N → Value N
  | .dict members => .object members
  | .list items => .array items

theorem unencodable_iff {text : Option Text} :
    unencodable text = false ↔ ∀ t, text = some t → t.Plain := by
  cases text with
  | none =>
    constructor
    · intro _ t absent
      cases absent
    · intro _
      rfl
  | some t =>
    simp only [unencodable, Option.any_some, Bool.not_eq_false', Option.some.injEq, Text.encodable]
    constructor
    · rintro encodable _ rfl
      exact plain_of_isSome encodable
    · intro plain
      exact (plain t rfl).isSome_utf8Length

/-! ## One container -/

/-- What a pass asks of one pair. -/
def PairPaired (pair : Option Text × Value N) : Prop :=
  (∀ text, pair.1 = some text → text.Plain) ∧ pair.2.Paired

theorem Json.Value.paired_iff {value : Value N} :
    value.Paired ↔ (∀ text, asText value = some text → text.Plain) ∧
      ∀ container, asContainer value = some container → container.value.Paired := by
  constructor
  · intro paired
    constructor
    · intro text isText
      cases value with
      | string t =>
        cases isText
        exact paired text .string
      | _ => cases isText
    · intro container isContainer
      cases value with
      | array items =>
        cases isContainer
        exact paired
      | object members =>
        cases isContainer
        exact paired
      | _ => cases isContainer
  · intro plain text occurs
    cases value with
    | string t =>
      cases occurs
      exact plain.1 text rfl
    | array items => exact plain.2 (.list items) rfl text occurs
    | object members => exact plain.2 (.dict members) rfl text occurs
    | _ => cases occurs

theorem Container.paired_iff (container : Container N) :
    container.value.Paired ↔ ∀ pair ∈ container.pairs, PairPaired pair := by
  cases container with
  | dict members =>
    simp only [Container.pairs, List.forall_mem_map]
    constructor
    · intro paired member inMembers
      constructor
      · rintro _ ⟨⟩
        exact paired _ (.key inMembers)
      · intro text occurs
        exact paired text (.value inMembers occurs)
    · intro paired text occurs
      cases occurs with
      | key inMembers => exact (paired _ inMembers).1 text rfl
      | value inMembers occurs => exact (paired _ inMembers).2 text occurs
  | list items =>
    simp only [Container.pairs, List.forall_mem_map]
    constructor
    · intro paired item inItems
      constructor
      · rintro _ ⟨⟩
      · intro text occurs
        exact paired text (.item inItems occurs)
    · intro paired text occurs
      cases occurs with
      | item inItems occurs => exact (paired _ inItems).2 text occurs

/-! ## The work list -/

/-- A pass either finds a surrogate, or leaves on the work list all that it has not looked
at. -/
theorem checkPairs_spec (pairs : List (Option Text × Value N)) (pending : List (Container N)) :
    (∃ later, checkPairs pairs pending = .ok later ∧
      ((∀ container ∈ later, container.value.Paired) ↔
        (∀ pair ∈ pairs, PairPaired pair) ∧ ∀ container ∈ pending, container.value.Paired)) ∨
    (checkPairs pairs pending = .error unpairedSurrogate ∧
      ¬ ∀ pair ∈ pairs, PairPaired pair) := by
  fun_induction checkPairs pairs pending with
  | case1 pending =>
    left
    exact ⟨pending, rfl, by simp⟩
  | case2 key value pairs pending bad =>
    right
    refine ⟨rfl, fun paired => ?_⟩
    have plain := (paired _ List.mem_cons_self).1
    rw [unencodable_iff.mpr plain] at bad
    cases bad
  | case3 key value pairs pending fine bad =>
    right
    refine ⟨rfl, fun paired => ?_⟩
    have plain := (Json.Value.paired_iff.mp (paired _ List.mem_cons_self).2).1
    rw [unencodable_iff.mpr plain] at bad
    cases bad
  | case4 key value pairs pending plainKey plainValue ih =>
    have keyPlain := unencodable_iff.mp (Bool.eq_false_iff.mpr plainKey)
    have valuePlain := unencodable_iff.mp (Bool.eq_false_iff.mpr plainValue)
    have pushed : PairPaired (key, value) ↔
        ∀ container ∈ (asContainer value).toList, container.value.Paired := by
      simp only [Option.mem_toList]
      constructor
      · intro paired
        exact (Json.Value.paired_iff.mp paired.2).2
      · intro paired
        exact ⟨keyPlain, Json.Value.paired_iff.mpr ⟨valuePlain, paired⟩⟩
    rcases ih with ⟨later, checked, spec⟩ | ⟨checked, bad⟩
    · left
      refine ⟨later, checked, spec.trans ?_⟩
      rw [List.forall_mem_append, List.forall_mem_cons, pushed]
      rw [and_left_comm, and_assoc]
    · right
      exact ⟨checked, fun paired => bad (List.forall_mem_cons.mp paired).2⟩

/-- The work list accepts exactly what a walk through all of it would accept. -/
theorem checkPending_iff (pending : List (Container N)) :
    (checkPending pending = .ok () ∧ ∀ container ∈ pending, container.value.Paired) ∨
    (checkPending pending = .error unpairedSurrogate ∧
      ¬ ∀ container ∈ pending, container.value.Paired) := by
  fun_induction checkPending pending with
  | case1 =>
    left
    exact ⟨rfl, fun _ member => (List.not_mem_nil member).elim⟩
  | case2 container pending e checked =>
    right
    rcases checkPairs_spec container.pairs pending with ⟨later, ok, -⟩ | ⟨failed, bad⟩
    · rw [checked] at ok
      cases ok
    · rw [checked] at failed
      cases failed
      refine ⟨rfl, fun paired => bad ?_⟩
      exact (Container.paired_iff container).mp (paired _ List.mem_cons_self)
  | case3 container pending later checked ih =>
    have same : (∀ other ∈ container :: pending, other.value.Paired) ↔
        ∀ other ∈ later, other.value.Paired := by
      rcases checkPairs_spec container.pairs pending with ⟨other, ok, spec⟩ | ⟨failed, bad⟩
      · rw [checked] at ok
        cases ok
        rw [spec, List.forall_mem_cons, Container.paired_iff]
      · rw [checked] at failed
        cases failed
    rwa [same]

/-! ## Rows -/

theorem checkRow_iff {Φ : Type} (row : Row Φ) :
    (checkRow row = .ok () ↔ Value.Paired (.object row)) ∧
      (checkRow row ≠ .ok () → checkRow row = .error unpairedSurrogate) := by
  rcases checkPending_iff [.dict row] with ⟨accepted, paired⟩ | ⟨refused, bad⟩
  · have all := paired _ List.mem_cons_self
    exact ⟨⟨fun _ => all, fun _ => accepted⟩, fun not => absurd accepted not⟩
  · constructor
    · constructor
      · intro accepted
        rw [checkRow, refused] at accepted
        cases accepted
      · intro paired
        refine (bad fun container member => ?_).elim
        cases List.mem_singleton.mp member
        exact paired
    · intro _
      exact refused

theorem forM_checkRow_iff {Φ : Type} (rows : List (Row Φ)) :
    rows.forM checkRow = .ok () ↔ ∀ row ∈ rows, checkRow row = .ok () := by
  induction rows with
  | nil => exact ⟨fun _ _ member => (List.not_mem_nil member).elim, fun _ => rfl⟩
  | cons row rows ih =>
    rw [List.forall_mem_cons, ← ih]
    change (checkRow row >>= fun _ => rows.forM checkRow) = .ok () ↔ _
    cases checkRow row with
    | error e =>
      constructor
      · intro impossible
        cases impossible
      · intro impossible
        cases impossible.1
    | ok _ => exact ⟨fun h => ⟨rfl, h⟩, And.right⟩

/-- Text made of ASCII characters and of what occurs in a row, as its JSON form is. -/
def Writes {Φ : Type} (row : Row Φ) (body : Text) : Prop :=
  ∀ point ∈ body, point.val < 0x80 ∨ ∃ text, Value.Occurs text (.object row) ∧ point ∈ text

theorem Writes.isSome_utf8Length {Φ : Type} {row : Row Φ} {body : Text} (writes : Writes row body)
    (paired : Value.Paired (.object row)) : body.utf8Length.isSome := by
  apply Text.Plain.isSome_utf8Length
  intro point member
  rcases writes point member with ascii | ⟨text, occurs, inText⟩
  · simp only [CodePoint.isSurrogate, Bool.and_eq_false_imp, decide_eq_true_eq]
    omega
  · exact paired text occurs point inText

theorem jsonRows_eq_ok_iff {Φ : Type} {toFloat : Text → Φ} {isFinite : Φ → Bool} {stack : Nat}
    {text : Text} {limit : Nat} {atLimit : Bool} {rows : List (Row Φ)} :
    jsonRows toFloat isFinite stack text limit atLimit = .ok rows ↔
      (if atLimit then jsonPrefix toFloat isFinite stack text limit
        else jsonDocument toFloat isFinite stack text limit) = .ok rows ∧
      ∀ row ∈ rows, checkRow row = .ok () := by
  have checked (parsed : Except Exc (List (Row Φ))) :
      (parsed >>= fun found => found.forM checkRow >>= fun _ => Except.ok found) =
        Except.ok rows ↔ parsed = .ok rows ∧ ∀ row ∈ rows, checkRow row = .ok () := by
    rw [← forM_checkRow_iff]
    cases parsed with
    | error e =>
      constructor
      · intro impossible
        cases impossible
      · intro impossible
        cases impossible.1
    | ok found =>
      change (found.forM checkRow >>= fun _ => Except.ok found) = _ ↔ _
      constructor
      · intro returned
        cases all : found.forM checkRow with
        | error e =>
          rw [all] at returned
          cases returned
        | ok _ =>
          rw [all] at returned
          cases returned
          exact ⟨rfl, all⟩
      · intro fine
        obtain ⟨⟨⟩, all⟩ := fine
        rw [all]
        rfl
  cases atLimit with
  | true => exact checked _
  | false => exact checked _

/-- `_check_row` accepts a row exactly when no key and no string at any depth holds a
surrogate, so a JSON preview returns only rows that have a UTF-8 form. -/
theorem checkRow_surrogates {Φ : Type} (toFloat : Text → Φ) (isFinite : Φ → Bool) (stack : Nat) :
    (∀ row : Row Φ,
      (checkRow row = .ok () ↔ ∀ text, Value.Occurs text (.object row) →
        ∀ point ∈ text, CodePoint.isSurrogate point = false) ∧
      (checkRow row ≠ .ok () → checkRow row = .error unpairedSurrogate)) ∧
    ∀ text limit atLimit rows, jsonRows toFloat isFinite stack text limit atLimit = .ok rows →
      ∀ row ∈ rows, ∀ body, Writes row body → body.utf8Length.isSome := by
  constructor
  · exact checkRow_iff
  · intro text limit atLimit rows returned row member body writes
    have accepted := (jsonRows_eq_ok_iff.mp returned).2 row member
    exact writes.isSome_utf8Length ((checkRow_iff row).1.mp accepted)

/-- What a preview of a file returns, and a row with a surrogate two levels down. -/
theorem checkRow_surrogates_nested :
    checkRow (Φ := Unit) [(lit "a", .array [.string (lit "b")])] = .ok () ∧
    checkRow (Φ := Unit) [(lit "a", .array [.string [0xD800]])] = .error unpairedSurrogate ∧
    ∃ rows : List (Row Unit),
      jsonRows (fun _ => ()) (fun _ => true) 2 (lit "[\x7b\x7d]") 5 false = .ok rows ∧
      rows.length = 1 ∧ ∀ row ∈ rows, ∀ body, Writes row body → body.utf8Length.isSome := by
  have spec := checkRow_surrogates (Φ := Unit) (fun _ => ()) (fun _ => true) 2
  refine ⟨?_, ?_, ?_⟩
  · have plain : unencodable (some (lit "a")) = false ∧ unencodable (some (lit "b")) = false := by
      decide +kernel
    have none : unencodable none = false := rfl
    simp [checkRow, checkPending_cons, checkPending, checkPairs, Container.pairs, asText,
      asContainer, plain, none, bind, Except.bind]
  · apply (spec.1 _).2
    intro accepted
    have plain := (spec.1 _).1.mp accepted [0xD800]
      (.value List.mem_cons_self (.item List.mem_cons_self .string))
    exact absurd (plain 0xD800 List.mem_cons_self) (by decide)
  · have parsed : (jsonDocument (Φ := Unit) (fun _ => ()) (fun _ => true) 2
        (lit "[\x7b\x7d]") 5).toOption.map (List.map List.length) = some [0] := by decide +kernel
    cases found : jsonDocument (Φ := Unit) (fun _ => ()) (fun _ => true) 2
        (lit "[\x7b\x7d]") 5 with
    | error e =>
      rw [found] at parsed
      cases parsed
    | ok rows =>
      rw [found] at parsed
      have lengths : rows.map List.length = [0] := Option.some.inj parsed
      obtain ⟨row, rfl, empty⟩ := List.map_eq_singleton_iff.mp lengths
      obtain rfl := List.eq_nil_of_length_eq_zero empty
      have accepted : checkRow (Φ := Unit) [] = .ok () := by
        simp [checkRow, checkPending_cons, checkPending, checkPairs, Container.pairs, bind,
          Except.bind]
      have returned : jsonRows (Φ := Unit) (fun _ => ()) (fun _ => true) 2 (lit "[\x7b\x7d]") 5
          false = .ok [[]] := by
        apply jsonRows_eq_ok_iff.mpr
        refine ⟨found, ?_⟩
        intro row member
        cases List.mem_singleton.mp member
        exact accepted
      exact ⟨_, returned, rfl, spec.2 _ _ _ _ returned⟩

end DataBridge
