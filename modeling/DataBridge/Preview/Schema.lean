import Mathlib.Order.Bounds.Basic
import Mathlib.Order.Lattice
import DataBridge.Calendar
import DataBridge.Dict
import DataBridge.Preview.Json

/-!
# The inferred schema

`_type_of` gives a value a type or none, `_schema` merges the types of each field over
the rows. The types are ordered: an integer is a float, and everything is a string.
Merging two types is their join (`merged_eq_sup`), so what `_schema` reports for a field is
the least upper bound of the types of its values, in whatever order the rows stand
(`schema_types`).
-/

namespace DataBridge

open Json

/-! ## The types -/

/-- `InferredType`. -/
inductive InferredType
  | string
  | integer
  | float
  | boolean
  | date
  deriving DecidableEq

namespace InferredType

/-- The types whose values include those of a type. -/
def Within (a b : InferredType) : Prop := a = b ∨ b = .string ∨ (a = .integer ∧ b = .float)

instance (a b : InferredType) : Decidable (Within a b) :=
  inferInstanceAs (Decidable (a = b ∨ b = .string ∨ (a = .integer ∧ b = .float)))

/-- What `_schema` makes of two types that differ. -/
def widen (previous kind : InferredType) : InferredType :=
  if (previous = .integer ∧ kind = .float) ∨ (previous = .float ∧ kind = .integer) then .float
  else .string

/-- Two types that differ are widened. -/
def merged (previous kind : InferredType) : InferredType :=
  if previous ≠ kind then widen previous kind else previous

instance : SemilatticeSup InferredType where
  le := Within
  le_refl a := .inl rfl
  le_trans a b c := by cases a <;> cases b <;> cases c <;> decide
  le_antisymm a b := by cases a <;> cases b <;> decide
  sup := merged
  le_sup_left a b := by cases a <;> cases b <;> decide
  le_sup_right a b := by cases a <;> cases b <;> decide
  sup_le a b c := by cases a <;> cases b <;> cases c <;> decide

/-- What `observed` holds for a field after a value of type `kind`. -/
def afterValue : Option InferredType → InferredType → InferredType
  | none, kind => kind
  | some previous, kind => merged previous kind

theorem merged_eq_sup (previous kind : InferredType) : merged previous kind = previous ⊔ kind := rfl

end InferredType

/-! ## The type of a value -/

/-- `str.isspace`, for one character. -/
def isWhitespace (c : CodePoint) : Bool :=
  (0x9 ≤ c.val && c.val ≤ 0xD) || (0x1C ≤ c.val && c.val ≤ 0x20) || c.val = 0x85 || c.val = 0xA0 ||
    c.val = 0x1680 || (0x2000 ≤ c.val && c.val ≤ 0x200A) || c.val = 0x2028 || c.val = 0x2029 ||
    c.val = 0x202F || c.val = 0x205F || c.val = 0x3000

/-- `str.strip()`. -/
def Text.strip (text : Text) : Text :=
  ((text.dropWhile isWhitespace).reverse.dropWhile isWhitespace).reverse

/-- What is left of `[+-]?`. -/
def unsigned : Text → Text
  | [] => []
  | c :: rest => if c = .ofChar '+' ∨ c = .ofChar '-' then rest else c :: rest

/-- `_INTEGER`. -/
def integerPattern (text : Text) : Bool :=
  unsigned text ≠ [] && (unsigned text).all isDigit

/-- `(?:[eE][+-]?[0-9]+)?`. -/
def exponentPattern : Text → Bool
  | [] => true
  | e :: rest => (e = .ofChar 'e' || e = .ofChar 'E') && integerPattern rest

/-- `_FLOAT`. -/
def floatPattern (text : Text) : Bool :=
  let whole := (unsigned text).takeWhile isDigit
  match (unsigned text).dropWhile isDigit with
  | [] => whole ≠ []
  | c :: rest =>
    if c = .ofChar '.' then
      (whole ≠ [] || rest.takeWhile isDigit ≠ []) && exponentPattern (rest.dropWhile isDigit)
    else whole ≠ [] && exponentPattern (c :: rest)

/-- The groups of digits of `_DATE`. -/
def datePattern : Text → Option (Text × Text × Text)
  | [y₁, y₂, y₃, y₄, h₁, m₁, m₂, h₂, d₁, d₂] =>
    if [y₁, y₂, y₃, y₄, m₁, m₂, d₁, d₂].all isDigit ∧ h₁ = .ofChar '-' ∧ h₂ = .ofChar '-' then
      some ([y₁, y₂, y₃, y₄], [m₁, m₂], [d₁, d₂])
    else none
  | _ => none

/-- `date.fromisoformat` accepts the groups of `_DATE`. -/
def fromIsoFormat (year month day : Nat) : Bool :=
  1 ≤ year && 1 ≤ month && month ≤ 12 && 1 ≤ day && day ≤ Calendar.daysInMonth year month

section Types

variable {Φ : Type} (toFloat : Text → Φ) (isFinite : Φ → Bool)

/-- `_type_of`. -/
def typeOf (csvValue : Bool) : Value (JsonNumber Φ) → Option InferredType
  | .null => none
  | .bool _ => some .boolean
  | .number (.int _) => some .integer
  | .number (.float _) => some .float
  | .array _ | .object _ => some .string
  | .string text =>
    if text = [] then none
    else
      let clean := text.strip
      if clean = [] then none
      else if csvValue ∧ clean.lower ∈ [lit "true", lit "false"] then some .boolean
      else if csvValue ∧ integerPattern clean then some .integer
      else if csvValue ∧ floatPattern clean ∧ isFinite (toFloat clean) then some .float
      else
        match datePattern clean with
        | none => some .string
        | some (year, month, day) =>
          if fromIsoFormat (natOfDigits year) (natOfDigits month) (natOfDigits day) then some .date
          else some .string

/-! ## The loop -/

/-- The two dictionaries of `_schema`. -/
structure Schema where
  result : Dict Text InferredType
  observed : Dict Text InferredType := []

/-- One value of a row. -/
def Schema.observe (csvValues : Bool) (s : Schema) (item : Text × Value (JsonNumber Φ)) :
    Schema :=
  match typeOf toFloat isFinite csvValues item.2 with
  | none => { s with result := .setDefault item.1 .string s.result }
  | some kind =>
    let observed := match s.observed.get? item.1 with
      | none => s.observed.set item.1 kind
      | some previous =>
        if previous ≠ kind then s.observed.set item.1 (.widen previous kind) else s.observed
    -- The field is in `observed` by now, so the default is never used.
    { result := s.result.set item.1 ((observed.get? item.1).getD kind), observed }

/-- `_schema`. -/
def previewSchema (rows : List (Row Φ)) (header : Option (List Text)) (csvValues : Bool) :
    Dict Text InferredType :=
  let start : Schema := { result := .fromKeys .string (header.getD []) }
  (rows.foldl (fun s (row : Row Φ) => List.foldl (Schema.observe toFloat isFinite csvValues) s row)
    start).result

/-! ## What the loop has seen -/

variable {toFloat isFinite} {csvValues : Bool} {header : List Text}

/-- The types of the values of a field; a value without a type has none. -/
def kinds (toFloat : Text → Φ) (isFinite : Φ → Bool) (csvValues : Bool)
    (items : List (Text × Value (JsonNumber Φ))) (field : Text) : Set InferredType :=
  {kind | ∃ value, (field, value) ∈ items ∧ typeOf toFloat isFinite csvValues value = some kind}

theorem kinds_concat (items : List (Text × Value (JsonNumber Φ))) (field other : Text)
    (value : Value (JsonNumber Φ)) :
    kinds toFloat isFinite csvValues (items ++ [(field, value)]) other =
      kinds toFloat isFinite csvValues items other ∪
        {kind | field = other ∧ typeOf toFloat isFinite csvValues value = some kind} := by
  ext kind
  constructor
  · intro found
    obtain ⟨v, member, typed⟩ := found
    rcases List.mem_append.mp member with before | single
    · exact .inl ⟨v, before, typed⟩
    · cases List.mem_singleton.mp single
      exact .inr ⟨rfl, typed⟩
  · intro found
    rcases found with ⟨v, before, typed⟩ | ⟨rfl, typed⟩
    · exact ⟨v, List.mem_append_left _ before, typed⟩
    · exact ⟨value, List.mem_append_right _ List.mem_cons_self, typed⟩

/-- The least upper bound of some types, if there are any. -/
def Bound (kinds : Set InferredType) : Option InferredType → Prop
  | none => kinds = ∅
  | some kind => kinds.Nonempty ∧ IsLUB kinds kind

theorem Bound.insert {kinds : Set InferredType} {bound : Option InferredType}
    (h : Bound kinds bound) (kind : InferredType) :
    Bound (kinds ∪ {kind}) (some (.afterValue bound kind)) := by
  cases bound with
  | none =>
    obtain rfl : kinds = ∅ := h
    rw [Set.empty_union]
    exact ⟨Set.singleton_nonempty kind, isLUB_singleton⟩
  | some previous =>
    exact ⟨h.1.inl, h.2.union isLUB_singleton⟩

/-- What the dictionaries hold after the items `seen`. -/
structure Seen (toFloat : Text → Φ) (isFinite : Φ → Bool) (csvValues : Bool) (header : List Text)
    (seen : List (Text × Value (JsonNumber Φ))) (s : Schema) : Prop where
  observed : ∀ field, Bound (kinds toFloat isFinite csvValues seen field) (s.observed.get? field)
  result : ∀ field, s.result.get? field = (s.observed.get? field).or
    (if field ∈ header ∨ field ∈ seen.map Prod.fst then some .string else none)

theorem Seen.start :
    Seen toFloat isFinite csvValues header [] { result := .fromKeys .string header } where
  observed field := by
    change kinds toFloat isFinite csvValues [] field = ∅
    ext kind
    simp [kinds]
  result field := by simp [Dict.get?_fromKeys]

/-- `observe` merges the type of a value into the bound of its field. -/
theorem Schema.observe_spec (s : Schema) (item : Text × Value (JsonNumber Φ)) :
    (typeOf toFloat isFinite csvValues item.2 = none ∧
      s.observe toFloat isFinite csvValues item =
        { s with result := .setDefault item.1 .string s.result }) ∨
    ∃ kind merged, typeOf toFloat isFinite csvValues item.2 = some kind ∧
      merged = .afterValue (s.observed.get? item.1) kind ∧
      (s.observe toFloat isFinite csvValues item).result = s.result.set item.1 merged ∧
      ∀ field, (s.observe toFloat isFinite csvValues item).observed.get? field =
        if item.1 = field then some merged else s.observed.get? field := by
  unfold Schema.observe
  cases typed : typeOf toFloat isFinite csvValues item.2 with
  | none => exact .inl ⟨rfl, rfl⟩
  | some kind =>
    right
    cases before : s.observed.get? item.1 with
    | none =>
      refine ⟨kind, kind, rfl, rfl, ?_, ?_⟩
      · simp [Dict.get?_set]
      · intro field
        exact Dict.get?_set ..
    | some previous =>
      by_cases same : previous = kind
      · subst same
        refine ⟨previous, previous, rfl, ?_, ?_, ?_⟩
        · simp [InferredType.afterValue, InferredType.merged]
        · simp [before]
        · intro field
          by_cases hit : item.1 = field
          · subst hit
            simp [before]
          · simp [hit]
      · refine ⟨kind, .widen previous kind, rfl, ?_, ?_, ?_⟩
        · simp [InferredType.afterValue, InferredType.merged, same]
        · simp [same, Dict.get?_set]
        · intro field
          simp [same, Dict.get?_set]

theorem Seen.observe {seen : List (Text × Value (JsonNumber Φ))} {s : Schema}
    (h : Seen toFloat isFinite csvValues header seen s) (item : Text × Value (JsonNumber Φ)) :
    Seen toFloat isFinite csvValues header (seen ++ [item])
      (s.observe toFloat isFinite csvValues item) := by
  have fields : ∀ field, field ∈ (seen ++ [item]).map Prod.fst ↔
      field ∈ seen.map Prod.fst ∨ item.1 = field := by
    intro field
    simp [eq_comm]
  have inner : ∀ field, kinds toFloat isFinite csvValues (seen ++ [item]) field =
      kinds toFloat isFinite csvValues seen field ∪
        {kind | item.1 = field ∧ typeOf toFloat isFinite csvValues item.2 = some kind} :=
    fun field => kinds_concat seen item.1 field item.2
  rcases s.observe_spec item with ⟨untyped, same⟩ | ⟨kind, merged, typed, value, result, observed⟩
  · rw [same]
    constructor
    · intro field
      rw [inner, untyped]
      simpa using h.observed field
    · intro field
      rw [Dict.get?_setDefault]
      by_cases hit : item.1 = field
      · subst hit
        have reported := h.result item.1
        rw [if_pos rfl, if_pos (.inr ((fields _).mpr (.inr rfl))), reported]
        cases s.observed.get? item.1 with
        | some kind => rfl
        | none => split <;> rfl
      · rw [if_neg hit, h.result field]
        simp only [fields, hit, or_false]
  · constructor
    · intro field
      rw [observed, inner]
      by_cases hit : item.1 = field
      · subst hit
        have single : {k | item.1 = item.1 ∧ typeOf toFloat isFinite csvValues item.2 = some k} =
            {kind} := by
          ext k
          simp [typed, eq_comm]
        rw [if_pos rfl, single, value]
        exact (h.observed item.1).insert kind
      · have none : {k | item.1 = field ∧ typeOf toFloat isFinite csvValues item.2 = some k} = ∅ := by
          ext k
          simp [hit]
        rw [if_neg hit, none, Set.union_empty]
        exact h.observed field
    · intro field
      rw [result, observed, Dict.get?_set]
      by_cases hit : item.1 = field
      · rw [if_pos hit, if_pos hit]
        rfl
      · rw [if_neg hit, if_neg hit, h.result field]
        simp only [fields, hit, or_false]

theorem Seen.row {seen : List (Text × Value (JsonNumber Φ))} {s : Schema}
    (h : Seen toFloat isFinite csvValues header seen s) (row : Row Φ) :
    Seen toFloat isFinite csvValues header (seen ++ row)
      (List.foldl (Schema.observe toFloat isFinite csvValues) s row) := by
  induction row generalizing seen s with
  | nil =>
    rw [List.append_nil]
    exact h
  | cons item row ih =>
    rw [List.append_cons]
    exact ih (h.observe item)

theorem Seen.rows {seen : List (Text × Value (JsonNumber Φ))} {s : Schema}
    (h : Seen toFloat isFinite csvValues header seen s) (rows : List (Row Φ)) :
    Seen toFloat isFinite csvValues header (seen ++ rows.flatten)
      (rows.foldl (fun s (row : Row Φ) =>
        List.foldl (Schema.observe toFloat isFinite csvValues) s row) s) := by
  induction rows generalizing seen s with
  | nil =>
    rw [List.flatten_nil, List.append_nil]
    exact h
  | cons row rows ih =>
    rw [List.flatten_cons, ← List.append_assoc]
    exact ih (h.row row)

/-- What `_schema` reports for one field. -/
theorem schema_get? (rows : List (Row Φ)) (header : Option (List Text)) (field : Text) :
    ∃ bound, Bound (kinds toFloat isFinite csvValues rows.flatten field) bound ∧
      (previewSchema toFloat isFinite rows header csvValues).get? field = bound.or
        (if field ∈ header.getD [] ∨ field ∈ rows.flatten.map Prod.fst then some .string
          else none) := by
  have seen := (@Seen.start _ toFloat isFinite csvValues (header.getD [])).rows rows
  exact ⟨_, seen.observed field, seen.result field⟩

/-- The least upper bound is determined. -/
theorem Bound.unique {kinds : Set InferredType} {bound other : Option InferredType}
    (h : Bound kinds bound) (h' : Bound kinds other) : bound = other := by
  cases bound with
  | none =>
    cases other with
    | none => rfl
    | some kind =>
      obtain rfl : kinds = ∅ := h
      cases Set.not_nonempty_empty h'.1
  | some kind =>
    cases other with
    | none =>
      obtain rfl : kinds = ∅ := h'
      cases Set.not_nonempty_empty h.1
    | some kind' => rw [h.2.unique h'.2]

theorem mem_fields_iff (rows : List (Row Φ)) (field : Text) :
    field ∈ rows.flatten.map Prod.fst ↔ ∃ row ∈ rows, ∃ value, (field, value) ∈ row := by
  constructor
  · intro member
    obtain ⟨⟨field, value⟩, inItems, rfl⟩ := List.mem_map.mp member
    obtain ⟨row, inRows, inRow⟩ := List.mem_flatten.mp inItems
    exact ⟨row, inRows, value, inRow⟩
  · intro occurs
    obtain ⟨row, inRows, value, inRow⟩ := occurs
    exact List.mem_map_of_mem (List.mem_flatten.mpr ⟨row, inRows, inRow⟩)

theorem kinds_flatten (rows : List (Row Φ)) (field : Text) :
    kinds toFloat isFinite csvValues rows.flatten field =
      {kind | ∃ row ∈ rows, ∃ value, (field, value) ∈ row ∧
        typeOf toFloat isFinite csvValues value = some kind} := by
  ext kind
  constructor
  · intro found
    obtain ⟨value, inItems, typed⟩ := found
    obtain ⟨row, inRows, inRow⟩ := List.mem_flatten.mp inItems
    exact ⟨row, inRows, value, inRow, typed⟩
  · intro found
    obtain ⟨row, inRows, value, inRow, typed⟩ := found
    exact ⟨value, List.mem_flatten.mpr ⟨row, inRows, inRow⟩, typed⟩

/-- `_schema` reports the fields of the header and of the rows, each with the least upper
bound of the types of its values, or as a string where no value has a type; the order of
the rows does not matter. -/
theorem schema_types (toFloat : Text → Φ) (isFinite : Φ → Bool) (rows : List (Row Φ))
    (header : Option (List Text)) (csvValues : Bool) :
    (∀ field, field ∈ (previewSchema toFloat isFinite rows header csvValues).keys ↔
      field ∈ header.getD [] ∨ ∃ row ∈ rows, ∃ value, (field, value) ∈ row) ∧
    (∀ field kind, (previewSchema toFloat isFinite rows header csvValues).get? field = some kind →
      let found := {k | ∃ row ∈ rows, ∃ value, (field, value) ∈ row ∧
        typeOf toFloat isFinite csvValues value = some k}
      (found = ∅ ∧ kind = .string) ∨ (found.Nonempty ∧ IsLUB found kind)) ∧
    ∀ rows', rows.Perm rows' → ∀ field,
      (previewSchema toFloat isFinite rows header csvValues).get? field =
        (previewSchema toFloat isFinite rows' header csvValues).get? field := by
  refine ⟨?_, ?_, ?_⟩
  · intro field
    obtain ⟨bound, least, reported⟩ := @schema_get? _ toFloat isFinite csvValues rows header field
    rw [Dict.mem_keys_iff, reported, ← mem_fields_iff]
    cases bound with
    | none => simp
    | some kind =>
      obtain ⟨k, value, inItems, -⟩ := least.1
      simp only [Option.some_or, Option.isSome_some, true_iff]
      exact .inr (List.mem_map_of_mem inItems)
  · intro field kind same
    obtain ⟨bound, least, reported⟩ := @schema_get? _ toFloat isFinite csvValues rows header field
    rw [kinds_flatten] at least
    rw [reported] at same
    cases bound with
    | none =>
      rw [Option.none_or] at same
      split at same
      · cases same
        exact .inl ⟨least, rfl⟩
      · cases same
    | some _ =>
      cases same
      exact .inr least
  · intro rows' perm field
    obtain ⟨bound, least, reported⟩ := @schema_get? _ toFloat isFinite csvValues rows header field
    obtain ⟨other, least', reported'⟩ := @schema_get? _ toFloat isFinite csvValues rows' header field
    have sameKinds : kinds toFloat isFinite csvValues rows.flatten field =
        kinds toFloat isFinite csvValues rows'.flatten field := by
      rw [kinds_flatten, kinds_flatten]
      simp only [perm.mem_iff]
    have sameFields : field ∈ rows.flatten.map Prod.fst ↔ field ∈ rows'.flatten.map Prod.fst := by
      rw [mem_fields_iff, mem_fields_iff]
      simp only [perm.mem_iff]
    rw [sameKinds] at least
    rw [reported, reported', least.unique least']
    simp only [sameFields]

/-- A column of integers and fractions is one of floats in either order of the rows, and a
column without values one of strings. -/
theorem schema_types_mixed :
    let rows : List (Row Unit) :=
      [[(lit "n", .string (lit "1")), (lit "b", .string [])],
        [(lit "n", .string (lit " 2.5")), (lit "b", .string [])]]
    let types := fun rows => previewSchema (fun _ => ()) (fun _ => true) rows (some [lit "n", lit "b"]) true
    (types rows).get? (lit "n") = some .float ∧ (types rows).get? (lit "b") = some .string ∧
      (types rows.reverse).get? (lit "n") = some .float := by
  intro rows types
  have float : (types rows).get? (lit "n") = some .float := by decide +kernel
  have string : (types rows).get? (lit "b") = some .string := by decide +kernel
  have reversed := (schema_types (fun _ => ()) (fun _ => true) rows (some [lit "n", lit "b"]) true).2.2
    rows.reverse (List.reverse_perm rows).symm (lit "n")
  exact ⟨float, string, reversed.symm.trans float⟩

end Types

end DataBridge
