import DataBridge.Errors
import DataBridge.Json.Scanner

/-!
# Previews of JSON files

`_json_document` decodes a file that fits the byte budget, `_json_prefix` the
entries of an array that the budget cuts. `_check_nesting` runs before every call of
the decoder. Python's floats are a type `Φ` with the conversion `toFloat` and the
test `isFinite`.
-/

namespace DataBridge

open Json

/-- `MAX_JSON_DEPTH`. -/
def maxJsonDepth : Nat := 32

def malformed (message : String) : Exc := .ofCode .malformedFile (lit message)

/-- A Python number. -/
inductive JsonNumber (Φ : Type)
  | int (n : Int)
  | float (x : Φ)

/-! ## The hooks of the decoder -/

section Hooks

variable {Φ : Type} (toFloat : Text → Φ) (isFinite : Φ → Bool)

/-- The number of digits that `int` converts at most. -/
def intMaxDigits : Nat := 4300

/-- `int(text)` for the digits of a decimal number. -/
def natOfDigits (digits : Text) : Nat := digits.foldl (fun n c => n * 10 + (c.val - 0x30)) 0

/-- `_bounded_int`. -/
def boundedInt (text : Text) : Except Exc (JsonNumber Φ) :=
  if intMaxDigits < (text.filter isDigit).length then
    .error (malformed "JSON contains an integer with too many digits")
  else
    match text with
    | c :: digits =>
      if c = .ofChar '-' then .ok (.int (-natOfDigits digits))
      else .ok (.int (natOfDigits (c :: digits)))
    | [] => .ok (.int 0)

/-- `_finite_float`. -/
def finiteFloat (text : Text) : Except Exc (JsonNumber Φ) :=
  if isFinite (toFloat text) then .ok (.float (toFloat text))
  else .error (malformed "JSON contains a number out of range")

/-- `_reject_constant`. -/
def rejectConstant (_name : Text) : Except Exc (JsonNumber Φ) :=
  .error (malformed "JSON contains a nonstandard numeric value")

/-- `_DECODER`. -/
def decoder : Hooks Exc (JsonNumber Φ) where
  parseInt := boundedInt
  parseFloat := finiteFloat toFloat isFinite
  parseConstant := rejectConstant

end Hooks

/-! ## The nesting guard -/

def tooDeep : Exc :=
  .ofCode .previewLimitExceeded
    (lit "JSON nesting is deeper than the preview limit of " ++ decimal maxJsonDepth ++ lit " levels")

/-- The brackets among the matches of `_JSON_TOKEN`. A string is one match, up to
its closing quote; the pattern takes a backslash with the character after it, but not
with a line feed, and the match ends there. -/
def brackets (inString : Bool) : Text → List CodePoint
  | [] => []
  | c :: rest =>
    if inString then
      if c = .ofChar '"' then brackets false rest
      else if c = .ofChar '\\' then
        match rest with
        | [] => []
        | e :: rest => if e = .ofChar '\n' then brackets false rest else brackets true rest
      else brackets true rest
    else if c = .ofChar '"' then brackets true rest
    else if c = .ofChar '[' ∨ c = .ofChar '{' ∨ c = .ofChar ']' ∨ c = .ofChar '}' then
      c :: brackets false rest
    else brackets false rest

/-- The loop of `_check_nesting`. -/
def nest (limit : Nat) : (depth : Nat) → List CodePoint → Except Exc Unit
  | _, [] => .ok ()
  | depth, bracket :: tokens =>
    if bracket = .ofChar '[' ∨ bracket = .ofChar '{' then
      if limit < depth + 1 then .error tooDeep else nest limit (depth + 1) tokens
    else if depth - 1 = 0 then .ok ()
    else nest limit (depth - 1) tokens

/-- `_check_nesting`, from the text at `start` on. -/
def checkNesting (text : Text) (limit : Nat) : Except Exc Unit :=
  match text with
  | [] => .ok ()
  | c :: rest =>
    if c = .ofChar '[' ∨ c = .ofChar '{' then nest limit 0 (brackets false (c :: rest))
    else .ok ()

/-! ## Rows -/

/-- An object of the array, as the pairs of a `dict`. -/
abbrev Row (Φ : Type) : Type := List (Text × Value (JsonNumber Φ))

def Text.encodable (text : Text) : Bool := text.utf8Length.isSome

/-- A container on the work list of `_check_row`. -/
inductive Container (N : Type)
  | dict (members : List (Text × Value N))
  | list (items : List (Value N))

/-- `isinstance(value, dict | list)`. -/
def asContainer {N : Type} : Value N → Option (Container N)
  | .object members => some (.dict members)
  | .array items => some (.list items)
  | _ => none

/-- `container.items()` or `enumerate(container)`; the position in a list is no text. -/
def Container.pairs {N : Type} : Container N → List (Option Text × Value N)
  | .dict members => members.map fun (key, value) => (some key, value)
  | .list items => items.map fun item => (none, item)

/-- `isinstance(value, str)`. -/
def asText {N : Type} : Value N → Option Text
  | .string text => some text
  | _ => none

/-- One of the two tests on a pair, on a key or a value that is a text or is not. -/
def unencodable (text : Option Text) : Bool := text.any fun text => !text.encodable

def unpairedSurrogate : Exc := malformed "JSON contains an unpaired surrogate escape"

/-- The pass over the pairs of one container. The end of the Python list `pending` is the
front of the list here. -/
def checkPairs {N : Type} :
    List (Option Text × Value N) → (pending : List (Container N)) →
    Except Exc (List (Container N))
  | [], pending => .ok pending
  | (key, value) :: pairs, pending =>
    if unencodable key then .error unpairedSurrogate
    else if unencodable (asText value) then .error unpairedSurrogate
    else checkPairs pairs ((asContainer value).toList ++ pending)

/-- The containers that a pass puts on the work list. -/
def Container.inner {N : Type} (pairs : List (Option Text × Value N)) : List (Container N) :=
  (pairs.filterMap fun pair => asContainer pair.2).reverse

theorem pending_of_checkPairs {N : Type} {pairs : List (Option Text × Value N)}
    {pending later : List (Container N)} (checked : checkPairs pairs pending = .ok later) :
    later = Container.inner pairs ++ pending := by
  fun_induction checkPairs pairs pending with
  | case1 pending =>
    cases checked
    rfl
  | case2 => cases checked
  | case3 => cases checked
  | case4 key value pairs pending plainKey plainValue ih =>
    rw [ih checked]
    cases inner : asContainer value <;> simp [Container.inner, inner]

theorem size_inner {N : Type} (container : Container N) :
    ((Container.inner container.pairs).map sizeOf).sum < sizeOf container := by
  have dict (members : List (Text × Value N)) :
      ((Container.inner (Container.dict members).pairs).map sizeOf).sum ≤ sizeOf members := by
    induction members with
    | nil => exact Nat.zero_le _
    | cons member members ih =>
      obtain ⟨key, value⟩ := member
      cases value <;> simp_all [Container.inner, Container.pairs, asContainer] <;> omega
  have list (items : List (Value N)) :
      ((Container.inner (Container.list items).pairs).map sizeOf).sum ≤ sizeOf items := by
    induction items with
    | nil => exact Nat.zero_le _
    | cons item items ih =>
      cases item <;> simp_all [Container.inner, Container.pairs, asContainer] <;> omega
  cases container with
  | dict members =>
    have bound := dict members
    rw [Container.dict.sizeOf_spec]
    omega
  | list items =>
    have bound := list items
    rw [Container.list.sizeOf_spec]
    omega

/-- The loop of `_check_row`: it ends, since a pass replaces a container by containers
inside it. -/
def checkPending {N : Type} : (pending : List (Container N)) → Except Exc Unit
  | [] => .ok ()
  | container :: pending =>
    match _checked : checkPairs container.pairs pending with
    | .error e => .error e
    | .ok later => checkPending later
termination_by pending => (pending.map sizeOf).sum
decreasing_by
  rw [pending_of_checkPairs _checked]
  have bound := size_inner container
  simp only [List.map_append, List.sum_append, List.map_cons, List.sum_cons]
  omega

theorem checkPending_cons {N : Type} (container : Container N) (pending : List (Container N)) :
    checkPending (container :: pending) =
      checkPairs container.pairs pending >>= checkPending := by
  rw [checkPending]
  split
  · rename_i failed
    rw [failed]
    rfl
  · rename_i checked
    rw [checked]
    rfl

/-- `_check_row`. -/
def checkRow {Φ : Type} (row : Row Φ) : Except Exc Unit := checkPending [.dict row]

/-- `isinstance(value, dict)`. -/
def asRow {Φ : Type} : Value (JsonNumber Φ) → Option (Row Φ)
  | .object members => some members
  | _ => none

/-! ## Complete files -/

section Previews

variable {Φ : Type} (toFloat : Text → Φ) (isFinite : Φ → Bool) (stack : Nat)

def expectsArray : Exc := malformed "JSON preview expects an array of objects"

/-- What a failure of the decoder is raised as; `decode` is for a `JSONDecodeError`. -/
def decoderFailure (decode : DecodeError → Exc) : Failure Exc → Exc
  | .decode e => decode e
  | .recursion => .runtimeError
  | .refused e => e

/-- `_json_document`. -/
def jsonDocument (text : Text) (limit : Nat) : Except Exc (List (Row Φ)) := do
  checkNesting (skipSpace text) (maxJsonDepth + 1)
  match decode (decoder toFloat isFinite) stack text with
  | .error failure =>
    .error (decoderFailure (fun _ => malformed "The JSON file is malformed") failure)
  | .ok (.array items) =>
    match items.mapM asRow with
    | some rows => .ok (rows.take limit)
    | none => .error expectsArray
  | .ok _ => .error expectsArray

/-! ## Files cut by the budget -/

def incomplete : Exc :=
  .ofCode .previewLimitExceeded (lit "The JSON preview cannot be parsed within the byte limit")

/-- `_cut_by_budget`. -/
def cutByBudget (error : DecodeError) : Bool :=
  match error.message with
  | .unterminated => true
  | .unicodeEscape =>
    match error.suffix with
    | [] => false
    | u :: hex => u = .ofChar 'u' && hex.length ≤ 3 && hex.all fun c => (Json.hexDigit c).isSome
  | .value =>
    error.suffix = [] || error.suffix = lit "-" ||
      [lit "true", lit "false", lit "null"].any fun literal => error.suffix.isPrefixOf literal
  | .comma =>
    error.suffix ∈ [[], lit ".", lit "e", lit "E", lit "e+", lit "e-", lit "E+", lit "E-"]
  | .name | .colon => error.suffix = []
  | _ => false

/-- `_end_of_array`, from the text after the bracket. -/
def endOfArray (rest : Text) (rows : List (Row Φ)) : Except Exc (List (Row Φ)) :=
  if skipSpace rest = [] then .ok rows else .error (malformed "JSON has trailing content")

/-- The loop of `_json_prefix`. A pass takes at least one character, so `fuel` is
enough when it is more than the length of the text. -/
def prefixLoop (limit : Nat) :
    (fuel : Nat) → (position : Text) → List (Row Φ) → (afterComma : Bool) →
    Except Exc (List (Row Φ))
  | 0, _, _, _ => .error .runtimeError
  | fuel + 1, position, rows, afterComma =>
    match skipSpace position with
    | [] => .error incomplete
    | c :: rest =>
      if c = .ofChar ']' then
        if afterComma then .error (malformed "JSON array has a trailing comma")
        else endOfArray rest rows
      else
        match checkNesting (c :: rest) maxJsonDepth with
        | .error e => .error e
        | .ok () =>
          match rawDecode (decoder toFloat isFinite) stack (c :: rest) with
          | .error failure =>
            .error (decoderFailure (fun e => if cutByBudget e then incomplete
              else malformed "The JSON file is malformed") failure)
          | .ok (item, position) =>
            match asRow item with
            | none => .error (malformed "JSON array entries must be objects")
            | some row =>
              match skipSpace position with
              | [] => if (rows ++ [row]).length = limit then .ok (rows ++ [row]) else .error incomplete
              | delimiter :: rest =>
                if delimiter ≠ .ofChar ',' ∧ delimiter ≠ .ofChar ']' then
                  .error (malformed "A JSON array entry has no valid delimiter")
                else if (rows ++ [row]).length = limit then .ok (rows ++ [row])
                else if delimiter = .ofChar ']' then endOfArray rest (rows ++ [row])
                else prefixLoop limit fuel rest (rows ++ [row]) true

/-- `_json_prefix`. -/
def jsonPrefix (text : Text) (limit : Nat) : Except Exc (List (Row Φ)) :=
  match skipSpace text with
  | [] => .error expectsArray
  | c :: rest =>
    if c = .ofChar '[' then prefixLoop toFloat isFinite stack limit (rest.length + 1) rest [] false
    else .error expectsArray

/-- `_json_rows`. -/
def jsonRows (text : Text) (limit : Nat) (atLimit : Bool) : Except Exc (List (Row Φ)) := do
  let rows ← if atLimit then jsonPrefix toFloat isFinite stack text limit
    else jsonDocument toFloat isFinite stack text limit
  rows.forM checkRow
  .ok rows

end Previews

end DataBridge
