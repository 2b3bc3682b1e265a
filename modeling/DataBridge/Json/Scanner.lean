import DataBridge.Text

/-!
# The JSON decoder

CPython's `json` module with its C scanner: `scanOnce` and the functions it is
made of, in strict mode. A position in a text is the text that is left from
there, so an error carries the rest of the text at its position.

The scanner is recursive: `stack` is how many containers it may hold open at
once, and one more is a `RecursionError`. What a number becomes, and whether it is
refused, is decided by `Hooks` (`parse_int`, `parse_float`, `parse_constant`).
-/

namespace DataBridge.Json

/-- A decoded value; `N` are the numbers. -/
inductive Value (N : Type) : Type
  | null
  | bool (b : Bool)
  | number (n : N)
  | string (text : Text)
  | array (items : List (Value N))
  | object (members : List (Text × Value N))

/-- The messages of a `JSONDecodeError`. -/
inductive Message
  /-- "Unterminated string starting at". -/
  | unterminated
  /-- "Invalid control character at". -/
  | controlCharacter
  /-- "Invalid \escape". -/
  | escape
  /-- "Invalid \uXXXX escape". -/
  | unicodeEscape
  /-- "Expecting value". -/
  | value
  /-- "Expecting property name enclosed in double quotes". -/
  | name
  /-- "Expecting ':' delimiter". -/
  | colon
  /-- "Expecting ',' delimiter". -/
  | comma
  /-- "Extra data". -/
  | extra
  deriving DecidableEq

/-- `JSONDecodeError`, with the text from its position on. -/
structure DecodeError where
  message : Message
  suffix : Text
  deriving DecidableEq

/-- What stops a decoder; `refused` is an exception of a hook. -/
inductive Failure (ε : Type)
  | decode (e : DecodeError)
  | recursion
  | refused (e : ε)
  deriving DecidableEq

structure Hooks (ε N : Type) where
  parseInt : Text → Except ε N
  parseFloat : Text → Except ε N
  parseConstant : Text → Except ε N

/-! ## Characters -/

/-- `IS_WHITESPACE`, and the pattern `WHITESPACE`. -/
def isSpace (c : CodePoint) : Bool :=
  c = .ofChar ' ' || c = .ofChar '\t' || c = .ofChar '\n' || c = .ofChar '\r'

def skipSpace (text : Text) : Text := text.dropWhile isSpace

def isDigit (c : CodePoint) : Bool := .ofChar '0' ≤ c && c ≤ .ofChar '9'

/-- The value of a hexadecimal digit. -/
def hexDigit (c : CodePoint) : Option Nat :=
  if isDigit c then some (c.val - 0x30)
  else if .ofChar 'a' ≤ c ∧ c ≤ .ofChar 'f' then some (c.val - 0x61 + 10)
  else if .ofChar 'A' ≤ c ∧ c ≤ .ofChar 'F' then some (c.val - 0x41 + 10)
  else none

/-- Four hexadecimal digits. -/
def hexPoint (a b c d : CodePoint) : Option Nat := do
  let a ← hexDigit a
  let b ← hexDigit b
  let c ← hexDigit c
  let d ← hexDigit d
  some (((a * 16 + b) * 16 + c) * 16 + d)

/-! ## Strings -/

/-- The escapes of one character. -/
def simpleEscape (c : CodePoint) : Option CodePoint :=
  if c = .ofChar '"' ∨ c = .ofChar '\\' ∨ c = .ofChar '/' then some c
  else if c = .ofChar 'b' then some 0x08
  else if c = .ofChar 'f' then some 0x0C
  else if c = .ofChar 'n' then some 0x0A
  else if c = .ofChar 'r' then some 0x0D
  else if c = .ofChar 't' then some 0x09
  else none

/-- The code point of a number; a number from four digits always has one. -/
def pointOf (n : Nat) : CodePoint := Fin.ofNat _ n

def isHighSurrogate (n : Nat) : Bool := 0xD800 ≤ n && n ≤ 0xDBFF

def isLowSurrogate (n : Nat) : Bool := 0xDC00 ≤ n && n ≤ 0xDFFF

/-- `Py_UNICODE_JOIN_SURROGATES`. -/
def joinSurrogates (high low : Nat) : Nat := 0x10000 + (high - 0xD800) * 0x400 + (low - 0xDC00)

/-- The second half of a surrogate pair: `some` is the joined character. `rest`
is the text after the six characters that may be the second escape. -/
def surrogatePair (point : Nat) (next u a b c d : CodePoint) (rest : Text) :
    Except DecodeError (Option Nat) :=
  if isHighSurrogate point && next = .ofChar '\\' && u = .ofChar 'u' then
    match hexPoint a b c d with
    | none => .error ⟨.unicodeEscape, u :: a :: b :: c :: d :: rest⟩
    | some low => .ok (if isLowSurrogate low then some (joinSurrogates point low) else none)
  else .ok none

/-- One more character in front of a scanned string. -/
def push (c : CodePoint) : Except DecodeError (Text × Text) → Except DecodeError (Text × Text)
  | .ok (text, rest) => .ok (c :: text, rest)
  | .error e => .error e

/-- `scanstring_unicode`, after the opening quote; `start` is the text from that
quote on. An escape `\uXXXX` that the text ends with is no escape yet, and a pair
of surrogates is one character when more text follows it. -/
def scanString (start : Text) : Text → Except DecodeError (Text × Text)
  | [] => .error ⟨.unterminated, start⟩
  | c :: rest =>
    if c = .ofChar '"' then .ok ([], rest)
    else if c = .ofChar '\\' then
      match rest with
      | [] => .error ⟨.unterminated, start⟩
      | e :: rest =>
        if e = .ofChar 'u' then
          match rest with
          | h₁ :: h₂ :: h₃ :: h₄ :: next :: rest =>
            match hexPoint h₁ h₂ h₃ h₄ with
            | none => .error ⟨.unicodeEscape, e :: h₁ :: h₂ :: h₃ :: h₄ :: next :: rest⟩
            | some point =>
              match rest with
              | u :: l₁ :: l₂ :: l₃ :: l₄ :: after :: rest =>
                match surrogatePair point next u l₁ l₂ l₃ l₄ (after :: rest) with
                | .error e => .error e
                | .ok (some joined) => push (pointOf joined) (scanString start (after :: rest))
                | .ok none => push (pointOf point)
                  (scanString start (next :: u :: l₁ :: l₂ :: l₃ :: l₄ :: after :: rest))
              | rest => push (pointOf point) (scanString start (next :: rest))
          | rest => .error ⟨.unicodeEscape, e :: rest⟩
        else
          match simpleEscape e with
          | none => .error ⟨.escape, c :: e :: rest⟩
          | some point => push point (scanString start rest)
    else if c.val ≤ 0x1F then .error ⟨.controlCharacter, c :: rest⟩
    else push c (scanString start rest)

/-! ## Numbers -/

def matchSign : Text → Text × Text
  | c :: rest => if c = .ofChar '-' then ([c], rest) else ([], c :: rest)
  | [] => ([], [])

/-- One zero, or digits that do not start with a zero. -/
def matchInteger : Text → Option (Text × Text)
  | c :: rest =>
    if c = .ofChar '0' then some ([c], rest)
    else if isDigit c then some (c :: rest.takeWhile isDigit, rest.dropWhile isDigit)
    else none
  | [] => none

/-- A point and at least one digit, or nothing. -/
def matchFraction : Text → Text × Text
  | point :: digit :: rest =>
    if point = .ofChar '.' ∧ isDigit digit then
      (point :: digit :: rest.takeWhile isDigit, rest.dropWhile isDigit)
    else ([], point :: digit :: rest)
  | rest => ([], rest)

/-- The sign of an exponent, if there is one. -/
def matchExponentSign : Text → Text × Text
  | c :: rest => if c = .ofChar '+' ∨ c = .ofChar '-' then ([c], rest) else ([], c :: rest)
  | [] => ([], [])

/-- An exponent with at least one digit; without one, nothing is taken. -/
def matchExponent : Text → Text × Text
  | e :: rest =>
    if e = .ofChar 'e' ∨ e = .ofChar 'E' then
      let (sign, digits) := matchExponentSign rest
      match digits.takeWhile isDigit with
      | [] => ([], e :: rest)
      | d :: ds => (e :: sign ++ d :: ds, digits.dropWhile isDigit)
    else ([], e :: rest)
  | [] => ([], [])

/-- The text of a number, and whether it is a float. -/
structure NumberMatch where
  text : Text
  isFloat : Bool
  rest : Text

/-- `_match_number_unicode`, up to the call of the hook; `none` is a `StopIteration`. -/
def matchNumber (text : Text) : Option NumberMatch := do
  let (sign, rest) := matchSign text
  let (integer, rest) ← matchInteger rest
  let (fraction, rest) := matchFraction rest
  let (exponent, rest) := matchExponent rest
  some {
    text := sign ++ integer ++ fraction ++ exponent
    isFloat := fraction ≠ [] ∨ exponent ≠ []
    rest }

/-! ## Values -/

section Values

variable {ε N : Type}

/-- The outcome of scanning a part of a text, with the text that is left. -/
abbrev Scanned (ε α : Type) : Type := Except (Failure ε) (α × Text)

/-- Scan a number with its hook. -/
def scanNumber (hooks : Hooks ε N) (text : Text) : Scanned ε (Value N) :=
  match matchNumber text with
  | none => .error (.decode ⟨.value, text⟩)
  | some found =>
    match if found.isFloat then hooks.parseFloat found.text else hooks.parseInt found.text with
    | .ok n => .ok (.number n, found.rest)
    | .error e => .error (.refused e)

/-- `_parse_constant`. -/
def scanConstant (hooks : Hooks ε N) (name rest : Text) : Scanned ε (Value N) :=
  match hooks.parseConstant name with
  | .ok n => .ok (.number n, rest)
  | .error e => .error (.refused e)

/-- What follows an item of a container: its closing bracket (`true`), or a comma
with the space after it. -/
def afterItem (close : CodePoint) (rest : Text) : Except DecodeError (Bool × Text) :=
  match skipSpace rest with
  | [] => .error ⟨.comma, []⟩
  | c :: rest =>
    if c = close then .ok (true, rest)
    else if c = .ofChar ',' then .ok (false, skipSpace rest)
    else .error ⟨.comma, c :: rest⟩

/-- The loop over the items of a container. A pass takes at least one character,
so `fuel` is enough when it is more than the length of the text. -/
def scanItems {α : Type} (close : CodePoint) (item : Text → Scanned ε α) :
    (fuel : Nat) → Text → Scanned ε (List α)
  | 0, _ => .error .recursion
  | fuel + 1, text =>
    match item text with
    | .error failure => .error failure
    | .ok (a, rest) =>
      match afterItem close rest with
      | .error e => .error (.decode e)
      | .ok (true, rest) => .ok ([a], rest)
      | .ok (false, rest) =>
        match scanItems close item fuel rest with
        | .error failure => .error failure
        | .ok (items, rest) => .ok (a :: items, rest)

/-- The items of a container after its opening bracket. -/
def scanContainer {α : Type} (close : CodePoint) (item : Text → Scanned ε α) (text : Text) :
    Scanned ε (List α) :=
  match skipSpace text with
  | [] => scanItems close item 1 []
  | c :: rest =>
    if c = close then .ok ([], rest) else scanItems close item (rest.length + 2) (c :: rest)

/-- A key, a colon and a value. -/
def scanMember (scan : Text → Scanned ε (Value N)) : Text → Scanned ε (Text × Value N)
  | [] => .error (.decode ⟨.name, []⟩)
  | c :: rest =>
    if c = .ofChar '"' then
      match scanString (c :: rest) rest with
      | .error e => .error (.decode e)
      | .ok (key, rest) =>
        match skipSpace rest with
        | [] => .error (.decode ⟨.colon, []⟩)
        | c :: rest =>
          if c = .ofChar ':' then
            match scan (skipSpace rest) with
            | .error failure => .error failure
            | .ok (value, rest) => .ok ((key, value), rest)
          else .error (.decode ⟨.colon, c :: rest⟩)
    else .error (.decode ⟨.name, c :: rest⟩)

/-- `PyDict_SetItem`: a key keeps its first place and has its last value. -/
def setItem (members : List (Text × Value N)) (member : Text × Value N) : List (Text × Value N) :=
  if members.any fun old => old.1 = member.1 then
    members.map fun old => if old.1 = member.1 then member else old
  else members ++ [member]

/-- `_parse_array_unicode`. -/
def parseArray (scan : Text → Scanned ε (Value N)) (text : Text) : Scanned ε (Value N) :=
  (scanContainer (.ofChar ']') scan text).map fun (items, rest) => (.array items, rest)

/-- `_parse_object_unicode`. -/
def parseObject (scan : Text → Scanned ε (Value N)) (text : Text) : Scanned ε (Value N) :=
  (scanContainer (.ofChar '}') (scanMember scan) text).map fun (members, rest) =>
    (.object (members.foldl setItem []), rest)

/-- The literals and the constants, with their names. -/
def scanLiteral (hooks : Hooks ε N) (text : Text) : Option (Scanned ε (Value N)) :=
  if lit "null" <+: text then some (.ok (.null, text.drop 4))
  else if lit "true" <+: text then some (.ok (.bool true, text.drop 4))
  else if lit "false" <+: text then some (.ok (.bool false, text.drop 5))
  else if lit "NaN" <+: text then some (scanConstant hooks (lit "NaN") (text.drop 3))
  else if lit "Infinity" <+: text then some (scanConstant hooks (lit "Infinity") (text.drop 8))
  else if lit "-Infinity" <+: text then some (scanConstant hooks (lit "-Infinity") (text.drop 9))
  else none

/-- `scan_once_unicode`; its `StopIteration` is the message "Expecting value". -/
def scanOnce (hooks : Hooks ε N) : (stack : Nat) → Text → Scanned ε (Value N)
  | _, [] => .error (.decode ⟨.value, []⟩)
  | stack, c :: rest =>
    if c = .ofChar '"' then
      match scanString (c :: rest) rest with
      | .error e => .error (.decode e)
      | .ok (text, rest) => .ok (.string text, rest)
    else if c = .ofChar '{' then
      match stack with
      | 0 => .error .recursion
      | stack + 1 => parseObject (scanOnce hooks stack) rest
    else if c = .ofChar '[' then
      match stack with
      | 0 => .error .recursion
      | stack + 1 => parseArray (scanOnce hooks stack) rest
    else (scanLiteral hooks (c :: rest)).getD (scanNumber hooks (c :: rest))

/-- `JSONDecoder.raw_decode`. -/
def rawDecode (hooks : Hooks ε N) (stack : Nat) (text : Text) : Scanned ε (Value N) :=
  scanOnce hooks stack text

/-- `JSONDecoder.decode`. -/
def decode (hooks : Hooks ε N) (stack : Nat) (text : Text) : Except (Failure ε) (Value N) :=
  match rawDecode hooks stack (skipSpace text) with
  | .error failure => .error failure
  | .ok (value, rest) =>
    match skipSpace rest with
    | [] => .ok value
    | c :: rest => .error (.decode ⟨.extra, c :: rest⟩)

end Values

end DataBridge.Json
