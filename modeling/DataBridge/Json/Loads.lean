import DataBridge.Hosts.Numerals
import DataBridge.Json.Dumps
import DataBridge.Preview.Json

/-!
# `json.loads` and `json.dumps`

The two functions with their defaults, over the numbers of Python. `PythonFloat` is
what the model leaves open about `float`: how a text is read and a number shown.
`jsonLoads_jsonDumps` reads back every `Storable` value, and `loadsBytes_encode` the
same from the bytes of its text.
-/

namespace DataBridge

open Json

/-- `float` and `float.__repr__`. -/
structure PythonFloat (Φ : Type) where
  ofText : Text → Φ
  repr : Φ → Text

/-- `ValueError`, also for a text that is no JSON. -/
def valueError : Exc := .other 1

def recursionError : Exc := .other 2

/-- `int.__repr__`. -/
def intText (n : Int) : Text :=
  if n < 0 then .ofChar '-' :: decimal n.natAbs else decimal n.natAbs

section Python

variable {Φ : Type} (float : PythonFloat Φ)

/-- The hooks that a decoder has by default; `int` limits the digits as `_bounded_int` does. -/
def pythonHooks : Hooks Exc (JsonNumber Φ) where
  parseInt text := (boundedInt text).mapError fun _ => valueError
  parseFloat text := .ok (.float (float.ofText text))
  parseConstant name := .ok (.float (float.ofText name))

/-- `json.loads(text)`. -/
def jsonLoads (stack : Nat) (text : Text) : Except Exc (Value (JsonNumber Φ)) :=
  (decode (pythonHooks float) stack text).mapError fun
    | .decode _ => valueError
    | .recursion => recursionError
    | .refused e => e

def numberText : JsonNumber Φ → Text
  | .int n => intText n
  | .float x => float.repr x

/-- `json.dumps(value)`. -/
def jsonDumps (value : Value (JsonNumber Φ)) : Text :=
  dumps [.ofChar ' '] (numberText float) value

/-- `json.dumps(value, separators=(",", ":"))`. -/
def jsonDumpsCompact (value : Value (JsonNumber Φ)) : Text := dumps [] (numberText float) value

/-! ## Integers -/

theorem decimal_eq_numeral (n : Nat) : decimal n = numeral 10 n := by
  rw [decimal, lit, Nat.toString_eq_ofList_toDigits, String.toList_ofList, numeral]

theorem isDigit_of_isDigitOf {c : CodePoint} (digit : isDigitOf 10 c = true) :
    isDigit c = true ∧ digitValue c = some (c.val - 0x30) := by
  unfold isDigitOf digitValue at digit
  unfold digitValue
  split_ifs at digit ⊢ with low
  · refine ⟨?_, rfl⟩
    rw [isDigit, Bool.and_eq_true, decide_eq_true_eq, decide_eq_true_eq]
    exact ⟨low.1, low.2⟩
  all_goals
    simp only [Option.any_some, Option.any_none, decide_eq_true_eq, Bool.false_eq_true] at digit
    try omega

theorem natOfDigits_eq {text : Text} (digits : ∀ c ∈ text, isDigitOf 10 c = true) :
    natOfDigits text = intOf 10 text := by
  unfold natOfDigits intOf
  apply List.foldl_ext
  intro n c member
  rw [(isDigit_of_isDigitOf (digits c member)).2, Option.getD_some, Nat.mul_comm]

theorem digits_decimal (n : Nat) : ∀ c ∈ decimal n, isDigitOf 10 c = true := by
  intro c member
  rw [decimal_eq_numeral] at member
  exact isDigitOf_of_mem_numeral (by decide) (by decide) member

theorem natOfDigits_decimal (n : Nat) : natOfDigits (decimal n) = n := by
  rw [natOfDigits_eq (digits_decimal n), decimal_eq_numeral]
  exact intOf_numeral n (by decide) (by decide)

theorem isInteger_decimal (n : Nat) : IsInteger (decimal n) := by
  have digits := digits_decimal n
  by_cases zero : n = 0
  · subst zero
    exact .inl rfl
  · refine .inr ?_
    cases shown : decimal n with
    | nil =>
      rw [decimal_eq_numeral] at shown
      exact absurd shown (numeral_ne_nil 10 n)
    | cons d ds =>
      rw [shown] at digits
      refine ⟨d, ds, rfl, ?_, fun c member => (isDigit_of_isDigitOf (digits c member)).1⟩
      rintro rfl
      rw [decimal_eq_numeral] at shown
      have head : (numeral 10 n).head? = some (.ofChar '0') := by rw [shown, List.head?_cons]
      exact zero (numeral_head (by decide) (by decide) head)

/-- A port, and any other number of at most 4300 digits, is read back. -/
theorem shows_decimal {n : Nat} (short : (decimal n).length ≤ intMaxDigits) :
    Shows (pythonHooks float) (decimal n) (.int n) := by
  apply shows_integer (.inl rfl) (isInteger_decimal n)
  have few : ((decimal n).filter isDigit).length ≤ intMaxDigits :=
    (List.length_filter_le isDigit _).trans short
  change (boundedInt (decimal n)).mapError (fun _ => valueError) = .ok (.int n)
  rw [boundedInt.eq_def, if_neg (Nat.not_lt.mpr few)]
  cases shown : decimal n with
  | nil =>
    rw [decimal_eq_numeral] at shown
    exact absurd shown (numeral_ne_nil 10 n)
  | cons d ds =>
    have digit := (isDigit_of_isDigitOf (digits_decimal n d (shown ▸ List.mem_cons_self))).1
    have positive : d ≠ .ofChar '-' := by
      rintro rfl
      cases digit
    have value := natOfDigits_decimal n
    rw [shown] at value
    dsimp only
    rw [if_neg positive, value]
    rfl

/-! ## The round trip -/

/-- The values that `json.loads` reads back from `json.dumps`. -/
abbrev Storable (k : Nat) (value : Value (JsonNumber Φ)) : Prop :=
  Writes (pythonHooks float) (numberText float) k value

theorem storable_nat {k n : Nat} (short : (decimal n).length ≤ intMaxDigits) :
    Storable float k (.number (.int n)) := by
  have natural : ¬ (n : Int) < 0 := by omega
  have text : numberText float (.int n) = decimal n := by
    rw [numberText, intText, if_neg natural, Int.natAbs_natCast]
  apply Writes.number
  rw [text]
  exact shows_decimal float short

theorem storable_int {k : Nat} {n : Int} (short : (decimal n.natAbs).length ≤ intMaxDigits) :
    Storable float k (.number (.int n)) := by
  apply Writes.number
  by_cases negative : n < 0
  · have text : numberText float (.int n) = .ofChar '-' :: decimal n.natAbs := by
      rw [numberText, intText, if_pos negative]
    have few : ((CodePoint.ofChar '-' :: decimal n.natAbs).filter isDigit).length ≤ intMaxDigits :=
      (List.length_filter_le isDigit (decimal n.natAbs)).trans short
    have parsed : (pythonHooks float).parseInt (.ofChar '-' :: decimal n.natAbs) = .ok (.int n) := by
      change (boundedInt (.ofChar '-' :: decimal n.natAbs)).mapError (fun _ => valueError) = _
      rw [boundedInt.eq_def, if_neg (Nat.not_lt.mpr few)]
      dsimp only
      rw [if_pos rfl, natOfDigits_decimal, Int.ofNat_natAbs_of_nonpos (by omega), neg_neg]
      rfl
    have minus : IsSign [.ofChar '-'] := .inr rfl
    rw [text]
    exact shows_integer minus (isInteger_decimal n.natAbs) parsed
  · have text : numberText float (.int n) = decimal n.natAbs := by
      rw [numberText, intText, if_neg negative]
    have same : n = (n.natAbs : Int) := by omega
    rw [text]
    have shown := shows_decimal float short
    rw [← same] at shown
    exact shown

/-- A `float` that its text stands for is read back. -/
theorem storable_float {k : Nat} {x : Φ} (number : IsNumber (float.repr x))
    (mark : ∃ c ∈ float.repr x, isDigit c = false ∧ c ≠ .ofChar '-')
    (same : float.ofText (float.repr x) = x) : Storable float k (.number (.float x)) := by
  apply Writes.number
  apply shows_float number mark
  change Except.ok (JsonNumber.float (float.ofText (float.repr x))) = _
  rw [same]

theorem isSpace_blank : ∀ c ∈ [CodePoint.ofChar ' '], isSpace c = true := by
  intro c member
  rw [List.mem_singleton.mp member]
  rfl

/-- What was dumped is loaded again. -/
theorem jsonLoads_jsonDumps {k stack : Nat} {value : Value (JsonNumber Φ)}
    (storable : Storable float k value) (room : k ≤ stack) :
    jsonLoads float stack (jsonDumps float value) = .ok value := by
  rw [jsonLoads, jsonDumps, decode_dumps isSpace_blank storable room]
  rfl

/-- The text of a storable value is printable ASCII. -/
theorem printable_jsonDumps {k : Nat} {value : Value (JsonNumber Φ)}
    (storable : Storable float k value) : Printable (jsonDumps float value) := by
  have blank : Printable [CodePoint.ofChar ' '] := printable_of_all rfl
  exact printable_dumps blank storable

end Python

/-! ## Bytes -/

/-- A code point in UTF-8. -/
def CodePoint.utf8 (c : CodePoint) : Bytes :=
  if c.val < 0x80 then [.ofNat c.val]
  else if c.val < 0x800 then [.ofNat (0xC0 + c.val / 0x40), .ofNat (0x80 + c.val % 0x40)]
  else if c.val < 0x10000 then
    [.ofNat (0xE0 + c.val / 0x1000), .ofNat (0x80 + c.val / 0x40 % 0x40), .ofNat (0x80 + c.val % 0x40)]
  else
    [.ofNat (0xF0 + c.val / 0x40000), .ofNat (0x80 + c.val / 0x1000 % 0x40),
      .ofNat (0x80 + c.val / 0x40 % 0x40), .ofNat (0x80 + c.val % 0x40)]

/-- `text.encode()`. -/
def Text.encode (text : Text) : Except Exc Bytes :=
  if text.any CodePoint.isSurrogate then .error .unicodeEncode else .ok (text.flatMap CodePoint.utf8)

/-- The text with one code point for each byte. -/
def byteText (data : Bytes) : Text := data.map fun b => pointOf b.toNat

/-- `data.decode("ascii")`. -/
def decodeAscii (data : Bytes) : Except Exc Text :=
  if data.all (· < 128) then .ok (byteText data) else .error .unicodeDecode

/-- The results of `json.detect_encoding`. -/
inductive JsonEncoding
  | utf8 | utf8Sig | utf16 | utf16BE | utf16LE | utf32 | utf32BE | utf32LE
  deriving DecidableEq

/-- `json.detect_encoding`. -/
def detectEncoding (data : Bytes) : JsonEncoding :=
  if [0x00, 0x00, 0xFE, 0xFF] <+: data ∨ [0xFF, 0xFE, 0x00, 0x00] <+: data then .utf32
  else if [0xFE, 0xFF] <+: data ∨ [0xFF, 0xFE] <+: data then .utf16
  else if [0xEF, 0xBB, 0xBF] <+: data then .utf8Sig
  else
    match data with
    | a :: b :: c :: d :: _ =>
      if a = 0 then if b = 0 then .utf32BE else .utf16BE
      else if b = 0 then if c = 0 ∧ d = 0 then .utf32LE else .utf16LE
      else .utf8
    | [a, b] => if a = 0 then .utf16BE else if b = 0 then .utf16LE else .utf8
    | _ => .utf8

/-- The decoders that `json.loads` uses; on ASCII that of UTF-8 is the plain one. -/
structure JsonCodecs where
  decode : JsonEncoding → Bytes → Except Exc Text
  decode_utf8 : ∀ data, (∀ b ∈ data, b < 128) → decode .utf8 data = .ok (byteText data)

/-- `json.loads(data)` for `bytes`. -/
def jsonLoadsBytes {Φ : Type} (float : PythonFloat Φ) (codecs : JsonCodecs) (stack : Nat)
    (data : Bytes) : Except Exc (Value (JsonNumber Φ)) := do
  let text ← codecs.decode (detectEncoding data) data
  jsonLoads float stack text

/-- ASCII characters as bytes. -/
def asciiBytes (text : Text) : Bytes := text.map fun c => .ofNat c.val

theorem encode_ascii {text : Text} (ascii : ∀ c ∈ text, c.val < 128) :
    text.encode = .ok (asciiBytes text) := by
  have plain : ¬ text.any CodePoint.isSurrogate = true := by
    intro surrogate
    obtain ⟨c, member, is⟩ := List.any_eq_true.mp surrogate
    have small := ascii c member
    simp only [CodePoint.isSurrogate, Bool.and_eq_true, decide_eq_true_eq] at is
    omega
  rw [Text.encode, if_neg plain, asciiBytes, ← List.flatMap_pure_eq_map]
  congr 1
  apply List.flatMap_congr
  intro c member
  rw [CodePoint.utf8, if_pos (ascii c member)]
  rfl

theorem asciiBytes_byteText {data : Bytes} : asciiBytes (byteText data) = data := by
  rw [asciiBytes, byteText, List.map_map]
  refine (List.map_congr_left fun b _ => ?_).trans (List.map_id data)
  have small := b.toNat_lt
  rw [Function.comp_apply, pointOf_small (by omega), UInt8.ofNat_toNat, id]

theorem byteText_asciiBytes {text : Text} (ascii : ∀ c ∈ text, c.val < 128) :
    byteText (asciiBytes text) = text := by
  rw [asciiBytes, byteText, List.map_map]
  refine (List.map_congr_left fun c member => ?_).trans (List.map_id text)
  have small := ascii c member
  have value : (UInt8.ofNat c.val).toNat = c.val :=
    UInt8.toNat_ofNat_of_lt' (small.trans (by decide))
  rw [Function.comp_apply, value, pointOf_val, id]

theorem mem_asciiBytes {text : Text} (ascii : ∀ c ∈ text, c.val < 128) {b : UInt8}
    (member : b ∈ asciiBytes text) : ∃ c ∈ text, b.toNat = c.val := by
  obtain ⟨c, inside, rfl⟩ := List.mem_map.mp member
  exact ⟨c, inside, UInt8.toNat_ofNat_of_lt' ((ascii c inside).trans (by decide))⟩

/-- Bytes other than zero, none of which begins a byte order mark, are read as UTF-8. -/
theorem detectEncoding_utf8 {data : Bytes} (low : ∀ b ∈ data, 0 < b.toNat ∧ b.toNat < 128) :
    detectEncoding data = .utf8 := by
  have head : ∀ {a : UInt8} {mark : Bytes}, a = 0 ∨ 128 ≤ a.toNat → ¬ a :: mark <+: data := by
    intro a mark outside before
    have range := low a (before.subset List.mem_cons_self)
    rcases outside with rfl | high
    · exact absurd range.1 (Nat.lt_irrefl 0)
    · omega
  have nonzero : ∀ b ∈ data, b ≠ 0 := by
    rintro b member rfl
    exact absurd (low 0 member).1 (Nat.lt_irrefl 0)
  unfold detectEncoding
  rw [if_neg (not_or.mpr ⟨head (.inl rfl), head (.inr (by decide))⟩),
    if_neg (not_or.mpr ⟨head (.inr (by decide)), head (.inr (by decide))⟩),
    if_neg (head (.inr (by decide)))]
  rcases data with _ | ⟨a, _ | ⟨b, _ | ⟨c, _ | ⟨d, rest⟩⟩⟩⟩
  · rfl
  · rfl
  · simp [nonzero a, nonzero b]
  · rfl
  · simp [nonzero a, nonzero b]

/-- What was dumped and encoded is loaded from the bytes. -/
theorem loadsBytes_encode {Φ : Type} {float : PythonFloat Φ} {codecs : JsonCodecs} {k stack : Nat}
    {value : Value (JsonNumber Φ)} (storable : Storable float k value) (room : k ≤ stack) :
    (jsonDumps float value).encode = .ok (asciiBytes (jsonDumps float value)) ∧
      jsonLoadsBytes float codecs stack (asciiBytes (jsonDumps float value)) = .ok value := by
  have printable := printable_jsonDumps float storable
  have ascii : ∀ c ∈ jsonDumps float value, c.val < 128 := fun c member => by
    have range := printable c member
    omega
  have low : ∀ b ∈ asciiBytes (jsonDumps float value), 0 < b.toNat ∧ b.toNat < 128 := by
    intro b member
    obtain ⟨c, inside, same⟩ := mem_asciiBytes ascii member
    have range := printable c inside
    omega
  have small : ∀ b ∈ asciiBytes (jsonDumps float value), b < 128 := fun b member =>
    UInt8.lt_iff_toNat_lt.mpr (low b member).2
  refine ⟨encode_ascii ascii, ?_⟩
  rw [jsonLoadsBytes, detectEncoding_utf8 low, codecs.decode_utf8 _ small]
  change jsonLoads float stack (byteText _) = _
  rw [byteText_asciiBytes ascii, jsonLoads_jsonDumps float storable room]

end DataBridge
