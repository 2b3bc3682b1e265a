import Mathlib.Tactic

/-!
# Text and bytes

A Python `str` is a list of code points, lone surrogates included, so the
branches of the source that refuse text without a UTF-8 form stay reachable.
`Text.lower` maps every code point whose lower-case form contains an ASCII
character; the source compares lower-case text with ASCII text only, and no
other code point can make such a comparison succeed or fail.
-/

namespace DataBridge

abbrev CodePoint := Fin 0x110000

abbrev Text := List CodePoint

abbrev Bytes := List UInt8

instance CodePoint.instNeZero : NeZero 0x110000 := ⟨by decide⟩

instance CodePoint.instLawfulBEq : LawfulBEq CodePoint := inferInstance

instance Text.instLawfulBEq : LawfulBEq Text := inferInstance

def CodePoint.ofChar (c : Char) : CodePoint :=
  ⟨c.toNat, by
    have valid := c.valid
    simp only [UInt32.isValidChar, Nat.isValidChar] at valid
    simp only [Char.toNat]
    omega⟩

/-- The NUL character. -/
def CodePoint.nul : CodePoint := .ofChar (Char.ofNat 0)

/-- A string literal of the source. -/
def lit (s : String) : Text := s.toList.map CodePoint.ofChar

/-- A decimal number, as an f-string shows it. -/
def decimal (n : Nat) : Text := lit (toString n)

def CodePoint.isSurrogate (c : CodePoint) : Bool := 0xD800 ≤ c.val && c.val ≤ 0xDFFF

/-- The length of one code point in UTF-8. -/
def CodePoint.utf8Size (c : CodePoint) : Nat :=
  if c.val < 0x80 then 1 else if c.val < 0x800 then 2 else if c.val < 0x10000 then 3 else 4

/-- `len(text.encode("utf-8"))`; `none` is a `UnicodeEncodeError`. -/
def Text.utf8Length (text : Text) : Option Nat :=
  if text.any CodePoint.isSurrogate then none else some (text.map CodePoint.utf8Size).sum

def CodePoint.lower (c : CodePoint) : Text :=
  if 0x41 ≤ c.val ∧ c.val ≤ 0x5A then [c + 0x20]
  else if c = 0x130 then [0x69, 0x307]
  else if c = 0x212A then [0x6B]
  else [c]

/-- `str.lower`, as far as ASCII text can tell. -/
def Text.lower (text : Text) : Text := text.flatMap CodePoint.lower

theorem Text.lower_append (first last : Text) :
    Text.lower (first ++ last) = first.lower ++ last.lower := List.flatMap_append

/-! ## UTF-8 -/

/-- The low six bits of a continuation byte. -/
def continuation (b : UInt8) : Option Nat :=
  if 0x80 ≤ b.toNat ∧ b.toNat ≤ 0xBF then some (b.toNat - 0x80) else none

/-- A decoded code point, if it needs the bytes it was read from and is none of
the surrogates. -/
def decodedPoint (least value : Nat) : Option CodePoint :=
  if h : value < 0x110000 then
    if least ≤ value ∧ CodePoint.isSurrogate ⟨value, h⟩ = false then some ⟨value, h⟩ else none
  else none

/-- `bytes.decode("utf-8")`; `none` is a `UnicodeDecodeError`. -/
def decodeUtf8 : Bytes → Option Text
  | [] => some []
  | b :: rest =>
    if b.toNat < 0x80 then do
      let point ← decodedPoint 0 b.toNat
      let text ← decodeUtf8 rest
      some (point :: text)
    else if b.toNat < 0xE0 then
      match rest with
      | b₁ :: rest => do
        let low ← continuation b₁
        let point ← if 0xC0 ≤ b.toNat then decodedPoint 0x80 ((b.toNat - 0xC0) * 0x40 + low) else none
        let text ← decodeUtf8 rest
        some (point :: text)
      | _ => none
    else if b.toNat < 0xF0 then
      match rest with
      | b₁ :: b₂ :: rest => do
        let middle ← continuation b₁
        let low ← continuation b₂
        let point ← decodedPoint 0x800 (((b.toNat - 0xE0) * 0x40 + middle) * 0x40 + low)
        let text ← decodeUtf8 rest
        some (point :: text)
      | _ => none
    else
      match rest with
      | b₁ :: b₂ :: b₃ :: rest => do
        let high ← continuation b₁
        let middle ← continuation b₂
        let low ← continuation b₃
        let point ← decodedPoint 0x10000
          ((((b.toNat - 0xF0) * 0x40 + high) * 0x40 + middle) * 0x40 + low)
        let text ← decodeUtf8 rest
        some (point :: text)
      | _ => none

theorem isSurrogate_decodedPoint {least value : Nat} {point : CodePoint}
    (decoded : decodedPoint least value = some point) : point.isSurrogate = false := by
  unfold decodedPoint at decoded
  split at decoded
  · split at decoded
    · rename_i plain
      cases decoded
      exact plain.2
    · cases decoded
  · cases decoded

/-- No code point is a surrogate. -/
def Text.Plain (text : Text) : Prop := ∀ point ∈ text, CodePoint.isSurrogate point = false

instance (text : Text) : Decidable text.Plain :=
  inferInstanceAs (Decidable (∀ point ∈ text, CodePoint.isSurrogate point = false))

theorem plain_of_isSome {text : Text} (encodable : text.utf8Length.isSome) : text.Plain := by
  unfold Text.utf8Length at encodable
  split at encodable
  · cases encodable
  · rename_i none
    intro point member
    cases surrogate : CodePoint.isSurrogate point with
    | false => rfl
    | true => exact absurd (List.any_eq_true.mpr ⟨point, member, surrogate⟩) none

theorem Text.Plain.append {first last : Text} (h : first.Plain) (h' : last.Plain) :
    Text.Plain (first ++ last) := by
  intro point member
  rcases List.mem_append.mp member with member | member
  · exact h point member
  · exact h' point member

theorem Text.Plain.isSome_utf8Length {text : Text} (plain : text.Plain) :
    text.utf8Length.isSome := by
  unfold Text.utf8Length
  rw [if_neg]
  · rfl
  · rw [List.any_eq_true]
    intro found
    obtain ⟨point, member, surrogate⟩ := found
    rw [plain point member] at surrogate
    cases surrogate

/-- One decoded code point in front of decoded text. -/
theorem Text.Plain.decoded {least value : Nat} {rest : Bytes} {text : Text}
    (ih : ∀ {text : Text}, decodeUtf8 rest = some text → text.Plain)
    (read : (do
      let point ← decodedPoint least value
      let text ← decodeUtf8 rest
      some (point :: text)) = some text) : text.Plain := by
  obtain ⟨point, first, read⟩ := Option.bind_eq_some_iff.mp read
  obtain ⟨later, decoded, same⟩ := Option.bind_eq_some_iff.mp read
  cases same
  intro other member
  rcases List.mem_cons.mp member with rfl | inRest
  · exact isSurrogate_decodedPoint first
  · exact ih decoded other inRest

/-- Decoded text can be encoded again. -/
theorem plain_decodeUtf8 {bytes : Bytes} {text : Text} (decoded : decodeUtf8 bytes = some text) :
    text.Plain := by
  fun_induction decodeUtf8 bytes generalizing text with
  | case1 =>
    cases decoded
    exact fun _ member => (List.not_mem_nil member).elim
  | case2 b rest small ih => exact .decoded ih decoded
  | case3 b small bigger b₁ rest ih =>
    obtain ⟨low, -, decoded⟩ := Option.bind_eq_some_iff.mp decoded
    split at decoded
    · exact .decoded ih decoded
    · cases decoded
  | case5 b small bigger most b₁ b₂ rest ih =>
    obtain ⟨middle, -, decoded⟩ := Option.bind_eq_some_iff.mp decoded
    obtain ⟨low, -, decoded⟩ := Option.bind_eq_some_iff.mp decoded
    exact .decoded ih decoded
  | case7 b small bigger most b₁ b₂ b₃ rest ih =>
    obtain ⟨high, -, decoded⟩ := Option.bind_eq_some_iff.mp decoded
    obtain ⟨middle, -, decoded⟩ := Option.bind_eq_some_iff.mp decoded
    obtain ⟨low, -, decoded⟩ := Option.bind_eq_some_iff.mp decoded
    exact .decoded ih decoded
  | _ => cases decoded

end DataBridge
