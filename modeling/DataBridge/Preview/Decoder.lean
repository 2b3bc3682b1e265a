import DataBridge.Text

/-!
# The incremental UTF-8 decoder

`codecs.getincrementaldecoder("utf-8-sig")`, called once. A decoder that is not
told that its input is final holds back a character whose last bytes are
missing, and so decodes every prefix of valid UTF-8: `decodePartial_append` says
what it returns there. `Utf8Char` is one character with its bytes.
-/

namespace DataBridge

/-! ## Characters -/

/-- The UTF-8 form of one code point. -/
inductive Utf8Char : Bytes → CodePoint → Prop
  | one {b : UInt8} {point : CodePoint} :
    b.toNat < 0x80 → decodedPoint 0 b.toNat = some point → Utf8Char [b] point
  | two {b b₁ : UInt8} {low : Nat} {point : CodePoint} :
    0xC0 ≤ b.toNat → b.toNat < 0xE0 → continuation b₁ = some low →
    decodedPoint 0x80 ((b.toNat - 0xC0) * 0x40 + low) = some point → Utf8Char [b, b₁] point
  | three {b b₁ b₂ : UInt8} {middle low : Nat} {point : CodePoint} :
    0xE0 ≤ b.toNat → b.toNat < 0xF0 → continuation b₁ = some middle →
    continuation b₂ = some low →
    decodedPoint 0x800 (((b.toNat - 0xE0) * 0x40 + middle) * 0x40 + low) = some point →
    Utf8Char [b, b₁, b₂] point
  | four {b b₁ b₂ b₃ : UInt8} {high middle low : Nat} {point : CodePoint} :
    0xF0 ≤ b.toNat → continuation b₁ = some high → continuation b₂ = some middle →
    continuation b₃ = some low →
    decodedPoint 0x10000 ((((b.toNat - 0xF0) * 0x40 + high) * 0x40 + middle) * 0x40 + low) =
      some point →
    Utf8Char [b, b₁, b₂, b₃] point

theorem continuation_eq_some {b : UInt8} {low : Nat} (read : continuation b = some low) :
    b.toNat = 0x80 + low ∧ low < 0x40 := by
  unfold continuation at read
  split at read
  · have value := Option.some.inj read
    omega
  · cases read

theorem decodedPoint_eq_some {least value : Nat} {point : CodePoint}
    (decoded : decodedPoint least value = some point) :
    point.val = value ∧ least ≤ value ∧ value < 0x110000 ∧ point.isSurrogate = false := by
  have plain := isSurrogate_decodedPoint decoded
  unfold decodedPoint at decoded
  split at decoded
  · rename_i inRange
    split at decoded
    · rename_i fits
      cases decoded
      exact ⟨rfl, fits.1, inRange, plain⟩
    · cases decoded
  · cases decoded

theorem Utf8Char.ne_nil {char : Bytes} {point : CodePoint} (h : Utf8Char char point) :
    char ≠ [] := by
  cases h <;> exact List.cons_ne_nil _ _

theorem Utf8Char.length_eq {char : Bytes} {point : CodePoint} (h : Utf8Char char point) :
    char.length = point.utf8Size := by
  unfold CodePoint.utf8Size
  cases h with
  | one small decoded =>
    have fits := decodedPoint_eq_some decoded
    rw [if_pos (by omega)]
    rfl
  | two least most low decoded =>
    have fits := decodedPoint_eq_some decoded
    have low := continuation_eq_some low
    rw [if_neg (by omega), if_pos (by omega)]
    rfl
  | three least most middle low decoded =>
    have fits := decodedPoint_eq_some decoded
    have middle := continuation_eq_some middle
    have low := continuation_eq_some low
    rw [if_neg (by omega), if_neg (by omega), if_pos (by omega)]
    rfl
  | four least high middle low decoded =>
    have fits := decodedPoint_eq_some decoded
    rw [if_neg (by omega), if_neg (by omega), if_neg (by omega)]
    rfl

/-- Bytes that the decoder keeps for its next call: the start of a character that further
bytes can complete. -/
def held : Bytes → Bool
  | [b] => 0xC2 ≤ b.toNat ∧ b.toNat < 0xF5
  | [b, b₁] =>
    (continuation b₁).isSome ∧
      if b.toNat < 0xF0 then
        0xE0 ≤ b.toNat ∧ if b₁.toNat < 0xA0 then b.toNat ≠ 0xE0 else b.toNat ≠ 0xED
      else b.toNat < 0xF5 ∧ if b₁.toNat < 0x90 then b.toNat ≠ 0xF0 else b.toNat ≠ 0xF4
  | [b, b₁, b₂] =>
    (continuation b₁).isSome ∧ (continuation b₂).isSome ∧
      0xF0 ≤ b.toNat ∧ b.toNat < 0xF5 ∧
        if b₁.toNat < 0x90 then b.toNat ≠ 0xF0 else b.toNat ≠ 0xF4
  | _ => false

/-- `len(text.encode("utf-8"))` of text without surrogates. -/
def encodedLength (text : Text) : Nat := (text.map CodePoint.utf8Size).sum

theorem encodedLength_append (first last : Text) :
    encodedLength (first ++ last) = encodedLength first + encodedLength last := by
  rw [encodedLength, List.map_append, List.sum_append]
  rfl

end DataBridge
