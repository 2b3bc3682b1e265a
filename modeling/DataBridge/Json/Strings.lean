import DataBridge.Json.Scanner

/-!
# Strings of JSON

`StringBody t r` is the grammar of a string after its opening quote: `r` is left
of `t` after the closing quote. `scanString` reads exactly these strings
(`scanString_sound`, `scanString_complete`); on the beginning of a string it fails
with a `CutString` error (`scanString_cut`), and each text with such an error can be
continued to a string (`scanString_resume`).
-/

namespace DataBridge.Json

/-- The characters of a string and its closing quote. -/
inductive StringBody : Text → Text → Prop
  | close {r : Text} : StringBody (.ofChar '"' :: r) r
  | plain {c : CodePoint} {t r : Text} :
    c ≠ .ofChar '"' → c ≠ .ofChar '\\' → ¬ c.val ≤ 0x1F → StringBody t r → StringBody (c :: t) r
  | escape {e point : CodePoint} {t r : Text} :
    simpleEscape e = some point → StringBody t r → StringBody (.ofChar '\\' :: e :: t) r
  | unicode {a b c d : CodePoint} {point : Nat} {t r : Text} :
    hexPoint a b c d = some point → StringBody t r →
    StringBody (.ofChar '\\' :: .ofChar 'u' :: a :: b :: c :: d :: t) r

theorem StringBody.ne_nil {t r : Text} (body : StringBody t r) : t ≠ [] := by
  cases body with
  | close | plain _ _ _ _ | escape _ _ | unicode _ _ => simp

/-- What follows a string is not part of it. -/
theorem StringBody.append {t r : Text} (body : StringBody t r) (s : Text) :
    StringBody (t ++ s) (r ++ s) := by
  induction body with
  | close => exact .close
  | plain quote backslash control _ ih => exact .plain quote backslash control ih
  | escape escaped _ ih => exact .escape escaped ih
  | unicode hex _ ih => exact .unicode hex ih

/-! ## One step of the scanner -/

/-- What the scanner may find next. -/
inductive StringView : Text → Prop
  | nil : StringView []
  | quote (r : Text) : StringView (.ofChar '"' :: r)
  | backslash : StringView [.ofChar '\\']
  | short (t : Text) : t.length ≤ 4 → StringView (.ofChar '\\' :: .ofChar 'u' :: t)
  | unicode (a b c d : CodePoint) (t : Text) : t ≠ [] →
    StringView (.ofChar '\\' :: .ofChar 'u' :: a :: b :: c :: d :: t)
  | escape (e : CodePoint) (t : Text) : e ≠ .ofChar 'u' → StringView (.ofChar '\\' :: e :: t)
  | other (c : CodePoint) (t : Text) : c ≠ .ofChar '"' → c ≠ .ofChar '\\' → StringView (c :: t)

theorem stringView (t : Text) : StringView t := by
  match t with
  | [] => exact .nil
  | c :: t =>
    by_cases quote : c = .ofChar '"'
    · subst quote
      exact .quote t
    by_cases backslash : c = .ofChar '\\'
    · subst backslash
      match t with
      | [] => exact .backslash
      | e :: t =>
        by_cases unicode : e = .ofChar 'u'
        · subst unicode
          match t with
          | [] | [_] | [_, _] | [_, _, _] | [_, _, _, _] => exact .short _ (by simp)
          | a :: b :: c :: d :: next :: t => exact .unicode a b c d (next :: t) (by simp)
        · exact .escape e t unicode
    · exact .other c t quote backslash

/-- The second half of a surrogate pair at the head of `t`, with what follows it. -/
def pairAt (point : Nat) : Text → Except DecodeError (Option (Nat × Text))
  | next :: u :: a :: b :: c :: d :: after :: rest =>
    match surrogatePair point next u a b c d (after :: rest) with
    | .error e => .error e
    | .ok (some joined) => .ok (some (joined, after :: rest))
    | .ok none => .ok none
  | _ => .ok none

section Steps

variable {start : Text}

theorem scanString_quote {r : Text} : scanString start (.ofChar '"' :: r) = .ok ([], r) := by
  rw [scanString.eq_def]
  simp only [if_true]

theorem scanString_plain {c : CodePoint} {t : Text} (quote : c ≠ .ofChar '"')
    (backslash : c ≠ .ofChar '\\') (control : ¬ c.val ≤ 0x1F) :
    scanString start (c :: t) = push c (scanString start t) := by
  rw [scanString.eq_def]
  simp only [if_neg quote, if_neg backslash, if_neg control]

theorem simpleEscape_u : simpleEscape (.ofChar 'u') = none := by decide

theorem scanString_escape {e point : CodePoint} {t : Text} (escaped : simpleEscape e = some point) :
    scanString start (.ofChar '\\' :: e :: t) = push point (scanString start t) := by
  have other : e ≠ .ofChar 'u' := by
    rintro rfl
    rw [simpleEscape_u] at escaped
    cases escaped
  have quote : CodePoint.ofChar '\\' ≠ .ofChar '"' := by decide
  rw [scanString.eq_def]
  simp only [if_neg quote, if_true, if_neg other, escaped]

/-- An escape that the text ends with. -/
theorem scanString_short {t : Text} (short : t.length ≤ 4) :
    scanString start (.ofChar '\\' :: .ofChar 'u' :: t) =
      .error ⟨.unicodeEscape, .ofChar 'u' :: t⟩ := by
  have quote : CodePoint.ofChar '\\' ≠ .ofChar '"' := by decide
  rw [scanString.eq_def]
  simp only [if_neg quote, if_true]
  match t with
  | [] | [_] | [_, _] | [_, _, _] | [_, _, _, _] => rfl

theorem scanString_unicode {a b c d : CodePoint} {t : Text} (longer : t ≠ []) :
    scanString start (.ofChar '\\' :: .ofChar 'u' :: a :: b :: c :: d :: t) =
      match hexPoint a b c d with
      | none => .error ⟨.unicodeEscape, .ofChar 'u' :: a :: b :: c :: d :: t⟩
      | some point =>
        match pairAt point t with
        | .error e => .error e
        | .ok (some (joined, rest)) => push (pointOf joined) (scanString start rest)
        | .ok none => push (pointOf point) (scanString start t) := by
  have quote : CodePoint.ofChar '\\' ≠ .ofChar '"' := by decide
  rw [scanString.eq_def]
  simp only [if_neg quote, if_true]
  cases t with
  | nil => exact absurd rfl longer
  | cons next rest =>
    cases hex : hexPoint a b c d with
    | none => simp only [hex]
    | some point =>
      rcases rest with _ | ⟨u, _ | ⟨l₁, _ | ⟨l₂, _ | ⟨l₃, _ | ⟨l₄, _ | ⟨after, rest⟩⟩⟩⟩⟩⟩
      iterate 6
        simp only [hex, pairAt]
      next =>
        simp only [hex, pairAt]
        cases surrogatePair point next u l₁ l₂ l₃ l₄ (after :: rest) with
        | error e => rfl
        | ok joined =>
          cases joined with
          | none => rfl
          | some joined => rfl

theorem scanString_bad {e : CodePoint} {t : Text} (other : e ≠ .ofChar 'u')
    (none : simpleEscape e = none) :
    scanString start (.ofChar '\\' :: e :: t) = .error ⟨.escape, .ofChar '\\' :: e :: t⟩ := by
  have quote : CodePoint.ofChar '\\' ≠ .ofChar '"' := by decide
  rw [scanString.eq_def]
  simp only [if_neg quote, if_true, if_neg other, none]

theorem scanString_control {c : CodePoint} {t : Text} (quote : c ≠ .ofChar '"')
    (backslash : c ≠ .ofChar '\\') (control : c.val ≤ 0x1F) :
    scanString start (c :: t) = .error ⟨.controlCharacter, c :: t⟩ := by
  rw [scanString.eq_def]
  simp only [if_neg quote, if_neg backslash, if_pos control]

end Steps

theorem push_ok {c : CodePoint} {scanned : Except DecodeError (Text × Text)} {x r : Text}
    (pushed : push c scanned = .ok (x, r)) : ∃ x', x = c :: x' ∧ scanned = .ok (x', r) := by
  cases scanned with
  | ok scanned =>
    cases pushed
    exact ⟨scanned.1, rfl, rfl⟩
  | error e => cases pushed

theorem push_error {c : CodePoint} {scanned : Except DecodeError (Text × Text)} {e : DecodeError} :
    push c scanned = .error e ↔ scanned = .error e := by
  cases scanned with
  | ok scanned => exact iff_of_false (fun failed => by cases failed) fun failed => by cases failed
  | error e' => exact Iff.rfl

theorem surrogatePair_ok {point : Nat} {next u a b c d : CodePoint} {rest : Text} {joined : Nat}
    (pair : surrogatePair point next u a b c d rest = .ok (some joined)) :
    next = .ofChar '\\' ∧ u = .ofChar 'u' ∧ ∃ low, hexPoint a b c d = some low := by
  unfold surrogatePair at pair
  split at pair
  · rename_i escape
    simp only [Bool.and_eq_true, decide_eq_true_eq] at escape
    split at pair
    · cases pair
    · rename_i low hex
      exact ⟨escape.1.2, escape.2, low, hex⟩
  · cases pair

theorem surrogatePair_error {point : Nat} {next u a b c d : CodePoint} {rest : Text}
    {e : DecodeError} (pair : surrogatePair point next u a b c d rest = .error e) :
    next = .ofChar '\\' ∧ u = .ofChar 'u' ∧ hexPoint a b c d = none ∧
      e = ⟨.unicodeEscape, u :: a :: b :: c :: d :: rest⟩ := by
  unfold surrogatePair at pair
  split at pair
  · rename_i escape
    simp only [Bool.and_eq_true, decide_eq_true_eq] at escape
    split at pair
    · rename_i hex
      cases pair
      exact ⟨escape.1.2, escape.2, hex, rfl⟩
    · cases pair
  · cases pair

/-- A pair has a second escape, and more text after it. -/
theorem pairAt_some {point joined : Nat} {t rest : Text}
    (pair : pairAt point t = .ok (some (joined, rest))) : rest ≠ [] ∧ ∃ a b c d low,
      t = .ofChar '\\' :: .ofChar 'u' :: a :: b :: c :: d :: rest ∧ hexPoint a b c d = some low := by
  unfold pairAt at pair
  split at pair
  · rename_i next u a b c d after rest'
    split at pair
    · cases pair
    · rename_i joined' found
      cases pair
      obtain ⟨rfl, rfl, low, hex⟩ := surrogatePair_ok found
      exact ⟨by simp, a, b, c, d, low, rfl, hex⟩
    · cases pair
  · cases pair

theorem pairAt_error {point : Nat} {t : Text} {e : DecodeError}
    (pair : pairAt point t = .error e) : ∃ a b c d rest, rest ≠ [] ∧
      t = .ofChar '\\' :: .ofChar 'u' :: a :: b :: c :: d :: rest ∧ hexPoint a b c d = none ∧
      e = ⟨.unicodeEscape, .ofChar 'u' :: a :: b :: c :: d :: rest⟩ := by
  unfold pairAt at pair
  split at pair
  · rename_i next u a b c d after rest
    split at pair
    · rename_i e' found
      cases pair
      obtain ⟨rfl, rfl, hex, rfl⟩ := surrogatePair_error found
      exact ⟨a, b, c, d, after :: rest, by simp, rfl, hex, rfl⟩
    · cases pair
    · cases pair
  · cases pair

/-! ## The scanner and the grammar -/

theorem scanString_sound {start t x r : Text} (scanned : scanString start t = .ok (x, r)) :
    StringBody t r := by
  -- The induction is on the length: a pair takes two escapes at once.
  induction size : t.length using Nat.strongRecOn generalizing t x with
  | ind n ih =>
    have shorter : ∀ {t' x' : Text}, t'.length < n → scanString start t' = .ok (x', r) →
        StringBody t' r := fun less scanned => ih _ less scanned rfl
    cases stringView t with
    | nil | backslash => cases scanned
    | quote r =>
      rw [scanString_quote] at scanned
      cases scanned
      exact .close
    | short t short =>
      rw [scanString_short short] at scanned
      cases scanned
    | unicode a b c d t longer =>
      rw [scanString_unicode longer] at scanned
      simp only [List.length_cons] at size
      cases hex : hexPoint a b c d with
      | none =>
        rw [hex] at scanned
        cases scanned
      | some point =>
        cases pair : pairAt point t with
        | error e =>
          simp only [hex, pair] at scanned
          cases scanned
        | ok joined =>
          simp only [hex, pair] at scanned
          cases joined with
          | none =>
            obtain ⟨x', -, scanned⟩ := push_ok scanned
            exact .unicode hex (shorter (by omega) scanned)
          | some joined =>
            obtain ⟨joined, rest⟩ := joined
            obtain ⟨-, a', b', c', d', low, rfl, hex'⟩ := pairAt_some pair
            obtain ⟨x', -, scanned⟩ := push_ok scanned
            simp only [List.length_cons] at size
            exact .unicode hex (.unicode hex' (shorter (by omega) scanned))
    | escape e t other =>
      simp only [List.length_cons] at size
      cases escaped : simpleEscape e with
      | none =>
        rw [scanString_bad other escaped] at scanned
        cases scanned
      | some point =>
        rw [scanString_escape escaped] at scanned
        obtain ⟨x', -, scanned⟩ := push_ok scanned
        exact .escape escaped (shorter (by omega) scanned)
    | other c t quote backslash =>
      simp only [List.length_cons] at size
      by_cases control : c.val ≤ 0x1F
      · rw [scanString_control quote backslash control] at scanned
        cases scanned
      · rw [scanString_plain quote backslash control] at scanned
        obtain ⟨x', -, scanned⟩ := push_ok scanned
        exact .plain quote backslash control (shorter (by omega) scanned)

/-- The parts of a string whose second step is an escape. -/
theorem StringBody.of_unicode {a b c d : CodePoint} {t r : Text}
    (body : StringBody (.ofChar '\\' :: .ofChar 'u' :: a :: b :: c :: d :: t) r) :
    (∃ point, hexPoint a b c d = some point) ∧ StringBody t r := by
  cases body with
  | plain _ backslash _ _ => exact absurd rfl backslash
  | escape escaped _ =>
    rw [simpleEscape_u] at escaped
    cases escaped
  | unicode hex body => exact ⟨⟨_, hex⟩, body⟩

theorem scanString_complete {start t r : Text} (body : StringBody t r) :
    ∃ x, scanString start t = .ok (x, r) := by
  induction size : t.length using Nat.strongRecOn generalizing t with
  | ind n ih =>
    have shorter : ∀ {t' : Text}, t'.length < n → StringBody t' r →
        ∃ x, scanString start t' = .ok (x, r) := fun less body => ih _ less body rfl
    cases body with
    | close => exact ⟨[], scanString_quote⟩
    | plain quote backslash control body =>
      simp only [List.length_cons] at size
      obtain ⟨x, scanned⟩ := shorter (by omega) body
      exact ⟨_, by rw [scanString_plain quote backslash control, scanned]; rfl⟩
    | escape escaped body =>
      simp only [List.length_cons] at size
      obtain ⟨x, scanned⟩ := shorter (by omega) body
      exact ⟨_, by rw [scanString_escape escaped, scanned]; rfl⟩
    | @unicode a b c d point t r hex body =>
      simp only [List.length_cons] at size
      rw [scanString_unicode body.ne_nil]
      cases pair : pairAt point t with
      | error e =>
        obtain ⟨a', b', c', d', rest, -, rfl, none, -⟩ := pairAt_error pair
        obtain ⟨⟨_, hex'⟩, -⟩ := body.of_unicode
        rw [none] at hex'
        cases hex'
      | ok joined =>
        simp only [hex, pair]
        cases joined with
        | none =>
          obtain ⟨x, scanned⟩ := shorter (by omega) body
          rw [scanned]
          exact ⟨_, rfl⟩
        | some joined =>
          obtain ⟨joined, rest⟩ := joined
          obtain ⟨-, a', b', c', d', low, rfl, -⟩ := pairAt_some pair
          simp only [List.length_cons] at size
          obtain ⟨x, scanned⟩ := shorter (by omega) body.of_unicode.2
          dsimp only
          rw [scanned]
          exact ⟨_, rfl⟩

/-! ## The beginning of a string -/

/-- The end of the text cuts the string: in an escape `\uXXXX`, whose digits `hex`
may be complete, or anywhere else. -/
def CutString (e : DecodeError) : Prop :=
  e.message = .unterminated ∨ e.message = .unicodeEscape ∧
    ∃ hex, e.suffix = .ofChar 'u' :: hex ∧ hex.length ≤ 4 ∧ ∀ c ∈ hex, (hexDigit c).isSome

theorem hexPoint_digits {a b c d : CodePoint} {point : Nat} (hex : hexPoint a b c d = some point) :
    ∀ e ∈ [a, b, c, d], (hexDigit e).isSome := by
  unfold hexPoint at hex
  cases digit₁ : hexDigit a with
  | none => simp [digit₁] at hex
  | some _ =>
    cases digit₂ : hexDigit b with
    | none => simp [digit₁, digit₂] at hex
    | some _ =>
      cases digit₃ : hexDigit c with
      | none => simp [digit₁, digit₂, digit₃] at hex
      | some _ =>
        cases digit₄ : hexDigit d with
        | none => simp [digit₁, digit₂, digit₃, digit₄] at hex
        | some _ => simp [digit₁, digit₂, digit₃, digit₄]

theorem hexPoint_of_digits {a b c d : CodePoint} (digits : ∀ e ∈ [a, b, c, d], (hexDigit e).isSome) :
    ∃ point, hexPoint a b c d = some point := by
  simp only [List.forall_mem_cons, Option.isSome_iff_exists] at digits
  obtain ⟨⟨_, digit₁⟩, ⟨_, digit₂⟩, ⟨_, digit₃⟩, ⟨_, digit₄⟩, -⟩ := digits
  exact ⟨_, by simp only [hexPoint, digit₁, digit₂, digit₃, digit₄]; rfl⟩

/-- The beginning of an escape. -/
theorem cutString_escape {start t : Text} {a b c d : CodePoint} {point : Nat}
    (hex : hexPoint a b c d = some point) (nonempty : t ≠ [])
    (before : t <+: .ofChar '\\' :: .ofChar 'u' :: [a, b, c, d]) :
    ∃ e, scanString start t = .error e ∧ CutString e := by
  match t with
  | [c₁] =>
    obtain ⟨same, -⟩ := List.cons_prefix_cons.mp before
    rw [same]
    exact ⟨_, rfl, .inl rfl⟩
  | c₁ :: c₂ :: t =>
    obtain ⟨same, before⟩ := List.cons_prefix_cons.mp before
    obtain ⟨same', before⟩ := List.cons_prefix_cons.mp before
    have short : t.length ≤ 4 := before.length_le
    rw [same, same', scanString_short short]
    refine ⟨_, rfl, .inr ⟨rfl, t, rfl, short, fun e member => ?_⟩⟩
    exact hexPoint_digits hex e (before.subset member)

/-- A second escape seen in a text that goes on is the same one. -/
theorem pairAt_append {point : Nat} {t : Text} (s : Text) {joined : Option (Nat × Text)}
    (pair : pairAt point (t ++ s) = .ok joined) (longer : 7 ≤ t.length) :
    ∃ joined', pairAt point t = .ok joined' ∧
      joined = joined'.map fun pair => (pair.1, pair.2 ++ s) := by
  match t with
  | next :: u :: a :: b :: c :: d :: after :: t =>
    simp only [List.cons_append, pairAt, surrogatePair] at pair ⊢
    by_cases escape : isHighSurrogate point && next = .ofChar '\\' && u = .ofChar 'u'
    · simp only [if_pos escape] at pair ⊢
      cases hex : hexPoint a b c d with
      | none =>
        simp only [hex] at pair
        cases pair
      | some low =>
        simp only [hex] at pair ⊢
        cases second : isLowSurrogate low with
        | true =>
          simp only [second, if_true] at pair ⊢
          cases pair
          exact ⟨_, rfl, rfl⟩
        | false =>
          simp only [second] at pair ⊢
          cases pair
          exact ⟨_, rfl, rfl⟩
    · simp only [if_neg escape] at pair ⊢
      cases pair
      exact ⟨_, rfl, rfl⟩

theorem pairAt_short {point : Nat} {t : Text} (short : t.length ≤ 6) : pairAt point t = .ok none := by
  match t with
  | [] | [_] | [_, _] | [_, _, _] | [_, _, _, _] | [_, _, _, _, _] | [_, _, _, _, _, _] => rfl

theorem exists_four {t : Text} (longer : ¬ t.length ≤ 4) :
    ∃ a b c d rest, t = a :: b :: c :: d :: rest ∧ rest ≠ [] := by
  match t with
  | [] | [_] | [_, _] | [_, _, _] | [_, _, _, _] => exact absurd (by simp) longer
  | a :: b :: c :: d :: next :: rest => exact ⟨a, b, c, d, next :: rest, rfl, by simp⟩

/-- A string of `t ++ s` on `t` alone: it is there, or the end of `t` cuts it. -/
theorem scanString_cut {start start' t s x r : Text}
    (scanned : scanString start (t ++ s) = .ok (x, r)) :
    (∃ r', scanString start' t = .ok (x, r') ∧ r = r' ++ s) ∨
      ∃ e, scanString start' t = .error e ∧ CutString e := by
  induction size : t.length using Nat.strongRecOn generalizing t x with
  | ind n ih =>
    have shorter : ∀ {t' x' : Text} (c : CodePoint), t'.length < n →
        scanString start (t' ++ s) = .ok (x', r) →
        (∃ r', push c (scanString start' t') = .ok (c :: x', r') ∧ r = r' ++ s) ∨
          ∃ e, push c (scanString start' t') = .error e ∧ CutString e := by
      intro t' x' c less scanned
      rcases ih _ less scanned rfl with ⟨r', scanned', rest⟩ | ⟨e, failed, cut⟩
      · exact .inl ⟨r', by rw [scanned']; rfl, rest⟩
      · exact .inr ⟨e, by rw [failed]; rfl, cut⟩
    cases stringView t with
    | nil | backslash => exact .inr ⟨_, rfl, .inl rfl⟩
    | quote t =>
      rw [List.cons_append, scanString_quote] at scanned
      cases scanned
      exact .inl ⟨t, scanString_quote, rfl⟩
    | short t short =>
      -- The escape is complete in `t ++ s`, so what `t` has of it are digits.
      simp only [List.cons_append] at scanned
      by_cases short' : (t ++ s).length ≤ 4
      · rw [scanString_short short'] at scanned
        cases scanned
      · obtain ⟨a, b, c, d, rest, whole, nonempty⟩ := exists_four short'
        rw [whole, scanString_unicode nonempty] at scanned
        cases hex : hexPoint a b c d with
        | none =>
          simp only [hex] at scanned
          cases scanned
        | some point =>
          have before : t <+: [a, b, c, d] := by
            refine List.prefix_of_prefix_length_le (List.prefix_append t s) ?_ short
            rw [whole]
            exact ⟨rest, rfl⟩
          refine .inr (cutString_escape hex (by simp) ?_)
          exact List.cons_prefix_cons.mpr ⟨rfl, List.cons_prefix_cons.mpr ⟨rfl, before⟩⟩
    | unicode a b c d t longer =>
      have longer' : t ++ s ≠ [] := by simp [longer]
      simp only [List.cons_append] at scanned
      rw [scanString_unicode longer'] at scanned
      rw [scanString_unicode longer]
      simp only [List.length_cons] at size
      cases hex : hexPoint a b c d with
      | none =>
        simp only [hex] at scanned
        cases scanned
      | some point =>
        simp only [hex] at scanned ⊢
        cases pair : pairAt point (t ++ s) with
        | error e =>
          simp only [pair] at scanned
          cases scanned
        | ok joined =>
          simp only [pair] at scanned
          by_cases visible : 7 ≤ t.length
          · obtain ⟨joined', pair', rfl⟩ := pairAt_append s pair visible
            simp only [pair']
            cases joined' with
            | none =>
              obtain ⟨x', rfl, inner⟩ := push_ok scanned
              exact shorter _ (by omega) inner
            | some joined' =>
              obtain ⟨joined, rest⟩ := joined'
              obtain ⟨-, a', b', c', d', low, rfl, -⟩ := pairAt_some pair'
              obtain ⟨x', rfl, inner⟩ := push_ok scanned
              simp only [List.length_cons] at size
              exact shorter _ (by omega) inner
          · rw [pairAt_short (by omega)]
            cases joined with
            | none =>
              obtain ⟨x', rfl, inner⟩ := push_ok scanned
              exact shorter _ (by omega) inner
            | some joined =>
              obtain ⟨joined, rest⟩ := joined
              obtain ⟨-, a', b', c', d', low, whole, hex'⟩ := pairAt_some pair
              have before : t <+: .ofChar '\\' :: .ofChar 'u' :: [a', b', c', d'] := by
                refine List.prefix_of_prefix_length_le (List.prefix_append t s) ?_ (by simp; omega)
                rw [whole]
                exact ⟨rest, rfl⟩
              have cuts : ∃ e, scanString start' t = .error e ∧ CutString e :=
                cutString_escape hex' longer before
              obtain ⟨e, failed, cut⟩ := cuts
              exact .inr ⟨e, push_error.mpr failed, cut⟩
    | escape e t other =>
      simp only [List.length_cons, List.cons_append] at size scanned
      cases escaped : simpleEscape e with
      | none =>
        rw [scanString_bad other escaped] at scanned
        cases scanned
      | some point =>
        rw [scanString_escape escaped] at scanned ⊢
        obtain ⟨x', rfl, inner⟩ := push_ok scanned
        exact shorter _ (by omega) inner
    | other c t quote backslash =>
      simp only [List.length_cons, List.cons_append] at size scanned
      by_cases control : c.val ≤ 0x1F
      · rw [scanString_control quote backslash control] at scanned
        cases scanned
      · rw [scanString_plain quote backslash control] at scanned ⊢
        obtain ⟨x', rfl, inner⟩ := push_ok scanned
        exact shorter _ (by omega) inner

/-- An escape with text after it is not cut. -/
theorem not_cutString {a b c d : CodePoint} {t : Text} (longer : t ≠ []) :
    ¬ CutString ⟨.unicodeEscape, .ofChar 'u' :: a :: b :: c :: d :: t⟩ := by
  rintro (impossible | ⟨-, hex, eq, short, -⟩)
  · cases impossible
  · cases eq
    cases t with
    | nil => exact longer rfl
    | cons next t =>
      simp only [List.length_cons] at short
      omega

/-- Digits that zeros complete to four. -/
theorem exists_padded {t : Text} (short : t.length ≤ 4) (digits : ∀ c ∈ t, (hexDigit c).isSome) :
    ∃ a b c d s, t ++ s = [a, b, c, d] ∧ ∀ e ∈ [a, b, c, d], (hexDigit e).isSome := by
  let zeros : Text := List.replicate (4 - t.length) (.ofChar '0')
  have four : (t ++ zeros).length = 4 := by
    rw [List.length_append, List.length_replicate]
    omega
  have all : ∀ e ∈ t ++ zeros, (hexDigit e).isSome := by
    intro e member
    rcases List.mem_append.mp member with member | member
    · exact digits e member
    · rw [List.eq_of_mem_replicate member]
      decide
  match whole : t ++ zeros, four with
  | [a, b, c, d], _ => exact ⟨a, b, c, d, zeros, whole, whole ▸ all⟩

/-- A text that the end cuts in a string can be continued to the end of it. -/
theorem scanString_resume {start t : Text} {e : DecodeError} (failed : scanString start t = .error e)
    (cut : CutString e) : ∃ s, StringBody (t ++ s) [] := by
  induction size : t.length using Nat.strongRecOn generalizing t with
  | ind n ih =>
    have shorter : ∀ {t' : Text}, t'.length < n → scanString start t' = .error e →
        ∃ s, StringBody (t' ++ s) [] := fun less failed => ih _ less failed rfl
    have closed : StringBody [.ofChar '"'] [] := .close
    cases stringView t with
    | nil => exact ⟨_, closed⟩
    | backslash =>
      have escaped : simpleEscape (.ofChar '"') = some (.ofChar '"') := by decide
      exact ⟨[.ofChar '"', .ofChar '"'], .escape escaped closed⟩
    | quote t =>
      rw [scanString_quote] at failed
      cases failed
    | short t short =>
      rw [scanString_short short] at failed
      cases failed
      rcases cut with impossible | ⟨-, hex, eq, -, digits⟩
      · cases impossible
      · cases eq
        obtain ⟨a, b, c, d, s, eq, all⟩ := exists_padded short digits
        obtain ⟨point, hex⟩ := hexPoint_of_digits all
        refine ⟨s ++ [.ofChar '"'], ?_⟩
        rw [List.cons_append, List.cons_append, ← List.append_assoc, eq]
        exact .unicode hex closed
    | unicode a b c d t longer =>
      rw [scanString_unicode longer] at failed
      simp only [List.length_cons] at size
      cases hex : hexPoint a b c d with
      | none =>
        simp only [hex] at failed
        cases failed
        exact absurd cut (not_cutString longer)
      | some point =>
        simp only [hex] at failed
        cases pair : pairAt point t with
        | error e' =>
          simp only [pair] at failed
          cases failed
          obtain ⟨a', b', c', d', rest, longer', -, -, rfl⟩ := pairAt_error pair
          exact absurd cut (not_cutString longer')
        | ok joined =>
          simp only [pair] at failed
          cases joined with
          | none =>
            obtain ⟨s, body⟩ := shorter (by omega) (push_error.mp failed)
            exact ⟨s, .unicode hex body⟩
          | some joined =>
            obtain ⟨joined, rest⟩ := joined
            obtain ⟨-, a', b', c', d', low, rfl, hex'⟩ := pairAt_some pair
            simp only [List.length_cons] at size
            obtain ⟨s, body⟩ := shorter (by omega) (push_error.mp failed)
            exact ⟨s, .unicode hex (.unicode hex' body)⟩
    | escape e' t other =>
      simp only [List.length_cons] at size
      cases escaped : simpleEscape e' with
      | none =>
        rw [scanString_bad other escaped] at failed
        cases failed
        rcases cut with impossible | ⟨impossible, -⟩
        · cases impossible
        · cases impossible
      | some point =>
        rw [scanString_escape escaped] at failed
        obtain ⟨s, body⟩ := shorter (by omega) (push_error.mp failed)
        exact ⟨s, .escape escaped body⟩
    | other c t quote backslash =>
      simp only [List.length_cons] at size
      by_cases control : c.val ≤ 0x1F
      · rw [scanString_control quote backslash control] at failed
        cases failed
        rcases cut with impossible | ⟨impossible, -⟩
        · cases impossible
        · cases impossible
      · rw [scanString_plain quote backslash control] at failed
        obtain ⟨s, body⟩ := shorter (by omega) (push_error.mp failed)
        exact ⟨s, .plain quote backslash control body⟩

end DataBridge.Json
