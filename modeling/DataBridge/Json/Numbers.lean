import DataBridge.Json.Scanner
import Mathlib.Data.List.TakeWhile

/-!
# Numbers of JSON

`IsNumber` is the grammar of a number. `matchNumber` reads one
(`matchNumber_sound`), reads all of it when no character of a number follows
(`matchNumber_complete`), and on the beginning of a text it reads the same number,
or stops within the number that the whole text has (`matchNumber_cut`).
-/

namespace DataBridge.Json

/-! ## The grammar -/

def AllDigits (x : Text) : Prop := ∀ c ∈ x, isDigit c = true

def IsSign (x : Text) : Prop := x = [] ∨ x = [.ofChar '-']

def IsInteger (x : Text) : Prop :=
  x = [.ofChar '0'] ∨ ∃ d ds, x = d :: ds ∧ d ≠ .ofChar '0' ∧ AllDigits (d :: ds)

def IsFraction (x : Text) : Prop :=
  x = [] ∨ ∃ d ds, x = .ofChar '.' :: d :: ds ∧ AllDigits (d :: ds)

def IsExponent (x : Text) : Prop :=
  x = [] ∨ ∃ e sign d ds, x = e :: sign ++ d :: ds ∧ (e = .ofChar 'e' ∨ e = .ofChar 'E') ∧
    (sign = [] ∨ sign = [.ofChar '+'] ∨ sign = [.ofChar '-']) ∧ AllDigits (d :: ds)

/-- A number of the grammar. -/
def IsNumber (x : Text) : Prop :=
  ∃ sign integer fraction exponent, x = sign ++ integer ++ fraction ++ exponent ∧ IsSign sign ∧
    IsInteger integer ∧ IsFraction fraction ∧ IsExponent exponent

/-- A text that more characters make a number. -/
def BeginsNumber (x : Text) : Prop := ∃ s, IsNumber (x ++ s)

def isNumberChar (c : CodePoint) : Bool :=
  isDigit c || c = .ofChar '-' || c = .ofChar '+' || c = .ofChar '.' || c = .ofChar 'e' ||
    c = .ofChar 'E'

/-- What is left of a number that ends before the digits of its fraction or exponent. -/
def numberTails : List Text :=
  [[], lit ".", lit "e", lit "E", lit "e+", lit "e-", lit "E+", lit "E-"]

theorem isNumberChar_of_isDigit {c : CodePoint} (digit : isDigit c = true) :
    isNumberChar c = true := by
  simp [isNumberChar, digit]

theorem AllDigits.numberChars {x : Text} (digits : AllDigits x) {c : CodePoint} (member : c ∈ x) :
    isNumberChar c = true := isNumberChar_of_isDigit (digits c member)

theorem IsInteger.numberChars {x : Text} (integer : IsInteger x) {c : CodePoint} (member : c ∈ x) :
    isNumberChar c = true := by
  rcases integer with rfl | ⟨d, ds, rfl, -, digits⟩
  · rw [List.mem_singleton.mp member]
    decide
  · exact digits.numberChars member

theorem IsInteger.head {x : Text} (integer : IsInteger x) :
    ∃ d ds, x = d :: ds ∧ isDigit d = true := by
  rcases integer with rfl | ⟨d, ds, rfl, -, digits⟩
  · exact ⟨_, _, rfl, by decide⟩
  · exact ⟨d, ds, rfl, digits d List.mem_cons_self⟩

/-- A number is made of the characters of numbers. -/
theorem IsNumber.numberChars {x : Text} (number : IsNumber x) {c : CodePoint} (member : c ∈ x) :
    isNumberChar c = true := by
  obtain ⟨sign, integer, fraction, exponent, rfl, signed, whole, part, power⟩ := number
  rcases List.mem_append.mp member with member | member
  · rcases List.mem_append.mp member with member | member
    · rcases List.mem_append.mp member with member | member
      · rcases signed with rfl | rfl
        · cases member
        · rw [List.mem_singleton.mp member]
          decide
      · exact whole.numberChars member
    · rcases part with rfl | ⟨d, ds, rfl, digits⟩
      · cases member
      · rcases List.mem_cons.mp member with rfl | member
        · decide
        · exact digits.numberChars member
  · rcases power with rfl | ⟨e, sign, d, ds, rfl, letter, signed, digits⟩
    · cases member
    · rcases List.mem_append.mp member with member | member
      · rcases List.mem_cons.mp member with rfl | member
        · rcases letter with rfl | rfl
          · decide
          · decide
        · rcases signed with rfl | rfl | rfl
          · cases member
          · rw [List.mem_singleton.mp member]
            decide
          · rw [List.mem_singleton.mp member]
            decide
      · exact digits.numberChars member

/-- A number begins with a digit or a minus sign. -/
theorem IsNumber.head {x : Text} (number : IsNumber x) :
    ∃ c rest, x = c :: rest ∧ (isDigit c = true ∨ c = .ofChar '-') := by
  obtain ⟨sign, integer, fraction, exponent, rfl, signed, whole, -, -⟩ := number
  rcases signed with rfl | rfl
  · obtain ⟨d, ds, rfl, digit⟩ := whole.head
    exact ⟨d, ds ++ fraction ++ exponent, rfl, .inl digit⟩
  · exact ⟨_, integer ++ fraction ++ exponent, by simp, .inr rfl⟩

/-! ## Runs of one kind of character -/

section Runs

variable {α : Type} {p : α → Bool}

/-- A run within `q ++ s` ends in `q`, or `q` is part of it. -/
theorem run_cut (p : α → Bool) (q s : List α) : (∀ c ∈ q, p c = true) ∨
    ∃ c rest, q.dropWhile p = c :: rest ∧ p c = false ∧
      (q ++ s).takeWhile p = q.takeWhile p ∧ (q ++ s).dropWhile p = c :: rest ++ s := by
  induction q with
  | nil => exact .inl fun c none => by cases none
  | cons d q ih =>
    by_cases more : p d = true
    · rcases ih with all | ⟨c, rest, left, stop, taken, dropped⟩
      · refine .inl fun c member => ?_
        rcases List.mem_cons.mp member with rfl | member
        · exact more
        · exact all c member
      · refine .inr ⟨c, rest, ?_, stop, ?_, ?_⟩
        · rw [List.dropWhile_cons_of_pos more, left]
        · rw [List.cons_append, List.takeWhile_cons_of_pos more, List.takeWhile_cons_of_pos more,
            taken]
        · rw [List.cons_append, List.dropWhile_cons_of_pos more, dropped]
    · refine .inr ⟨d, q, ?_, by simpa using more, ?_, ?_⟩
      · rw [List.dropWhile_cons_of_neg more]
      · rw [List.cons_append, List.takeWhile_cons_of_neg more, List.takeWhile_cons_of_neg more]
      · rw [List.cons_append, List.dropWhile_cons_of_neg more]

/-- A run that stops where `r` begins. -/
theorem run_stops {q r : List α} (all : ∀ c ∈ q, p c = true) (stop : ∀ c ∈ r.head?, p c = false) :
    (q ++ r).takeWhile p = q ∧ (q ++ r).dropWhile p = r := by
  rw [List.takeWhile_append_of_pos all, List.dropWhile_append_of_pos all]
  cases r with
  | nil => simp
  | cons c r =>
    have stop := stop c rfl
    simp [stop]

end Runs

theorem takeWhile_digits (x : Text) : AllDigits (x.takeWhile isDigit) := by
  intro c member
  exact List.mem_takeWhile_imp member

/-! ## What `matchNumber` reads -/

theorem matchSign_sound {t x r : Text} (found : matchSign t = (x, r)) : t = x ++ r ∧ IsSign x := by
  cases t with
  | nil =>
    cases found
    exact ⟨rfl, .inl rfl⟩
  | cons c t =>
    simp only [matchSign] at found
    split at found
    · rename_i minus
      cases found
      exact ⟨rfl, .inr (by rw [minus])⟩
    · cases found
      exact ⟨rfl, .inl rfl⟩

theorem matchInteger_sound {t x r : Text} (found : matchInteger t = some (x, r)) :
    t = x ++ r ∧ IsInteger x := by
  cases t with
  | nil => cases found
  | cons c t =>
    simp only [matchInteger] at found
    split at found
    · rename_i zero
      cases found
      exact ⟨rfl, .inl (by rw [zero])⟩
    · rename_i positive
      split at found
      · rename_i digit
        cases found
        refine ⟨by simp, .inr ⟨c, _, rfl, positive, ?_⟩⟩
        intro d member
        rcases List.mem_cons.mp member with rfl | member
        · exact digit
        · exact takeWhile_digits t d member
      · cases found

theorem matchFraction_sound {t x r : Text} (found : matchFraction t = (x, r)) :
    t = x ++ r ∧ IsFraction x := by
  unfold matchFraction at found
  split at found
  · rename_i point digit rest
    split at found
    · rename_i fraction
      obtain ⟨rfl, digit'⟩ := fraction
      cases found
      refine ⟨by simp, .inr ⟨digit, _, rfl, ?_⟩⟩
      intro d member
      rcases List.mem_cons.mp member with rfl | member
      · exact digit'
      · exact takeWhile_digits rest d member
    · cases found
      exact ⟨rfl, .inl rfl⟩
  · cases found
    exact ⟨rfl, .inl rfl⟩

theorem matchExponentSign_sound {t x r : Text} (found : matchExponentSign t = (x, r)) :
    t = x ++ r ∧ (x = [] ∨ x = [.ofChar '+'] ∨ x = [.ofChar '-']) := by
  cases t with
  | nil =>
    cases found
    exact ⟨rfl, .inl rfl⟩
  | cons c t =>
    simp only [matchExponentSign] at found
    split at found
    · rename_i sign
      cases found
      rcases sign with rfl | rfl
      · exact ⟨rfl, .inr (.inl rfl)⟩
      · exact ⟨rfl, .inr (.inr rfl)⟩
    · cases found
      exact ⟨rfl, .inl rfl⟩

theorem matchExponent_sound {t x r : Text} (found : matchExponent t = (x, r)) :
    t = x ++ r ∧ IsExponent x := by
  cases t with
  | nil =>
    cases found
    exact ⟨rfl, .inl rfl⟩
  | cons e t =>
    simp only [matchExponent] at found
    split at found
    · rename_i letter
      cases signed : matchExponentSign t with
      | mk sign digits =>
        obtain ⟨rfl, isSign⟩ := matchExponentSign_sound signed
        rw [signed] at found
        simp only at found
        split at found
        · cases found
          exact ⟨rfl, .inl rfl⟩
        · rename_i d ds taken
          cases found
          refine ⟨?_, .inr ⟨e, sign, d, ds, rfl, letter, isSign, taken ▸ takeWhile_digits digits⟩⟩
          have whole := List.takeWhile_append_dropWhile (p := isDigit) (l := digits)
          rw [taken] at whole
          rw [List.append_assoc, whole]
          rfl
    · cases found
      exact ⟨rfl, .inl rfl⟩

/-- The parts of a match. -/
theorem matchNumber_parts {t : Text} {m : NumberMatch} (found : matchNumber t = some m) :
    ∃ sign integer fraction exponent r₁ r₂ r₃, matchSign t = (sign, r₁) ∧
      matchInteger r₁ = some (integer, r₂) ∧ matchFraction r₂ = (fraction, r₃) ∧
      matchExponent r₃ = (exponent, m.rest) ∧ m.text = sign ++ integer ++ fraction ++ exponent ∧
      m.isFloat = decide (fraction ≠ [] ∨ exponent ≠ []) := by
  unfold matchNumber at found
  cases signed : matchSign t with
  | mk sign r₁ =>
    rw [signed] at found
    simp only [Option.bind_eq_bind] at found
    cases whole : matchInteger r₁ with
    | none =>
      rw [whole] at found
      cases found
    | some integer =>
      rw [whole] at found
      cases found
      exact ⟨sign, integer.1, _, _, r₁, integer.2, _, rfl, whole, rfl, rfl, rfl, rfl⟩

/-- What is read is a number at the head of the text. -/
theorem matchNumber_sound {t : Text} {m : NumberMatch} (found : matchNumber t = some m) :
    t = m.text ++ m.rest ∧ IsNumber m.text := by
  obtain ⟨sign, integer, fraction, exponent, r₁, r₂, r₃, signed, whole, part, power, text, -⟩ :=
    matchNumber_parts found
  obtain ⟨rfl, isSign⟩ := matchSign_sound signed
  obtain ⟨rfl, isInteger⟩ := matchInteger_sound whole
  obtain ⟨rfl, isFraction⟩ := matchFraction_sound part
  obtain ⟨eq, isExponent⟩ := matchExponent_sound power
  rw [eq, text]
  exact ⟨by simp, sign, integer, fraction, exponent, rfl, isSign, isInteger, isFraction, isExponent⟩

/-! ## Reading all of a number -/

section Complete

variable {r : Text}

theorem not_isDigit_of_not_isNumberChar {c : CodePoint} (stop : isNumberChar c = false) :
    isDigit c = false ∧ c ≠ .ofChar '.' ∧ c ≠ .ofChar 'e' ∧ c ≠ .ofChar 'E' := by
  simp only [isNumberChar, Bool.or_eq_false_iff, decide_eq_false_iff_not] at stop
  obtain ⟨⟨⟨⟨⟨digit, -⟩, -⟩, point⟩, small⟩, capital⟩ := stop
  exact ⟨digit, point, small, capital⟩

theorem matchSign_complete {x : Text} (signed : IsSign x) (next : ∃ c t, r = c :: t ∧ isDigit c = true) :
    matchSign (x ++ r) = (x, r) := by
  rcases signed with rfl | rfl
  · obtain ⟨c, t, rfl, digit⟩ := next
    have other : c ≠ .ofChar '-' := by
      rintro rfl
      revert digit
      decide
    simp only [List.nil_append, matchSign, if_neg other]
  · simp only [List.cons_append, List.nil_append, matchSign, if_pos]

theorem matchInteger_complete {x : Text} (whole : IsInteger x)
    (stop : ∀ c ∈ r.head?, isDigit c = false) : matchInteger (x ++ r) = some (x, r) := by
  rcases whole with rfl | ⟨d, ds, rfl, positive, digits⟩
  · simp only [List.cons_append, List.nil_append, matchInteger, if_pos]
  · have digit := digits d List.mem_cons_self
    have others : ∀ c ∈ ds, isDigit c = true := fun c member => digits c (List.mem_cons_of_mem d member)
    obtain ⟨taken, dropped⟩ := run_stops others stop
    simp only [List.cons_append, matchInteger, if_neg positive, if_pos digit, taken, dropped]

theorem matchFraction_complete {x : Text} (part : IsFraction x)
    (stop : ∀ c ∈ r.head?, isDigit c = false ∧ c ≠ .ofChar '.') :
    matchFraction (x ++ r) = (x, r) := by
  rcases part with rfl | ⟨d, ds, rfl, digits⟩
  · match r with
    | [] => rfl
    | [c] => rfl
    | c :: d :: r =>
      have other := (stop c rfl).2
      simp only [List.nil_append, matchFraction, other, false_and, if_false]
  · have digit := digits d List.mem_cons_self
    have others : ∀ c ∈ ds, isDigit c = true := fun c member => digits c (List.mem_cons_of_mem d member)
    obtain ⟨taken, dropped⟩ := run_stops others fun c head => (stop c head).1
    simp only [List.cons_append, matchFraction, digit, and_self, if_true, taken, dropped]

theorem matchExponentSign_complete {x : Text} (signed : x = [] ∨ x = [.ofChar '+'] ∨ x = [.ofChar '-'])
    (next : ∃ c t, r = c :: t ∧ isDigit c = true) : matchExponentSign (x ++ r) = (x, r) := by
  rcases signed with rfl | rfl | rfl
  · obtain ⟨c, t, rfl, digit⟩ := next
    have other : ¬ (c = .ofChar '+' ∨ c = .ofChar '-') := by
      rintro (rfl | rfl)
      · revert digit
        decide
      · revert digit
        decide
    simp only [List.nil_append, matchExponentSign, if_neg other]
  · simp only [List.cons_append, List.nil_append, matchExponentSign, true_or, if_true]
  · simp only [List.cons_append, List.nil_append, matchExponentSign, or_true, if_true]

theorem matchExponent_complete {x : Text} (power : IsExponent x)
    (stop : ∀ c ∈ r.head?, isDigit c = false ∧ c ≠ .ofChar 'e' ∧ c ≠ .ofChar 'E') :
    matchExponent (x ++ r) = (x, r) := by
  rcases power with rfl | ⟨e, sign, d, ds, rfl, letter, signed, digits⟩
  · cases r with
    | nil => rfl
    | cons c r =>
      obtain ⟨-, small, capital⟩ := stop c rfl
      have other : ¬ (c = .ofChar 'e' ∨ c = .ofChar 'E') := by
        rintro (same | same)
        · exact small same
        · exact capital same
      simp only [List.nil_append, matchExponent, if_neg other]
  · have digit := digits d List.mem_cons_self
    have read := matchExponentSign_complete (r := d :: ds ++ r) signed ⟨d, ds ++ r, rfl, digit⟩
    obtain ⟨taken, dropped⟩ := run_stops digits fun c head => (stop c head).1
    rw [List.append_assoc, List.cons_append]
    simp only [matchExponent, if_pos letter, read, taken, dropped]

/-- All of a number is read when no character of a number follows it. -/
theorem matchNumber_complete {x : Text} (number : IsNumber x)
    (stop : ∀ c ∈ r.head?, isNumberChar c = false) :
    ∃ m, matchNumber (x ++ r) = some m ∧ m.text = x ∧ m.rest = r := by
  obtain ⟨sign, integer, fraction, exponent, rfl, signed, whole, part, power⟩ := number
  have stop₃ : ∀ c ∈ r.head?, isDigit c = false ∧ c ≠ .ofChar 'e' ∧ c ≠ .ofChar 'E' := by
    intro c head
    obtain ⟨digit, -, small, capital⟩ := not_isDigit_of_not_isNumberChar (stop c head)
    exact ⟨digit, small, capital⟩
  have stop₂ : ∀ c ∈ (exponent ++ r).head?, isDigit c = false ∧ c ≠ .ofChar '.' := by
    intro c head
    rcases power with rfl | ⟨e, sign, d, ds, rfl, letter, -, -⟩
    · obtain ⟨digit, point, -⟩ := not_isDigit_of_not_isNumberChar (stop c head)
      exact ⟨digit, point⟩
    · cases head
      rcases letter with rfl | rfl
      · exact ⟨by decide, by decide⟩
      · exact ⟨by decide, by decide⟩
  have stop₁ : ∀ c ∈ (fraction ++ (exponent ++ r)).head?, isDigit c = false := by
    intro c head
    rcases part with rfl | ⟨d, ds, rfl, -⟩
    · exact (stop₂ c head).1
    · cases head
      decide
  obtain ⟨d, ds, rfl, digit⟩ := whole.head
  have read₁ := matchSign_complete (r := d :: ds ++ (fraction ++ (exponent ++ r))) signed
    ⟨d, _, rfl, digit⟩
  have read₂ := matchInteger_complete whole stop₁
  have read₃ := matchFraction_complete part stop₂
  have read₄ := matchExponent_complete power stop₃
  have text : sign ++ d :: ds ++ fraction ++ exponent ++ r =
      sign ++ (d :: ds ++ (fraction ++ (exponent ++ r))) := by simp
  rw [text, matchNumber, read₁]
  simp only [Option.bind_eq_bind, read₂, Option.bind_some, read₃, read₄]
  exact ⟨_, rfl, rfl, rfl⟩

end Complete

/-! ## The beginning of a number -/

/-- A part of a number in `q ++ s`: it ends in `q`, or `q` is the beginning of it,
and then one of `tails` is left of `q`. -/
def CutPart (part : Text → Text × Text) (tails : List Text) (q s : Text) : Prop :=
  (∃ r, r ≠ [] ∧ part q = ((part (q ++ s)).1, r) ∧ (part (q ++ s)).2 = r ++ s) ∨
    q <+: (part (q ++ s)).1 ∧ (part q).2 ∈ tails

theorem matchFraction_cut {q : Text} (nonempty : q ≠ []) (s : Text) :
    CutPart matchFraction [[], lit "."] q s := by
  match q with
  | [c] =>
    cases s with
    | nil => exact .inl ⟨[c], by simp, rfl, rfl⟩
    | cons d s =>
      by_cases fraction : c = .ofChar '.' ∧ isDigit d
      · obtain ⟨rfl, digit⟩ := fraction
        refine .inr ⟨?_, by simp [matchFraction, lit]⟩
        simp [matchFraction, digit]
      · exact .inl ⟨[c], by simp, by simp [matchFraction, fraction], by simp [matchFraction, fraction]⟩
  | c :: d :: q =>
    by_cases fraction : c = .ofChar '.' ∧ isDigit d
    · rcases run_cut isDigit q s with all | ⟨e, rest, left, -, taken, dropped⟩
      · refine .inr ⟨?_, ?_⟩
        · simp [matchFraction, fraction, List.takeWhile_append_of_pos all]
        · simp [matchFraction, fraction, List.dropWhile_eq_nil_iff.mpr all]
      · refine .inl ⟨e :: rest, by simp, ?_, ?_⟩
        · simp [matchFraction, fraction, taken, left]
        · simp [matchFraction, fraction, dropped]
    · exact .inl ⟨c :: d :: q, by simp, by simp [matchFraction, fraction],
        by simp [matchFraction, fraction]⟩

theorem matchExponentSign_append {q : Text} (nonempty : q ≠ []) (s : Text) :
    matchExponentSign (q ++ s) = ((matchExponentSign q).1, (matchExponentSign q).2 ++ s) := by
  cases q with
  | nil => exact absurd rfl nonempty
  | cons c q =>
    simp only [List.cons_append, matchExponentSign]
    split
    · rfl
    · rfl

section Exponent

variable {e d : CodePoint} {q sign digits : Text}

theorem matchExponent_digits (letter : e = .ofChar 'e' ∨ e = .ofChar 'E')
    (signed : matchExponentSign q = (sign, d :: digits)) (digit : isDigit d = true) :
    matchExponent (e :: q) =
      (e :: sign ++ d :: digits.takeWhile isDigit, digits.dropWhile isDigit) := by
  simp only [matchExponent, if_pos letter, signed, List.takeWhile_cons_of_pos digit,
    List.dropWhile_cons_of_pos digit]

theorem matchExponent_none (signed : matchExponentSign q = (sign, digits))
    (stop : ∀ c ∈ digits.head?, isDigit c = false) : matchExponent (e :: q) = ([], e :: q) := by
  have none : digits.takeWhile isDigit = [] := by
    cases digits with
    | nil => rfl
    | cons c digits => simp [stop c rfl]
  simp only [matchExponent, signed, none]
  split
  · rfl
  · rfl

/-- An exponent that ends before its digits. -/
theorem matchExponent_short (letter : e = .ofChar 'e' ∨ e = .ofChar 'E')
    (signed : q = [] ∨ q = [.ofChar '+'] ∨ q = [.ofChar '-']) (s : Text) :
    CutPart matchExponent numberTails (e :: q) s := by
  have stop : matchExponent (e :: q) = ([], e :: q) := by
    have read : matchExponentSign q = (q, []) := by
      rcases signed with rfl | rfl | rfl
      · rfl
      · rfl
      · rfl
    exact matchExponent_none read fun c none => by cases none
  have tail : e :: q ∈ numberTails := by
    rcases letter with rfl | rfl
    · rcases signed with rfl | rfl | rfl
      · decide
      · decide
      · decide
    · rcases signed with rfl | rfl | rfl
      · decide
      · decide
      · decide
  cases found : matchExponent (e :: q ++ s) with
  | mk x r =>
    obtain ⟨whole, power⟩ := matchExponent_sound found
    unfold CutPart
    rw [found, stop]
    rcases power with rfl | ⟨e', sign, d, ds, rfl, -, signed', digits⟩
    · exact .inl ⟨e :: q, by simp, rfl, whole.symm⟩
    · refine .inr ⟨?_, tail⟩
      have digit := digits d List.mem_cons_self
      rw [List.cons_append, List.cons_append, List.cons_append, List.cons.injEq] at whole
      obtain ⟨rfl, whole⟩ := whole
      -- A sign that ends `q` is the sign of the longer exponent.
      have same : q = [] ∨ sign = q := by
        rcases signed with rfl | rfl | rfl
        · exact .inl rfl
        all_goals
          rcases signed' with rfl | rfl | rfl
          · cases whole
            revert digit
            decide
          · first | exact .inr rfl | (injection whole with head; revert head; decide)
          · first | exact .inr rfl | (injection whole with head; revert head; decide)
      rcases same with rfl | rfl
      · exact ⟨sign ++ d :: ds, rfl⟩
      · exact ⟨d :: ds, rfl⟩

end Exponent

theorem matchExponent_cut {q : Text} (nonempty : q ≠ []) (s : Text) :
    CutPart matchExponent numberTails q s := by
  match q with
  | e :: q =>
    by_cases letter : e = .ofChar 'e' ∨ e = .ofChar 'E'
    · cases signed : matchExponentSign q with
      | mk sign digits =>
        obtain ⟨rfl, isSign⟩ := matchExponentSign_sound signed
        cases digits with
        | nil =>
          rw [List.append_nil]
          exact matchExponent_short letter isSign s
        | cons d digits =>
          have longer : matchExponentSign (sign ++ d :: digits ++ s) = (sign, d :: (digits ++ s)) := by
            rw [matchExponentSign_append (by simp) s, signed]
            rfl
          by_cases digit : isDigit d = true
          · have read := matchExponent_digits letter signed digit
            have read' := matchExponent_digits letter longer digit
            unfold CutPart
            rw [List.cons_append, read, read']
            rcases run_cut isDigit digits s with all | ⟨c, rest, left, -, taken, dropped⟩
            · refine .inr ⟨?_, ?_⟩
              · rw [List.takeWhile_append_of_pos all]
                exact ⟨s.takeWhile isDigit, by simp⟩
              · rw [List.dropWhile_eq_nil_iff.mpr all]
                exact List.mem_cons_self
            · refine .inl ⟨c :: rest, by simp, ?_, dropped⟩
              rw [taken, left]
          · have stop : ∀ c ∈ (d :: digits).head?, isDigit c = false := by
              intro c head
              cases head
              simpa using digit
            have stop' : ∀ c ∈ (d :: (digits ++ s)).head?, isDigit c = false := by
              intro c head
              cases head
              simpa using digit
            unfold CutPart
            rw [List.cons_append, matchExponent_none signed stop, matchExponent_none longer stop']
            exact .inl ⟨e :: (sign ++ d :: digits), by simp, rfl, rfl⟩
    · exact .inl ⟨e :: q, by simp, by simp [matchExponent, letter], by simp [matchExponent, letter]⟩

theorem matchSign_append {q : Text} (nonempty : q ≠ []) (s : Text) :
    matchSign (q ++ s) = ((matchSign q).1, (matchSign q).2 ++ s) := by
  cases q with
  | nil => exact absurd rfl nonempty
  | cons c q =>
    simp only [List.cons_append, matchSign]
    split
    · rfl
    · rfl

theorem matchInteger_cut {q s x r : Text} (nonempty : q ≠ [])
    (found : matchInteger (q ++ s) = some (x, r)) :
    (∃ r', r' ≠ [] ∧ matchInteger q = some (x, r') ∧ r = r' ++ s) ∨
      q <+: x ∧ ∃ x', matchInteger q = some (x', []) := by
  match q with
  | c :: q =>
    simp only [List.cons_append, matchInteger] at found ⊢
    split at found
    · rename_i zero
      cases found
      rw [if_pos zero]
      cases q with
      | nil => exact .inr ⟨List.prefix_rfl, [c], rfl⟩
      | cons d q => exact .inl ⟨d :: q, by simp, rfl, rfl⟩
    · rename_i positive
      split at found
      · rename_i digit
        cases found
        rw [if_neg positive, if_pos digit]
        rcases run_cut isDigit q s with all | ⟨d, rest, left, -, taken, dropped⟩
        · refine .inr ⟨?_, _, by rw [List.dropWhile_eq_nil_iff.mpr all]⟩
          rw [List.takeWhile_append_of_pos all]
          exact ⟨s.takeWhile isDigit, rfl⟩
        · exact .inl ⟨d :: rest, by simp, by rw [taken, left], dropped⟩
      · cases found

theorem matchNumber_of_parts {t sign r₁ integer r₂ : Text} (signed : matchSign t = (sign, r₁))
    (whole : matchInteger r₁ = some (integer, r₂)) :
    matchNumber t = some {
      text := sign ++ integer ++ (matchFraction r₂).1 ++ (matchExponent (matchFraction r₂).2).1
      isFloat := (matchFraction r₂).1 ≠ [] ∨ (matchExponent (matchFraction r₂).2).1 ≠ []
      rest := (matchExponent (matchFraction r₂).2).2 } := by
  simp only [matchNumber, signed, Option.bind_eq_bind, whole, Option.bind_some]

/-- What `p ++ s` has as a number, on `p` alone. -/
inductive CutNumber (p s : Text) (m : NumberMatch) : Prop
  /-- The number ends before the end of `p`. -/
  | same (r : Text) : r ≠ [] → matchNumber p = some { m with rest := r } → m.rest = r ++ s →
    CutNumber p s m
  /-- The number goes on after `p`, which is no number yet. -/
  | unread : p <+: m.text → matchNumber p = none → p = [] ∨ p = lit "-" → CutNumber p s m
  /-- `p` ends with a shorter number, and with the beginning of a fraction or an exponent. -/
  | shorter (m' : NumberMatch) : p <+: m.text → matchNumber p = some m' →
    m'.rest ∈ numberTails → CutNumber p s m

theorem matchNumber_cut {p s : Text} {m : NumberMatch} (found : matchNumber (p ++ s) = some m) :
    CutNumber p s m := by
  by_cases empty : p = []
  · subst empty
    exact .unread (List.nil_prefix) rfl (.inl rfl)
  obtain ⟨sign, integer, -, -, r₁, r₂, -, signed, whole, -⟩ := matchNumber_parts found
  have read := matchNumber_of_parts signed whole
  rw [found, Option.some.injEq] at read
  subst read
  rw [matchSign_append empty] at signed
  cases signed' : matchSign p with
  | mk sign' q₁ =>
    obtain ⟨rfl, isSign⟩ := matchSign_sound signed'
    rw [signed'] at signed
    cases signed
    by_cases ends : q₁ = []
    · subst ends
      rw [List.append_nil] at empty signed' ⊢
      refine .unread ⟨integer ++ _ ++ _, by simp; rfl⟩ ?_ ?_
      · simp [matchNumber, signed', matchInteger]
      · exact .inr (isSign.resolve_left empty)
    · rcases matchInteger_cut ends whole with ⟨q₂, nonempty, whole', rfl⟩ | ⟨before, integer', whole'⟩
      · obtain ⟨rfl, -⟩ := matchInteger_sound whole'
        have read := matchNumber_of_parts signed' whole'
        rcases matchFraction_cut nonempty s with ⟨q₃, nonempty₃, part', left⟩ | ⟨before, tail⟩
        · rw [part'] at read
          rw [left]
          rcases matchExponent_cut nonempty₃ s with ⟨q₄, nonempty₄, power', left'⟩ | ⟨before, tail⟩
          · rw [power'] at read
            exact .same q₄ nonempty₄ read left'
          · refine .shorter _ ?_ read tail
            have parts := (matchFraction_sound part').1
            generalize (matchFraction (q₂ ++ s)).1 = fraction at parts ⊢
            obtain ⟨more, eq⟩ := before
            exact ⟨more, by simp [parts, ← eq]⟩
        · refine .shorter _ ?_ read ?_
          · obtain ⟨more, eq⟩ := before
            exact ⟨more ++ _, by simp [← eq]; rfl⟩
          · rcases List.mem_cons.mp tail with none | tail
            · simp only [none]
              decide
            · simp only [List.mem_singleton.mp tail]
              decide
      · have read := matchNumber_of_parts signed' whole'
        refine .shorter _ ?_ read ?_
        · obtain ⟨more, eq⟩ := before
          exact ⟨more ++ _, by simp [← eq]; rfl⟩
        · exact List.mem_cons_self

end DataBridge.Json
