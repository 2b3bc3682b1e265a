import Mathlib.Data.List.Lex
import DataBridge.Calendar
import DataBridge.Models

/-!
# Times as texts

`_now` stores a UTC time as `datetime.isoformat` writes it. SQLite compares such texts
character by character, and the fraction of a second is left out when it is zero: the
offset that stands in its place begins with a plus sign, which sorts before the point. So
the texts are ordered as the times are (`isoformat_lt_iff`).
-/

namespace DataBridge

/-! ## Texts in the order of SQLite -/

/-- Equal texts in front do not decide a comparison. -/
theorem Text.cons_lt_cons (c : CodePoint) (s t : Text) : c :: s < c :: t ↔ s < t := by
  rw [List.cons_lt_cons_iff]
  simp

/-- Texts of one length in front decide a comparison, unless they are equal. -/
theorem Text.append_lt_append {p q : Text} (same : p.length = q.length) (s t : Text) :
    p ++ s < q ++ t ↔ p < q ∨ (p = q ∧ s < t) := by
  induction p generalizing q with
  | nil =>
    obtain rfl : q = [] := List.eq_nil_of_length_eq_zero same.symm
    simp
  | cons c p ih =>
    cases q with
    | nil => cases same
    | cons d q =>
      have shorter : p.length = q.length := Nat.succ.inj same
      rw [List.cons_append, List.cons_append, List.cons_lt_cons_iff, List.cons_lt_cons_iff,
        ih shorter, List.cons.injEq]
      tauto

/-! ## Numbers of a fixed width -/

def digit (n : Nat) : CodePoint := .ofNat _ (0x30 + n % 10)

/-- `f"{n:0{width}d}"`, for a number that fits. -/
def padded : (width : Nat) → (n : Nat) → Text
  | 0, _ => []
  | width + 1, n => padded width (n / 10) ++ [digit n]

theorem length_padded (width n : Nat) : (padded width n).length = width := by
  induction width generalizing n with
  | zero => rfl
  | succ width ih => rw [padded, List.length_append, ih, List.length_singleton]

theorem digit_val (n : Nat) : (digit n).val = 0x30 + n % 10 := by
  unfold digit
  exact Nat.mod_eq_of_lt (by omega)

theorem div_lt_of_padded {width n : Nat} (h : n < 10 ^ (width + 1)) : n / 10 < 10 ^ width := by
  rw [Nat.div_lt_iff_lt_mul (by omega)]
  exact h

theorem padded_inj {width n m : Nat} (hn : n < 10 ^ width) (hm : m < 10 ^ width) :
    padded width n = padded width m ↔ n = m := by
  induction width generalizing n m with
  | zero =>
    constructor
    · intro _
      omega
    · intro _
      rfl
  | succ width ih =>
    constructor
    · intro same
      obtain ⟨front, last⟩ := List.append_inj same (by rw [length_padded, length_padded])
      have quotient := (ih (div_lt_of_padded hn) (div_lt_of_padded hm)).mp front
      have remainder := congrArg Fin.val (List.singleton_injective last)
      rw [digit_val, digit_val] at remainder
      omega
    · intro same
      rw [same]

/-- Numbers of one width are ordered as their texts are. -/
theorem padded_lt_padded {width n m : Nat} (hn : n < 10 ^ width) (hm : m < 10 ^ width) :
    padded width n < padded width m ↔ n < m := by
  induction width generalizing n m with
  | zero =>
    simp only [padded, List.lt_irrefl, false_iff]
    omega
  | succ width ih =>
    have front := div_lt_of_padded hn
    have front' := div_lt_of_padded hm
    have last : [digit n] < [digit m] ↔ n % 10 < m % 10 := by
      rw [List.cons_lt_cons_iff, Fin.lt_def, digit_val, digit_val]
      simp
    rw [padded, padded, Text.append_lt_append (by rw [length_padded, length_padded]),
      ih front front', padded_inj front front', last]
    omega

/-- A number of a fixed width in front of a text. -/
theorem padded_append_lt {width n m : Nat} (hn : n < 10 ^ width) (hm : m < 10 ^ width)
    (s t : Text) : padded width n ++ s < padded width m ++ t ↔ n < m ∨ (n = m ∧ s < t) := by
  rw [Text.append_lt_append (by rw [length_padded, length_padded]), padded_lt_padded hn hm,
    padded_inj hn hm]

/-! ## Times -/

/-- The fields of a `datetime` in UTC. -/
structure DateTime where
  year : Nat
  month : Nat
  day : Nat
  hour : Nat
  minute : Nat
  second : Nat
  microsecond : Nat
  deriving DecidableEq, Repr

/-- The last time that a `datetime` can hold is before this one. -/
def endOfTime : Instant := 3652059 * 86400000000

/-- The fields of a time, which counts microseconds from the start of the year 1. -/
def DateTime.ofInstant (i : Instant) : DateTime :=
  let day := i / 86400000000
  let time := i % 86400000000
  let (year, dayOfYear) := Calendar.yearOf day
  let (month, dayOfMonth) := Calendar.monthOf year dayOfYear
  { year, month, day := dayOfMonth + 1, hour := time / 3600000000, minute := time / 60000000 % 60
    second := time / 1000000 % 60, microsecond := time % 1000000 }

/-- The fraction of a second, and the offset of UTC. -/
def fraction (microsecond : Nat) : Text :=
  (if microsecond = 0 then [] else lit "." ++ padded 6 microsecond) ++ lit "+00:00"

/-- `datetime.isoformat`. -/
def DateTime.isoformat (t : DateTime) : Text :=
  padded 4 t.year ++ (lit "-" ++ (padded 2 t.month ++ (lit "-" ++ (padded 2 t.day ++ (lit "T" ++
    (padded 2 t.hour ++ (lit ":" ++ (padded 2 t.minute ++ (lit ":" ++ (padded 2 t.second ++
      fraction t.microsecond))))))))))

/-- The text that is stored for a time. -/
def isoformat (i : Instant) : Text := (DateTime.ofInstant i).isoformat

theorem fraction_lt_fraction {n m : Nat} (hn : n < 10 ^ 6) (hm : m < 10 ^ 6) :
    fraction n < fraction m ↔ n < m := by
  have plus : ∀ s t : Text, lit "+00:00" ++ s < lit "." ++ t := by
    intro s t
    exact List.cons_lt_cons_iff.mpr (.inl (by decide))
  unfold fraction
  by_cases zero : n = 0
  · by_cases zero' : m = 0
    · subst zero zero'
      simp only [lt_irrefl]
    · rw [if_pos zero, if_neg zero', List.nil_append, List.append_assoc]
      have less := plus [] (padded 6 m ++ lit "+00:00")
      rw [List.append_nil] at less
      exact ⟨fun _ => by omega, fun _ => less⟩
  · by_cases zero' : m = 0
    · rw [if_neg zero, if_pos zero', List.nil_append, List.append_assoc]
      have less := plus [] (padded 6 n ++ lit "+00:00")
      rw [List.append_nil] at less
      exact ⟨fun more => absurd more (List.lt_asymm less), fun impossible => by omega⟩
    · rw [if_neg zero, if_neg zero', List.append_assoc, List.append_assoc]
      change (.ofChar '.' :: (padded 6 n ++ _) : Text) < .ofChar '.' :: (padded 6 m ++ _) ↔ _
      rw [Text.cons_lt_cons, padded_append_lt hn hm]
      simp only [List.lt_irrefl, and_false, or_false]

/-- The date of a day number. -/
structure DateOf (day year month dayOfMonth : Nat) : Prop where
  year_le : day < 3652059 → year ≤ 9999
  month_le : month ≤ 12
  day_lt : dayOfMonth < 31
  located : ∃ dayOfYear, Calendar.yearOf day = (year, dayOfYear) ∧
    Calendar.monthOf year dayOfYear = (month, dayOfMonth)

theorem dateOf (day : Nat) : DateOf day (Calendar.yearOf day).1
    (Calendar.monthOf (Calendar.yearOf day).1 (Calendar.yearOf day).2).1
    (Calendar.monthOf (Calendar.yearOf day).1 (Calendar.yearOf day).2).2 where
  year_le := Calendar.yearOf_le
  month_le := (Calendar.monthOf_spec (Calendar.yearOf_spec day).2.1).2.1
  day_lt := by
    have inside := (Calendar.monthOf_spec (Calendar.yearOf_spec day).2.1).2.2.1
    exact lt_of_lt_of_le inside (Calendar.daysInMonth_le _ _)
  located := ⟨_, rfl, rfl⟩

/-- Days are ordered by year, month and day of the month. -/
theorem DateOf.lt_iff {n n' y y' m m' d d' : Nat} (date : DateOf n y m d)
    (date' : DateOf n' y' m' d') :
    (n < n' ↔ y < y' ∨ (y = y' ∧ (m < m' ∨ (m = m' ∧ d < d')))) ∧
      (n = n' ↔ y = y' ∧ m = m' ∧ d = d') := by
  obtain ⟨yday, isYear, isMonth⟩ := date.located
  obtain ⟨yday', isYear', isMonth'⟩ := date'.located
  have years := Calendar.yearOf_lt_iff n n'
  have yearSplit := Calendar.yearOf_spec n
  have yearSplit' := Calendar.yearOf_spec n'
  rw [isYear] at years yearSplit
  rw [isYear'] at years yearSplit'
  obtain ⟨-, inYear, split⟩ := yearSplit
  obtain ⟨-, inYear', split'⟩ := yearSplit'
  constructor
  · rw [years]
    apply or_congr Iff.rfl
    apply and_congr_right
    intro same
    dsimp only at same
    subst same
    have decided := Calendar.monthOf_lt_iff inYear inYear'
    rw [isMonth, isMonth'] at decided
    exact decided
  · constructor
    · intro same
      subst same
      cases isYear.symm.trans isYear'
      cases isMonth.symm.trans isMonth'
      exact ⟨rfl, rfl, rfl⟩
    · intro same
      obtain ⟨rfl, rfl, rfl⟩ := same
      have monthSplit := (Calendar.monthOf_spec inYear).2.2.2
      have monthSplit' := (Calendar.monthOf_spec inYear').2.2.2
      rw [isMonth] at monthSplit
      rw [isMonth'] at monthSplit'
      dsimp only at split split' monthSplit monthSplit'
      omega

/-- Two numbers between texts that do not differ. -/
theorem padded_lit_lt {width n m : Nat} (hn : n < 10 ^ width) (hm : m < 10 ^ width)
    (c : Char) (s t : Text) :
    padded width n ++ (.ofChar c :: s) < padded width m ++ (.ofChar c :: t) ↔
      n < m ∨ (n = m ∧ s < t) := by
  rw [padded_append_lt hn hm, Text.cons_lt_cons]

/-- Later times have later texts. -/
theorem isoformat_lt_iff {i j : Nat} (hi : i < endOfTime) (hj : j < endOfTime) :
    isoformat i < isoformat j ↔ i < j := by
  have date := dateOf (i / 86400000000)
  have date' := dateOf (j / 86400000000)
  obtain ⟨earlier, same⟩ := date.lt_iff date'
  unfold isoformat DateTime.ofInstant DateTime.isoformat
  dsimp only
  generalize (Calendar.yearOf (i / 86400000000)) = year at *
  generalize (Calendar.yearOf (j / 86400000000)) = year' at *
  generalize Calendar.monthOf year.1 year.2 = month at *
  generalize Calendar.monthOf year'.1 year'.2 = month' at *
  have lastYear : year.1 ≤ 9999 := date.year_le (by unfold endOfTime at hi; omega)
  have lastYear' : year'.1 ≤ 9999 := date'.year_le (by unfold endOfTime at hj; omega)
  have lastMonth := date.month_le
  have lastMonth' := date'.month_le
  have lastDay := date.day_lt
  have lastDay' := date'.day_lt
  change padded 4 year.1 ++ (.ofChar '-' :: (padded 2 month.1 ++ (.ofChar '-' ::
      (padded 2 (month.2 + 1) ++ (.ofChar 'T' :: (padded 2 _ ++ (.ofChar ':' :: (padded 2 _ ++
        (.ofChar ':' :: (padded 2 _ ++ fraction _)))))))))) <
    padded 4 year'.1 ++ (.ofChar '-' :: (padded 2 month'.1 ++ (.ofChar '-' ::
      (padded 2 (month'.2 + 1) ++ (.ofChar 'T' :: (padded 2 _ ++ (.ofChar ':' :: (padded 2 _ ++
        (.ofChar ':' :: (padded 2 _ ++ fraction _)))))))))) ↔ _
  rw [padded_lit_lt (by omega) (by omega), padded_lit_lt (by omega) (by omega),
    padded_lit_lt (by omega) (by omega), padded_lit_lt (by omega) (by omega),
    padded_lit_lt (by omega) (by omega), padded_append_lt (by omega) (by omega),
    fraction_lt_fraction (by omega) (by omega)]
  omega

end DataBridge
