import DataBridge.Text

/-!
# Numbers in text

`int(text, base)` and the numeral that Python formats a number as, in bases up
to sixteen. `intOf_numeral` reads a numeral back.
-/

namespace DataBridge

/-- `format(n, "d")` in base 10 and `format(n, "x")` in base 16. -/
def numeral (base n : Nat) : Text := (Nat.toDigits base n).map CodePoint.ofChar

/-- The value of a digit `0`–`9`, `a`–`f` or `A`–`F`. -/
def digitValue (c : CodePoint) : Option Nat :=
  if 0x30 ≤ c.val ∧ c.val ≤ 0x39 then some (c.val - 0x30)
  else if 0x41 ≤ c.val ∧ c.val ≤ 0x46 then some (c.val - 0x37)
  else if 0x61 ≤ c.val ∧ c.val ≤ 0x66 then some (c.val - 0x57)
  else none

/-- `c` is an ASCII digit of the base. -/
def isDigitOf (base : Nat) (c : CodePoint) : Bool := (digitValue c).any (· < base)

/-- `int(text, base)` of a text of digits. -/
def intOf (base : Nat) (text : Text) : Nat :=
  text.foldl (fun n c => base * n + (digitValue c).getD 0) 0

theorem digitValue_digitChar {d : Nat} (small : d < 16) :
    digitValue (.ofChar (Nat.digitChar d)) = some d := by
  interval_cases d <;> rfl

theorem isDigitOf_digitChar {base d : Nat} (least : base ≤ 16) (small : d < base) :
    isDigitOf base (.ofChar (Nat.digitChar d)) = true := by
  rw [isDigitOf, digitValue_digitChar (by omega), Option.any_some, decide_eq_true small]

/-- The last digit comes off the end. -/
theorem numeral_eq {base n : Nat} (base_gt : 1 < base) :
    numeral base n = (if n < base then [] else numeral base (n / base)) ++
      [.ofChar (Nat.digitChar (n % base))] := by
  unfold numeral
  rw [Nat.toDigits_eq_if base_gt]
  split
  · rename_i small
    rw [Nat.mod_eq_of_lt small]
    rfl
  · rw [List.map_append]
    rfl

theorem intOf_concat (base : Nat) (text : Text) (c : CodePoint) :
    intOf base (text ++ [c]) = base * intOf base text + (digitValue c).getD 0 := by
  rw [intOf, List.foldl_concat]
  rfl

/-- A number is read back from its numeral. -/
theorem intOf_numeral {base : Nat} (n : Nat) (base_gt : 1 < base) (base_le : base ≤ 16) :
    intOf base (numeral base n) = n := by
  induction n using Nat.strongRecOn with
  | ind n ih =>
    have digit := Nat.mod_lt n (show 0 < base by omega)
    rw [numeral_eq base_gt, intOf_concat, digitValue_digitChar (by omega), Option.getD_some]
    split
    · rename_i small
      rw [Nat.mod_eq_of_lt small]
      change base * 0 + n = n
      omega
    · rw [ih (n / base) (Nat.div_lt_self (by omega) base_gt)]
      exact Nat.div_add_mod n base

theorem isDigitOf_of_mem_numeral {base n : Nat} (base_gt : 1 < base) (base_le : base ≤ 16)
    {c : CodePoint} (member : c ∈ numeral base n) : isDigitOf base c = true := by
  induction n using Nat.strongRecOn with
  | ind n ih =>
    rw [numeral_eq base_gt] at member
    rcases List.mem_append.mp member with member | last
    · split at member
      · cases member
      · exact ih _ (Nat.div_lt_self (by omega) base_gt) member
    · rw [List.mem_singleton.mp last]
      exact isDigitOf_digitChar base_le (Nat.mod_lt n (by omega))

theorem numeral_ne_nil (base n : Nat) : numeral base n ≠ [] := by
  intro none
  exact Nat.toDigits_ne_nil (List.map_eq_nil_iff.mp none)

theorem length_numeral_le {base n k : Nat} (base_gt : 1 < base) (k_pos : 0 < k)
    (small : n < base ^ k) : (numeral base n).length ≤ k := by
  rw [numeral, List.length_map]
  exact (Nat.length_toDigits_le_iff base_gt k_pos).mpr small

/-- Only zero starts with a zero. -/
theorem numeral_head {base n : Nat} (base_gt : 1 < base) (base_le : base ≤ 16)
    (zero : (numeral base n).head? = some (.ofChar '0')) : n = 0 := by
  induction n using Nat.strongRecOn with
  | ind n ih =>
    rw [numeral_eq base_gt] at zero
    split at zero
    · rename_i small
      have digit := Nat.mod_lt n (show 0 < base by omega)
      have value := digitValue_digitChar (show n % base < 16 by omega)
      rw [List.nil_append, List.head?_cons, Option.some.injEq] at zero
      rw [zero] at value
      have same : some 0 = some (n % base) := value
      rw [Nat.mod_eq_of_lt small] at same
      exact (Option.some.inj same).symm
    · rename_i big
      have quotient := Nat.div_pos (Nat.le_of_not_lt big) (by omega)
      rw [List.head?_append_of_ne_nil _ (numeral_ne_nil _ _)] at zero
      have none := ih _ (Nat.div_lt_self (by omega) base_gt) zero
      omega

end DataBridge
