import DataBridge.Json.Places

/-!
# The beginning of a JSON text

A text that ends at a place which more text completes is the beginning of a value
(`Reaches.resume`). The scan of the beginning of a derived text reads the same value, or a
shorter number, or it stops at the end of the text (`Derives.cut`).
-/

namespace DataBridge.Json

theorem skipSpace_append {t : Text} (s : Text) (more : skipSpace t ≠ []) :
    skipSpace (t ++ s) = skipSpace t ++ s := by
  unfold skipSpace at more ⊢
  have nonempty : (t.dropWhile isSpace).isEmpty = false := by
    cases dropped : t.dropWhile isSpace with
    | nil => exact absurd dropped more
    | cons c rest => rfl
  rw [List.dropWhile_append, nonempty]
  rfl

theorem space_of_skipSpace_nil {t : Text} (nothing : skipSpace t = []) : Space t [] := by
  have space := space_skipSpace t
  rwa [nothing] at space

/-! ## Strings that end with an escape -/

/-- The messages of a string's errors. -/
theorem scanString_message {start t : Text} {e : DecodeError} (failed : scanString start t = .error e) :
    e.message = .unterminated ∨ e.message = .unicodeEscape ∨ e.message = .escape ∨
      e.message = .controlCharacter := by
  induction size : t.length using Nat.strongRecOn generalizing t with
  | ind n ih =>
    have shorter : ∀ {t' : Text} {c : CodePoint}, t'.length < n →
        push c (scanString start t') = .error e → _ :=
      fun less failed => ih _ less (push_error.mp failed) rfl
    cases stringView t with
    | nil | backslash =>
      cases failed
      exact .inl rfl
    | quote t =>
      rw [scanString_quote] at failed
      cases failed
    | short t short =>
      rw [scanString_short short] at failed
      cases failed
      exact .inr (.inl rfl)
    | unicode a b c d t longer =>
      rw [scanString_unicode longer] at failed
      simp only [List.length_cons] at size
      cases hex : hexPoint a b c d with
      | none =>
        simp only [hex] at failed
        cases failed
        exact .inr (.inl rfl)
      | some point =>
        simp only [hex] at failed
        cases pair : pairAt point t with
        | error e' =>
          simp only [pair] at failed
          cases failed
          obtain ⟨_, _, _, _, _, -, -, -, rfl⟩ := pairAt_error pair
          exact .inr (.inl rfl)
        | ok joined =>
          simp only [pair] at failed
          cases joined with
          | none => exact shorter (by omega) failed
          | some joined =>
            obtain ⟨joined, rest⟩ := joined
            obtain ⟨-, _, _, _, _, _, rfl, -⟩ := pairAt_some pair
            simp only [List.length_cons] at size
            exact shorter (by omega) failed
    | escape e' t other =>
      simp only [List.length_cons] at size
      cases escaped : simpleEscape e' with
      | none =>
        rw [scanString_bad other escaped] at failed
        cases failed
        exact .inr (.inr (.inl rfl))
      | some point =>
        rw [scanString_escape escaped] at failed
        exact shorter (by omega) failed
    | other c t quote backslash =>
      simp only [List.length_cons] at size
      by_cases control : c.val ≤ 0x1F
      · rw [scanString_control quote backslash control] at failed
        cases failed
        exact .inr (.inr (.inr rfl))
      · rw [scanString_plain quote backslash control] at failed
        exact shorter (by omega) failed

/-- The text of a string ends with an escape `\uXXXX`. -/
inductive EndsInEscape : Text → Prop
  | here {a b c d : CodePoint} {point : Nat} : hexPoint a b c d = some point →
    EndsInEscape (.ofChar '\\' :: .ofChar 'u' :: [a, b, c, d])
  | plain {c : CodePoint} {t : Text} : c ≠ .ofChar '"' → c ≠ .ofChar '\\' → ¬ c.val ≤ 0x1F →
    EndsInEscape t → EndsInEscape (c :: t)
  | escape {e point : CodePoint} {t : Text} : simpleEscape e = some point →
    EndsInEscape t → EndsInEscape (.ofChar '\\' :: e :: t)
  | unicode {a b c d : CodePoint} {point : Nat} {t : Text} : hexPoint a b c d = some point →
    EndsInEscape t → EndsInEscape (.ofChar '\\' :: .ofChar 'u' :: a :: b :: c :: d :: t)

/-- The error about an escape whose digits are complete. -/
def CutEscape (e : DecodeError) : Prop :=
  e.message = .unicodeEscape ∧
    ∃ hex, e.suffix = .ofChar 'u' :: hex ∧ hex.length = 4 ∧ ∀ c ∈ hex, (hexDigit c).isSome

theorem CutEscape.cutString {e : DecodeError} (cut : CutEscape e) : CutString e := by
  obtain ⟨message, hex, suffix, four, digits⟩ := cut
  exact .inr ⟨message, hex, suffix, four.le, digits⟩

theorem EndsInEscape.ne_nil {t : Text} (ends : EndsInEscape t) : t ≠ [] := by
  cases ends with
  | here | plain | escape | unicode => simp

theorem EndsInEscape.of_escape {e : CodePoint} {t : Text} (other : e ≠ .ofChar 'u')
    (ends : EndsInEscape (.ofChar '\\' :: e :: t)) :
    (∃ point, simpleEscape e = some point) ∧ EndsInEscape t := by
  cases ends with
  | here => exact absurd rfl other
  | plain _ backslash => exact absurd rfl backslash
  | escape escaped ends => exact ⟨⟨_, escaped⟩, ends⟩
  | unicode => exact absurd rfl other

theorem EndsInEscape.of_unicode {a b c d : CodePoint} {t : Text}
    (ends : EndsInEscape (.ofChar '\\' :: .ofChar 'u' :: a :: b :: c :: d :: t)) :
    (∃ point, hexPoint a b c d = some point) ∧ (t = [] ∨ EndsInEscape t) := by
  cases ends with
  | here hex => exact ⟨⟨_, hex⟩, .inl rfl⟩
  | plain _ backslash => exact absurd rfl backslash
  | escape escaped =>
    rw [simpleEscape_u] at escaped
    cases escaped
  | unicode hex ends => exact ⟨⟨_, hex⟩, .inr ends⟩

/-- The scanner takes a string that ends with an escape for one with a wrong escape. -/
theorem EndsInEscape.scanString {start t : Text} (ends : EndsInEscape t) :
    ∃ e, scanString start t = .error e ∧ CutEscape e := by
  induction size : t.length using Nat.strongRecOn generalizing t with
  | ind n ih =>
    have shorter : ∀ {t' : Text} (c : CodePoint), t'.length < n → EndsInEscape t' →
        ∃ e, push c (Json.scanString start t') = .error e ∧ CutEscape e := by
      intro t' c less ends
      obtain ⟨e, failed, cut⟩ := ih _ less ends rfl
      exact ⟨e, push_error.mpr failed, cut⟩
    cases stringView t with
    | nil => exact absurd rfl ends.ne_nil
    | quote t =>
      cases ends with
      | plain quote => exact absurd rfl quote
    | backslash =>
      cases ends with
      | plain _ backslash => exact absurd rfl backslash
    | short t short =>
      cases ends with
      | here hex =>
        rw [scanString_short short]
        exact ⟨_, rfl, rfl, _, rfl, rfl, hexPoint_digits hex⟩
      | plain _ backslash => exact absurd rfl backslash
      | escape escaped =>
        rw [simpleEscape_u] at escaped
        cases escaped
      | unicode _ ended =>
        have positive := List.length_pos_iff.mpr ended.ne_nil
        simp only [List.length_cons] at short
        omega
    | unicode a b c d t longer =>
      obtain ⟨⟨point, hex⟩, ended⟩ := ends.of_unicode
      replace ended := ended.resolve_left longer
      simp only [List.length_cons] at size
      rw [scanString_unicode longer]
      simp only [hex]
      cases pair : pairAt point t with
      | error e =>
        obtain ⟨a', b', c', d', rest, -, rfl, none, -⟩ := pairAt_error pair
        obtain ⟨⟨point', hex'⟩, -⟩ := ended.of_unicode
        rw [none] at hex'
        cases hex'
      | ok joined =>
        cases joined with
        | none => exact shorter _ (by omega) ended
        | some joined =>
          obtain ⟨joined, rest⟩ := joined
          obtain ⟨nonempty, a', b', c', d', low, rfl, -⟩ := pairAt_some pair
          simp only [List.length_cons] at size
          exact shorter _ (by omega) (ended.of_unicode.2.resolve_left nonempty)
    | escape e t other =>
      obtain ⟨⟨point, escaped⟩, ended⟩ := ends.of_escape other
      simp only [List.length_cons] at size
      rw [scanString_escape escaped]
      exact shorter _ (by omega) ended
    | other c t quote backslash =>
      simp only [List.length_cons] at size
      cases ends with
      | here | escape | unicode => exact absurd rfl backslash
      | plain _ _ control ended =>
        rw [scanString_plain quote backslash control]
        exact shorter _ (by omega) ended

theorem endsInEscape_of_scanString {start t : Text} {e : DecodeError}
    (failed : scanString start t = .error e) (cut : CutEscape e) : EndsInEscape t := by
  induction size : t.length using Nat.strongRecOn generalizing t with
  | ind n ih =>
    have shorter : ∀ {t' : Text}, t'.length < n → scanString start t' = .error e →
        EndsInEscape t' := fun less failed => ih _ less failed rfl
    have message := cut.1
    cases stringView t with
    | nil | backslash =>
      cases failed
      cases message
    | quote t =>
      rw [scanString_quote] at failed
      cases failed
    | short t short =>
      rw [scanString_short short] at failed
      cases failed
      obtain ⟨-, hex, eq, four, digits⟩ := cut
      cases eq
      match t, four with
      | [a, b, c, d], _ =>
        obtain ⟨point, hex⟩ := hexPoint_of_digits digits
        exact .here hex
    | unicode a b c d t longer =>
      rw [scanString_unicode longer] at failed
      simp only [List.length_cons] at size
      cases hex : hexPoint a b c d with
      | none =>
        simp only [hex] at failed
        cases failed
        exact absurd cut.cutString (not_cutString longer)
      | some point =>
        simp only [hex] at failed
        cases pair : pairAt point t with
        | error e' =>
          simp only [pair] at failed
          cases failed
          obtain ⟨a', b', c', d', rest, longer', -, -, rfl⟩ := pairAt_error pair
          exact absurd cut.cutString (not_cutString longer')
        | ok joined =>
          simp only [pair] at failed
          cases joined with
          | none => exact .unicode hex (shorter (by omega) (push_error.mp failed))
          | some joined =>
            obtain ⟨joined, rest⟩ := joined
            obtain ⟨-, a', b', c', d', low, rfl, hex'⟩ := pairAt_some pair
            simp only [List.length_cons] at size
            exact .unicode hex (.unicode hex' (shorter (by omega) (push_error.mp failed)))
    | escape e' t other =>
      simp only [List.length_cons] at size
      cases escaped : simpleEscape e' with
      | none =>
        rw [scanString_bad other escaped] at failed
        cases failed
        cases message
      | some point =>
        rw [scanString_escape escaped] at failed
        exact .escape escaped (shorter (by omega) (push_error.mp failed))
    | other c t quote backslash =>
      simp only [List.length_cons] at size
      by_cases control : c.val ≤ 0x1F
      · rw [scanString_control quote backslash control] at failed
        cases failed
        cases message
      · rw [scanString_plain quote backslash control] at failed
        exact .plain quote backslash control (shorter (by omega) (push_error.mp failed))

/-! ## Texts that more text completes -/

/-- The shortest value. -/
def zero : Text := [.ofChar '0']

theorem derives_zero (n : Nat) : Derives (.one .value) n zero [] := by
  have number : IsNumber zero := by
    refine ⟨[], zero, [], [], rfl, .inl rfl, .inl rfl, .inl rfl, .inl rfl⟩
  exact .number number (List.append_nil _).symm

/-- More text completes what the decoder expects. -/
def Continues : Place → Text → Prop
  | .value, u => ∃ s n, Derives (.one .value) n (u ++ s) []
  | .name, u => u = [] ∨ ∃ body s, u = .ofChar '"' :: body ∧ StringBody (body ++ s) []
  | .colon, u => skipSpace u = []
  | .comma _ value, u => skipSpace u = [] ∨ BeginsNumber value

section Resume

variable {ε N : Type} {hooks : Hooks ε N}

/-- A member that ends with its key. -/
theorem derives_key {t u : Text} (body : StringBody t u) (nothing : skipSpace u = []) :
    ∃ s n, Derives (.one .member) n (.ofChar '"' :: t ++ s) [] := by
  have space := (space_of_skipSpace_nil nothing).append (.ofChar ':' :: zero)
  exact ⟨.ofChar ':' :: zero, 0, .member (body.append _) space (.refl _) (derives_zero 0)⟩

/-- An item that is a number, or ends with one. -/
theorem derives_number {i : Item} {t v : Text} (valueAt : ValueAt i t v) (begins : BeginsNumber v) :
    ∃ s n, Derives (.one i) n (t ++ s) [] := by
  obtain ⟨s, number⟩ := begins
  have value : Derives (.one .value) 0 (v ++ s) [] := .number number (List.append_nil _).symm
  cases i with
  | value =>
    obtain rfl : v = t := valueAt
    exact ⟨s, 0, value⟩
  | member =>
    obtain ⟨u, x, w, y, rfl, key, colon, rfl⟩ := valueAt
    have space := (space_skipSpace w).append s
    rw [colon] at space
    exact ⟨s, 0, .member ((scanString_sound key).append s) space ((space_skipSpace y).append s) value⟩

/-- The last item of a container and its closing bracket. -/
theorem Derives.close {i : Item} {n : Nat} {t u : Text} (derives : Derives (.one i) n t u)
    (nothing : skipSpace u = []) : Derives (.many i) n (t ++ [i.closing]) [] :=
  .last (derives.append _) ((space_of_skipSpace_nil nothing).append _)

/-- A text with a place that more text completes is the beginning of a derived text. -/
theorem Reaches.resume (strict : hooks.Strict) {stack : Nat} {symbol : Symbol} {t u : Text} {p : Place}
    (reaches : Reaches hooks stack symbol t p u) (continues : Continues p u) :
    ∃ s n, Derives symbol n (t ++ s) [] := by
  induction reaches with
  | value => exact continues
  | @container stack i t u p other _ ih =>
    obtain ⟨s, n, derives⟩ := ih continues
    exact ⟨s, n + 1, .container ((space_skipSpace t).append s) derives⟩
  | name =>
    rcases continues with rfl | ⟨body, s, rfl, closed⟩
    · obtain ⟨s, n, derives⟩ := derives_key (StringBody.close (r := [])) rfl
      exact ⟨_, n, derives⟩
    · obtain ⟨s', n, derives⟩ := derives_key closed rfl
      exact ⟨s ++ s', n, by rwa [List.cons_append, ← List.append_assoc]⟩
  | colon key => exact derives_key (scanString_sound key) continues
  | @member stack t x u v w p key colon _ ih =>
    obtain ⟨s, n, derives⟩ := ih continues
    have space := (space_skipSpace u).append s
    rw [colon] at space
    exact ⟨s, n, .member ((scanString_sound key).append s) space ((space_skipSpace v).append s) derives⟩
  | @first stack i t u p _ ih =>
    obtain ⟨s, n, derives⟩ := ih continues
    exact ⟨s ++ [i.closing], n, by rw [← List.append_assoc]; exact derives.close rfl⟩
  | @after stack i t v u a valueAt scanned =>
    rcases continues with nothing | begins
    · exact ⟨[i.closing], stack, (reads_scanItem (reads_scanOnce strict stack) i _ _ _ scanned).close
        nothing⟩
    · obtain ⟨s, n, derives⟩ := derives_number valueAt begins
      exact ⟨s ++ [i.closing], n, by rw [← List.append_assoc]; exact derives.close rfl⟩
  | @later stack i t u w x a p scanned after _ ih =>
    obtain ⟨s, n, derives⟩ := ih continues
    have one := reads_scanItem (reads_scanOnce strict stack) i _ _ _ scanned
    obtain ⟨v, space, rfl⟩ := afterItem_comma after
    refine ⟨s, max stack n, ?_⟩
    exact .more ((one.append s).mono (le_max_left _ _)) (space.append s) ((space_skipSpace v).append s)
      (derives.mono (le_max_right _ _))

end Resume

/-! ## Scans of a beginning -/

/-- A fault at the end of a text, which more text may mend. -/
inductive CutAt : DecodeError → Prop
  | string {e : DecodeError} : CutString e → CutAt e
  | value {x : Text} : x = [] ∨ x = lit "-" ∨ (∃ y ∈ literals, x <+: y) → CutAt ⟨.value, x⟩
  | comma {x : Text} : x ∈ numberTails → CutAt ⟨.comma, x⟩
  | name : CutAt ⟨.name, []⟩
  | colon : CutAt ⟨.colon, []⟩

/-- What a scan of the beginning of a text with `n` nested containers stops with. -/
inductive Stopped {ε : Type} (n stack : Nat) : Failure ε → Prop
  | deep : stack < n → Stopped n stack .recursion
  | refused (e : ε) : Stopped n stack (.refused e)
  | cut {e : DecodeError} : CutAt e → Stopped n stack (.decode e)

theorem Stopped.succ {ε : Type} {n stack : Nat} {failure : Failure ε} (stopped : Stopped n stack failure) :
    Stopped (n + 1) (stack + 1) failure := by
  cases stopped with
  | deep less => exact .deep (Nat.succ_lt_succ less)
  | refused e => exact .refused e
  | cut cut => exact .cut cut

section Cut

variable {ε N : Type} {hooks : Hooks ε N}

/-- The scan of an item of `p ++ s`, with `r` left, on `p` alone. -/
inductive CutItem (hooks : Hooks ε N) (n stack : Nat) (i : Item) (p s r : Text) : Prop
  /-- The same item. -/
  | whole (a : i.Found N) (r' : Text) : r = r' ++ s →
    scanItem (scanOnce hooks stack) i p = .ok (a, r') →
    scanItem (scanOnce hooks stack) i (p ++ s) = .ok (a, r) → CutItem hooks n stack i p s r
  /-- A number that may be shorter. -/
  | shorter (a : i.Found N) (tail v : Text) : scanItem (scanOnce hooks stack) i p = .ok (a, tail) →
    tail ∈ numberTails → ValueAt i p v → BeginsNumber v → CutItem hooks n stack i p s r
  | stopped (failure : Failure ε) : scanItem (scanOnce hooks stack) i p = .error failure →
    Stopped n stack failure → CutItem hooks n stack i p s r

/-- The loop over the items of a container of `p ++ s`, with `r` left, on `p` alone. -/
inductive CutItems (hooks : Hooks ε N) (n stack : Nat) (i : Item) (p s r : Text) : Prop
  | whole (l : List (i.Found N)) (r' : Text) : r = r' ++ s →
    Items i.closing (scanItem (scanOnce hooks stack) i) p (.ok (l, r')) →
    Items i.closing (scanItem (scanOnce hooks stack) i) (p ++ s) (.ok (l, r)) →
    CutItems hooks n stack i p s r
  | stopped (failure : Failure ε) :
    Items i.closing (scanItem (scanOnce hooks stack) i) p (.error failure) →
    Stopped n stack failure → CutItems hooks n stack i p s r

/-- What the scanner does with the beginning of a derived text. -/
def Cuts (hooks : Hooks ε N) (n stack : Nat) : Symbol → Text → Text → Text → Prop
  | .one i, p, s, r => Stops r → CutItem hooks n stack i p s r
  | .many i, p, s, r => CutItems hooks n stack i p s r

/-- No item is in an empty text. -/
theorem scanItem_nil (hooks : Hooks ε N) (n stack : Nat) (i : Item) : ∃ failure,
    scanItem (scanOnce hooks stack) i [] = .error failure ∧ Stopped n stack failure := by
  cases i with
  | value => exact ⟨_, scanOnce_nil, .cut (.value (.inl rfl))⟩
  | member => exact ⟨_, rfl, .cut .name⟩

theorem items_nil (hooks : Hooks ε N) (n stack : Nat) (i : Item) : ∃ failure,
    Items i.closing (scanItem (scanOnce hooks stack) i) [] (.error failure) ∧
      Stopped n stack failure := by
  obtain ⟨failure, failed, stopped⟩ := scanItem_nil hooks n stack i
  exact ⟨failure, .failed failed, stopped⟩

theorem skipSpace_numberTail {x : Text} (tail : x ∈ numberTails) : skipSpace x = x := by
  simp only [numberTails, List.mem_cons, List.not_mem_nil, or_false] at tail
  rcases tail with rfl | rfl | rfl | rfl | rfl | rfl | rfl | rfl
  all_goals rfl

/-- What a number can go on with is neither a comma nor a closing bracket. -/
theorem afterItem_numberTail (i : Item) {x : Text} (tail : x ∈ numberTails) :
    afterItem i.closing x = .error ⟨.comma, x⟩ := by
  have skipped := skipSpace_numberTail tail
  have heads : ∀ c ∈ x.head?, c ≠ i.closing ∧ c ≠ .ofChar ',' := by
    simp only [numberTails, List.mem_cons, List.not_mem_nil, or_false] at tail
    intro c head
    rcases tail with rfl | rfl | rfl | rfl | rfl | rfl | rfl | rfl
    · cases head
    all_goals
      cases head
      cases i with
      | value => decide
      | member => decide
  cases x with
  | nil => rfl
  | cons c x =>
    obtain ⟨closing, comma⟩ := heads c rfl
    simp only [afterItem, skipped, if_neg closing, if_neg comma]

theorem afterItem_tail (i : Item) {u : Text} (tail : skipSpace u ∈ numberTails) :
    afterItem i.closing u = .error ⟨.comma, skipSpace u⟩ := by
  have failed := afterItem_numberTail i tail
  simp only [afterItem] at failed ⊢
  rwa [skipSpace_numberTail tail] at failed

/-- The character after an item, in the beginning of a text that has `c` there. -/
theorem skipSpace_cut {u r' s v : Text} {c : CodePoint} (eq : u = r' ++ s) (space : Space u (c :: v))
    (other : isSpace c = false) : skipSpace r' = [] ∨ ∃ v', skipSpace r' = c :: v' ∧ v = v' ++ s := by
  have skipped : skipSpace u = c :: v := space.skipSpace_eq fun d head => by
    cases head
    exact other
  cases found : skipSpace r' with
  | nil => exact .inl rfl
  | cons d v' =>
    have more := skipSpace_append s (t := r') (by simp [found])
    rw [← eq, skipped, found, List.cons_append, List.cons.injEq] at more
    obtain ⟨rfl, rfl⟩ := more
    exact .inr ⟨v', rfl, rfl⟩

theorem afterItem_nothing (i : Item) {u : Text} (nothing : skipSpace u = []) :
    afterItem i.closing u = .error ⟨.comma, []⟩ := by
  simp only [afterItem, nothing]

/-- A string that the end of the text cuts. -/
theorem scanString_beginning {p s r : Text} (body : StringBody (p ++ s) r) :
    (∃ x r', r = r' ++ s ∧ scanString (.ofChar '"' :: p) p = .ok (x, r') ∧
      scanString (.ofChar '"' :: (p ++ s)) (p ++ s) = .ok (x, r)) ∨
    ∃ e, scanString (.ofChar '"' :: p) p = .error e ∧ CutString e := by
  obtain ⟨x, scanned⟩ : ∃ x, scanString (.ofChar '"' :: (p ++ s)) (p ++ s) = .ok (x, r) :=
    scanString_complete body
  rcases @scanString_cut _ (.ofChar '"' :: p) _ _ _ _ scanned with ⟨r', scanned', eq⟩ | cut
  · exact .inl ⟨x, r', eq, scanned', scanned⟩
  · exact .inr cut

section Values

variable {n stack : Nat} {p s r : Text}

theorem cutItem_nil {i : Item} : CutItem hooks n stack i [] s r := by
  obtain ⟨failure, failed, stopped⟩ := scanItem_nil hooks n stack i
  exact .stopped failure failed stopped

theorem cutItem_string (body : StringBody (p ++ s) r) :
    CutItem hooks n stack .value (.ofChar '"' :: p) s r := by
  rcases scanString_beginning body with ⟨x, r', eq, scanned, scanned'⟩ | ⟨e, failed, cut⟩
  · refine .whole (.string x) r' eq ?_ ?_
    · rw [scanItem, scanOnce_string, scanned]
    · rw [scanItem, List.cons_append, scanOnce_string, scanned']
  · refine .stopped (.decode e) ?_ (.cut (.string cut))
    rw [scanItem, scanOnce_string, failed]

/-- A number and its beginning are scanned as numbers. -/
theorem scanOnce_number {x : Text} (number : IsNumber x) {q y : Text} (nonempty : q ≠ [])
    (before : q <+: x ++ y) : scanOnce hooks stack q = scanNumber hooks q := by
  obtain ⟨c, rest, rfl, begin⟩ := number.head
  have begins : Begins c ∧ isNumberChar c = true := by
    rcases begin with digit | rfl
    · exact ⟨begins_of_isDigit digit, isNumberChar_of_isDigit digit⟩
    · exact ⟨⟨by decide, fun i => by cases i <;> decide⟩, by decide⟩
  have none : scanLiteral hooks q = Option.none :=
    scanLiteral_none hooks fun z member prior => number.not_constant z member (prior.trans before)
  cases q with
  | nil => exact absurd rfl nonempty
  | cons d q =>
    obtain ⟨rfl, -⟩ := List.cons_prefix_cons.mp before
    rw [scanOnce_plain begins.1 (.inl begins.2), none, Option.getD_none]

theorem cutItem_number {x : Text} (number : IsNumber x) (eq : p ++ s = x ++ r) (stop : Stops r) :
    CutItem hooks n stack .value p s r := by
  by_cases empty : p = []
  · subst empty
    exact cutItem_nil
  have before : p <+: x ++ r := ⟨s, eq⟩
  have scan : ∀ q, q ≠ [] → q <+: x ++ r → scanItem (scanOnce hooks stack) .value q =
      scanNumber hooks q := fun q nonempty before => scanOnce_number number nonempty before
  obtain ⟨m, found, text, rest⟩ := matchNumber_complete number stop
  rw [← eq] at found
  cases matchNumber_cut found with
  | same r' _ found' eq' =>
    rw [rest] at eq'
    cases parsed : (if m.isFloat then hooks.parseFloat m.text else hooks.parseInt m.text) with
    | ok a =>
      refine .whole (.number a) r' eq' ?_ ?_
      · rw [scan p empty before, scanNumber, found']
        simp only [parsed]
      · rw [scan (p ++ s) (by simp [empty]) (by rw [eq]), scanNumber, found]
        simp only [parsed, rest]
    | error e =>
      refine .stopped (.refused e) ?_ (.refused e)
      rw [scan p empty before, scanNumber, found']
      simp only [parsed]
  | unread _ none short =>
    refine .stopped (.decode ⟨.value, p⟩) ?_ (.cut (.value (.inr (.inl (short.resolve_left empty)))))
    rw [scan p empty before, scanNumber, none]
  | shorter m' begins found' tail =>
    cases parsed : (if m'.isFloat then hooks.parseFloat m'.text else hooks.parseInt m'.text) with
    | ok a =>
      obtain ⟨z, whole⟩ := begins
      rw [text] at whole
      refine .shorter (.number a) m'.rest p ?_ tail rfl ⟨z, by rwa [whole]⟩
      rw [scan p empty before, scanNumber, found']
      simp only [parsed]
    | error e =>
      refine .stopped (.refused e) ?_ (.refused e)
      rw [scan p empty before, scanNumber, found']
      simp only [parsed]

/-- No name is the beginning of a literal but the literal. -/
theorem eq_of_constant_prefix {x y : Text} (literal : x ∈ literals) (constant : y ∈ constants)
    (before : y <+: x) : y = x := by
  revert before
  revert y
  revert x
  decide

/-- A literal and its beginning are scanned as such. -/
theorem scanOnce_literal {x : Text} (literal : x ∈ literals) {q y : Text} (nonempty : q ≠ [])
    (before : q <+: x ++ y) :
    scanOnce hooks stack q = (scanLiteral hooks q).getD (scanNumber hooks q) := by
  obtain ⟨c, rest, rfl, begins⟩ := begins_of_literal literal
  have letter : c = .ofChar 'n' ∨ c = .ofChar 't' ∨ c = .ofChar 'f' := by
    rcases mem_literals.mp literal with same | same | same
    · injection same with same
      exact .inl same
    · injection same with same
      exact .inr (.inl same)
    · injection same with same
      exact .inr (.inr same)
  cases q with
  | nil => exact absurd rfl nonempty
  | cons d q =>
    obtain ⟨rfl, -⟩ := List.cons_prefix_cons.mp before
    rw [scanOnce_plain begins (.inr letter)]

/-- No number begins like a literal. -/
theorem matchNumber_literal {x q : Text} (literal : x ∈ literals) (before : q <+: x) :
    matchNumber q = none := by
  cases found : matchNumber q with
  | none => rfl
  | some m =>
    obtain ⟨eq, number⟩ := matchNumber_sound found
    obtain ⟨c, rest, text, begin⟩ := number.head
    rw [text] at eq
    rw [eq] at before
    obtain ⟨z, rfl⟩ := before
    obtain ⟨digit, minus⟩ : isDigit c = false ∧ c ≠ .ofChar '-' := by
      rcases mem_literals.mp literal with same | same | same
      all_goals
        injection same with head
        rw [head]
        decide
    rcases begin with begin | begin
    · rw [begin] at digit
      cases digit
    · exact absurd begin minus

theorem cutItem_literal {x : Text} (literal : x ∈ literals) (eq : p ++ s = x ++ r) :
    CutItem hooks n stack .value p s r := by
  by_cases empty : p = []
  · subst empty
    exact cutItem_nil
  have scan : ∀ q, q ≠ [] → q <+: x ++ r → scanItem (scanOnce hooks stack) .value q =
      (scanLiteral hooks q).getD (scanNumber hooks q) :=
    fun q nonempty before => scanOnce_literal literal nonempty before
  obtain ⟨v, found⟩ : ∃ v, ∀ r, scanLiteral hooks (x ++ r) = some (.ok (v, r)) :=
    scanLiteral_of_mem literal
  rcases List.append_eq_append_iff.mp eq with ⟨y, rfl, rfl⟩ | ⟨r', rfl, rfl⟩
  · by_cases ends : y = []
    · subst ends
      rw [List.append_nil] at literal scan found
      have found' := found []
      rw [List.append_nil] at found'
      refine .whole v [] rfl ?_ ?_
      · rw [scan p empty (List.prefix_append _ _), found', Option.getD_some]
      · rw [List.nil_append, scan _ (by simp [empty]) List.prefix_rfl, found, Option.getD_some]
    · refine .stopped (.decode ⟨.value, p⟩) ?_
        (.cut (.value (.inr (.inr ⟨_, literal, List.prefix_append p y⟩))))
      have none : scanLiteral hooks p = Option.none := by
        refine scanLiteral_none hooks fun z member before => ?_
        have same := eq_of_constant_prefix literal member (before.trans (List.prefix_append p y))
        have short := before.length_le
        rw [same, List.length_append] at short
        exact ends (List.eq_nil_of_length_eq_zero (by omega))
      rw [scan p empty ((List.prefix_append p y).trans (List.prefix_append _ r)), none,
        Option.getD_none, scanNumber, matchNumber_literal literal (List.prefix_append p y)]
  · refine .whole v r' rfl ?_ ?_
    · rw [scan _ empty (List.prefix_append_right_inj x |>.mpr (List.prefix_append r' s)), found,
        Option.getD_some]
    · have nonempty : x ++ r' ++ s ≠ [] := fun none => empty (List.append_eq_nil_iff.mp none).1
      rw [scan _ nonempty (by rw [eq]), List.append_assoc, found, Option.getD_some]

end Values

section Containers

variable {n stack : Nat} {i : Item} {p s r : Text}

/-- The container of a loop that stops. -/
theorem cutItem_of_container (strict : hooks.Strict) {failure : Failure ε}
    (failed : Container i.closing (scanItem (scanOnce hooks stack) i) p (.error failure))
    (stopped : Stopped n stack failure) :
    CutItem hooks (n + 1) (stack + 1) .value (i.opening :: p) s r := by
  have takes := (reads_scanItem (reads_scanOnce strict stack) i).takes
  refine .stopped failure ?_ stopped.succ
  rw [scanItem, scanOnce_container, failed.scanContainer_eq takes]
  rfl

/-- The same container. -/
theorem cutItem_of_containers (strict : hooks.Strict) {l : List (i.Found N)} {r' : Text}
    (eq : r = r' ++ s)
    (container : Container i.closing (scanItem (scanOnce hooks stack) i) p (.ok (l, r')))
    (container' : Container i.closing (scanItem (scanOnce hooks stack) i) (p ++ s) (.ok (l, r))) :
    CutItem hooks (n + 1) (stack + 1) .value (i.opening :: p) s r := by
  have takes := (reads_scanItem (reads_scanOnce strict stack) i).takes
  refine .whole (i.build l) r' eq ?_ ?_
  · rw [scanItem, scanOnce_container, container.scanContainer_eq takes]
    rfl
  · rw [scanItem, List.cons_append, scanOnce_container, container'.scanContainer_eq takes]
    rfl

theorem cutItem_deep : CutItem hooks (n + 1) 0 .value (i.opening :: p) s r :=
  .stopped .recursion scanOnce_deep (.deep n.succ_pos)

/-- A container that ends before its first item. -/
theorem cutItem_nothing (strict : hooks.Strict) (nothing : skipSpace p = []) :
    CutItem hooks (n + 1) (stack + 1) .value (i.opening :: p) s r := by
  obtain ⟨failure, failed, stopped⟩ := items_nil hooks n stack i
  refine cutItem_of_container strict (.items (by simp [nothing]) ?_) stopped
  rwa [nothing]

theorem cutItem_empty (strict : hooks.Strict) (space : Space (p ++ s) (i.closing :: r)) :
    CutItem hooks (n + 1) stack .value (i.opening :: p) s r := by
  cases stack with
  | zero => exact cutItem_deep
  | succ stack =>
    have other := (not_isSpace_closing i).1
    rcases skipSpace_cut rfl space other with nothing | ⟨r', closed, eq⟩
    · exact cutItem_nothing strict nothing
    · have closed' : skipSpace (p ++ s) = i.closing :: r := by
        rw [skipSpace_append s (by simp [closed]), closed, eq, List.cons_append]
      exact cutItem_of_containers strict eq (.empty closed) (.empty closed')

theorem cutItem_items (strict : hooks.Strict) {u : Text} (space : Space (p ++ s) u)
    (derives : Derives (.many i) n u r) (inner : ∀ {stack : Nat} (q : Text), u = q ++ s →
      CutItems hooks n stack i q s r) :
    CutItem hooks (n + 1) stack .value (i.opening :: p) s r := by
  cases stack with
  | zero => exact cutItem_deep
  | succ stack =>
    by_cases nothing : skipSpace p = []
    · exact cutItem_nothing strict nothing
    · have skipped := derives.skipSpace_eq space
      rw [skipSpace_append s nothing] at skipped
      obtain ⟨c, rest, head, begins⟩ := derives.begins
      have other : ∀ r, u ≠ i.closing :: r := by
        intro r same
        rw [head] at same
        injection same with same
        exact begins.2 i same
      have other' : ∀ r, skipSpace p ≠ i.closing :: r := by
        intro r same
        rw [same] at skipped
        exact other _ skipped.symm
      cases inner _ skipped.symm with
      | whole l r' eq items items' =>
        have all : skipSpace (p ++ s) = u := derives.skipSpace_eq space
        refine cutItem_of_containers strict eq (.items other' items) (.items ?_ ?_)
        · rwa [all]
        · rwa [all, ← skipped]
      | stopped failure items stopped =>
        exact cutItem_of_container strict (.items other' items) stopped

theorem cutItem_member {u v w : Text} (body : StringBody (p ++ s) u) (space : Space u (.ofChar ':' :: v))
    (space' : Space v w) (derives : Derives (.one .value) n w r)
    (inner : ∀ q, w = q ++ s → CutItem hooks n stack .value q s r) :
    CutItem hooks n stack .member (.ofChar '"' :: p) s r := by
  have colon : skipSpace u = .ofChar ':' :: v := space.skipSpace_eq fun c head => by
    cases head
    decide
  have skipped := derives.skipSpace_eq space'
  rcases scanString_beginning body with ⟨x, u', rfl, key, key'⟩ | ⟨e, failed, cut⟩
  · rcases skipSpace_cut rfl space (by decide) with nothing | ⟨v', colon', rfl⟩
    · refine .stopped (.decode ⟨.colon, []⟩) ?_ (.cut .colon)
      simp only [scanItem, scanMember, if_true, key, nothing]
    · by_cases nothing : skipSpace v' = []
      · refine .stopped (.decode ⟨.value, []⟩) ?_ (.cut (.value (.inl rfl)))
        simp only [scanItem, scanMember, if_true, key, colon', nothing, scanOnce_nil]
      · rw [skipSpace_append s nothing] at skipped
        cases inner _ skipped.symm with
        | whole a r' eq scanned scanned' =>
          simp only [scanItem] at scanned scanned'
          refine .whole (x, a) r' eq ?_ ?_
          · simp only [scanItem, scanMember, if_true, key, colon', scanned]
          · simp only [scanItem, scanMember, List.cons_append, if_true, key', colon,
              skipSpace_append s nothing, scanned']
        | shorter a tail z scanned member valueAt begins =>
          simp only [scanItem] at scanned
          refine .shorter (x, a) tail z ?_ member ?_ begins
          · simp only [scanItem, scanMember, if_true, key, colon', scanned]
          · exact ⟨p, x, u', v', rfl, key, colon', valueAt⟩
        | stopped failure failed stopped =>
          simp only [scanItem] at failed
          refine .stopped failure ?_ stopped
          simp only [scanItem, scanMember, if_true, key, colon', failed]
  · refine .stopped (.decode e) ?_ (.cut (.string cut))
    simp only [scanItem, scanMember, if_true, failed]

/-- After the last item its closing bracket, and after another one a comma: where an
item is cut, so are the items. -/
theorem CutItem.items {u : Text} (item : CutItem hooks n stack i p s u)
    (next : ∀ a r', u = r' ++ s → skipSpace r' ≠ [] →
      scanItem (scanOnce hooks stack) i p = .ok (a, r') →
      scanItem (scanOnce hooks stack) i (p ++ s) = .ok (a, u) → CutItems hooks n stack i p s r) :
    CutItems hooks n stack i p s r := by
  cases item with
  | whole a r' eq scanned scanned' =>
    by_cases nothing : skipSpace r' = []
    · exact .stopped _ (.open scanned (afterItem_nothing i nothing)) (.cut (.comma (by decide)))
    · exact next a r' eq nothing scanned scanned'
  | shorter a tail _ scanned member =>
    exact .stopped _ (.open scanned (afterItem_numberTail i member)) (.cut (.comma member))
  | stopped failure failed stopped => exact .stopped failure (.failed failed) stopped

theorem cutItems_last {u : Text} (item : CutItem hooks n stack i p s u)
    (space : Space u (i.closing :: r)) : CutItems hooks n stack i p s r := by
  refine item.items fun a r' eq more scanned scanned' => ?_
  rcases skipSpace_cut eq space (not_isSpace_closing i).1 with nothing | ⟨v', closed, rfl⟩
  · exact absurd nothing more
  · have space' := space_skipSpace r'
    rw [closed] at space'
    exact .whole [a] v' rfl (.last scanned (afterItem_of_closed space'))
      (.last scanned' (afterItem_of_closed space))

theorem cutItems_more {u v w : Text} (item : CutItem hooks n stack i p s u)
    (space : Space u (.ofChar ',' :: v)) (space' : Space v w) (derives : Derives (.many i) n w r)
    (inner : ∀ q, w = q ++ s → CutItems hooks n stack i q s r) : CutItems hooks n stack i p s r := by
  refine item.items fun a r' eq more scanned scanned' => ?_
  rcases skipSpace_cut eq space (by decide) with nothing | ⟨v', comma, rfl⟩
  · exact absurd nothing more
  · have before := space_skipSpace r'
    rw [comma] at before
    have after := afterItem_of_comma (i := i) before
    have after' := afterItem_of_comma (i := i) space
    have skipped := derives.skipSpace_eq space'
    rw [skipped] at after'
    by_cases nothing : skipSpace v' = []
    · obtain ⟨failure, failed, stopped⟩ := items_nil hooks n stack i
      rw [nothing] at after
      exact .stopped failure (.later scanned after failed) stopped
    · rw [skipSpace_append s nothing] at skipped
      cases inner _ skipped.symm with
      | whole l r'' eq' items items' =>
        rw [← skipped] at after'
        exact .whole (a :: l) r'' eq' (.more scanned after items) (.more scanned' after' items')
      | stopped failure items stopped =>
        exact .stopped failure (.later scanned after items) stopped

end Containers

/-- The scan of the beginning of a derived text. -/
theorem Derives.cut (strict : hooks.Strict) {symbol : Symbol} {n : Nat} {t r : Text}
    (derives : Derives symbol n t r) {stack : Nat} {p s : Text} (eq : t = p ++ s) :
    Cuts hooks n stack symbol p s r := by
  have opened : ∀ {c : CodePoint} {t p : Text}, c :: t = p ++ s →
      p = [] ∨ ∃ q, p = c :: q ∧ t = q ++ s := by
    intro c t p eq
    cases p with
    | nil => exact .inl rfl
    | cons d q =>
      injection eq with head tail
      subst head
      exact .inr ⟨q, rfl, tail⟩
  induction derives generalizing stack p with
  | string body =>
    intro _
    rcases opened eq with rfl | ⟨q, rfl, rfl⟩
    · exact cutItem_nil
    · exact cutItem_string body
  | number number text => exact fun stop => cutItem_number number (eq.symm.trans text) stop
  | literal literal text => exact fun _ => cutItem_literal literal (eq.symm.trans text)
  | empty space =>
    intro _
    rcases opened eq with rfl | ⟨q, rfl, rfl⟩
    · exact cutItem_nil
    · exact cutItem_empty strict space
  | container space derives ih =>
    intro _
    rcases opened eq with rfl | ⟨q, rfl, rfl⟩
    · exact cutItem_nil
    · exact cutItem_items strict space derives fun q eq => ih eq
  | member body space space' derives ih =>
    intro stop
    rcases opened eq with rfl | ⟨q, rfl, rfl⟩
    · exact cutItem_nil
    · exact cutItem_member body space space' derives fun q eq => ih eq stop
  | last _ space ih => exact cutItems_last (ih eq (space.stops (not_isSpace_closing _).2.1)) space
  | more _ space space' derives ih₁ ih₂ =>
    exact cutItems_more (ih₁ eq (space.stops (by decide))) space space' derives fun q eq => ih₂ eq

/-! ## Places in a derived text -/

theorem Reaches.suffix (strict : hooks.Strict) {stack : Nat} {symbol : Symbol} {t u : Text} {p : Place}
    (reaches : Reaches hooks stack symbol t p u) : u <:+ t := by
  have takes : ∀ {stack : Nat} {i : Item}, Takes (scanItem (scanOnce hooks stack) i) :=
    (reads_scanItem (reads_scanOnce strict _) _).takes
  have spaces : ∀ t : Text, skipSpace t <:+ t := fun t => (space_skipSpace t).suffix
  induction reaches with
  | value | name => exact List.suffix_refl _
  | @container stack i t u p _ _ ih => exact (ih.trans (spaces t)).trans (List.suffix_cons _ _)
  | colon key => exact (scanString_sound key).suffix.trans (List.suffix_cons _ _)
  | @member stack t x u v w p key colon _ ih =>
    have rest : v <:+ u := by
      have before := spaces u
      rw [colon] at before
      exact (List.suffix_cons _ _).trans before
    have inner := ((ih.trans (spaces v)).trans rest).trans (scanString_sound key).suffix
    exact inner.trans (List.suffix_cons _ _)
  | first _ ih => exact ih
  | after _ scanned => exact (takes _ _ _ scanned).1
  | later scanned after _ ih =>
    obtain ⟨v, space, rfl⟩ := afterItem_comma after
    have rest := (spaces v).trans (List.suffix_cons (.ofChar ',') v)
    exact ((ih.trans rest).trans space.suffix).trans (takes _ _ _ scanned).1

/-- A derived text with the opening bracket of a container. -/
theorem Derives.of_opening {i : Item} {n : Nat} {t r : Text}
    (derives : Derives (.one .value) n (i.opening :: t) r) :
    ∃ m, Space t (i.closing :: r) ∨ ∃ u, Space t u ∧ Derives (.many i) m u r := by
  have injective : ∀ {j : Item}, j.opening = i.opening → j = i := by
    intro j same
    cases i with
    | value =>
      cases j with
      | value => rfl
      | member => exact absurd same (by decide)
    | member =>
      cases j with
      | value => exact absurd same (by decide)
      | member => rfl
  have quote : i.opening ≠ .ofChar '"' := by
    cases i with
    | value => decide
    | member => decide
  have others : isDigit i.opening = false ∧ i.opening ≠ .ofChar '-' := by
    cases i with
    | value => decide
    | member => decide
  generalize whole : i.opening :: t = t' at derives
  generalize kind : Symbol.one .value = symbol at derives
  cases derives with
  | string _ =>
    injection whole with head
    exact absurd head quote
  | number number eq =>
    obtain ⟨c, rest, rfl, begin⟩ := number.head
    rw [eq] at whole
    injection whole with head
    rcases begin with digit | minus
    · rw [← head, others.1] at digit
      cases digit
    · exact absurd (head.trans minus) others.2
  | literal literal eq =>
    rw [eq] at whole
    rcases mem_literals.mp literal with rfl | rfl | rfl
    all_goals
      injection whole with head
      cases i with
      | value => exact absurd head (by decide)
      | member => exact absurd head (by decide)
  | @empty j n t r space =>
    injection whole with head tail
    obtain rfl := injective head.symm
    subst tail
    exact ⟨n, .inl space⟩
  | @container j n t u r space derives =>
    injection whole with head tail
    obtain rfl := injective head.symm
    subst tail
    exact ⟨n, .inr ⟨u, space, derives⟩⟩
  | member | last | more => cases kind

/-- The first item of a derived text, and what follows it. -/
theorem Derives.first {i : Item} {n : Nat} {t r : Text} (derives : Derives (.many i) n t r) :
    ∃ u, Derives (.one i) n t u ∧ (Space u (i.closing :: r) ∨
      ∃ v w, Space u (.ofChar ',' :: v) ∧ Space v w ∧ Derives (.many i) n w r) := by
  cases derives with
  | last one space => exact ⟨_, one, .inl space⟩
  | more one space space' many => exact ⟨_, one, .inr ⟨_, _, space, space', many⟩⟩

/-- The value, the name and the value of a member. -/
theorem Derives.of_member {n : Nat} {t r : Text} (derives : Derives (.one .member) n (.ofChar '"' :: t) r) :
    ∃ u v w, StringBody t u ∧ Space u (.ofChar ':' :: v) ∧ Space v w ∧ Derives (.one .value) n w r := by
  cases derives with
  | member body space space' value => exact ⟨_, _, _, body, space, space', value⟩

/-- A value before the beginning of a fraction or an exponent is a number that it goes
on with, where the text is the beginning of a derived one. -/
theorem Reaches.continued (strict : hooks.Strict) {stack : Nat} {symbol : Symbol} {t x s : Text}
    {i : Item} {v : Text} (reaches : Reaches hooks stack symbol t (.comma i v) x)
    (tail : skipSpace x ∈ numberTails) (more : skipSpace x ≠ []) {n : Nat} {r : Text}
    (derives : Derives symbol n (t ++ s) r) : BeginsNumber v := by
  generalize place : Place.comma i v = p at reaches
  induction reaches generalizing n r with
  | value | name | colon => cases place
  | @container stack j t u p other inner ih =>
    have nonempty : skipSpace t ≠ [] := by
      intro nothing
      have before := inner.suffix strict
      rw [nothing] at before
      rw [List.suffix_nil.mp before] at more
      exact more rfl
    rw [List.cons_append] at derives
    obtain ⟨m, space | ⟨w, space, items⟩⟩ := derives.of_opening
    · rcases skipSpace_cut rfl space (not_isSpace_closing j).1 with nothing | ⟨v', closed, -⟩
      · exact absurd nothing nonempty
      · exact absurd closed (other v')
    · have skipped := items.skipSpace_eq space
      rw [skipSpace_append s nonempty] at skipped
      rw [← skipped] at items
      exact ih tail more items place
  | @member stack t y u v' w p key colon inner ih =>
    rw [List.cons_append] at derives
    obtain ⟨u', v'', w', body, space, space', value⟩ := derives.of_member
    have nonempty : skipSpace v' ≠ [] := by
      intro nothing
      have before := inner.suffix strict
      rw [nothing] at before
      rw [List.suffix_nil.mp before] at more
      exact more rfl
    rcases scanString_beginning body with ⟨y', r', rfl, key', -⟩ | ⟨e, failed, -⟩
    · rw [key] at key'
      cases key'
      rcases skipSpace_cut rfl space (by decide) with nothing | ⟨v₂, colon', rfl⟩
      · rw [colon] at nothing
        cases nothing
      · rw [colon] at colon'
        cases colon'
        have skipped := value.skipSpace_eq space'
        rw [skipSpace_append s nonempty] at skipped
        rw [← skipped] at value
        exact ih tail more value place
    · rw [key] at failed
      cases failed
  | first _ ih =>
    obtain ⟨u, one, -⟩ := derives.first
    exact ih tail more one place
  | @after stack j t v' u a valueAt scanned =>
    cases place
    obtain ⟨w, one, next⟩ := derives.first
    have stop : Stops w := by
      rcases next with space | ⟨_, _, space, -, -⟩
      · exact space.stops (not_isSpace_closing i).2.1
      · exact space.stops (by decide)
    have cut : Cuts hooks n stack (.one i) t s w := one.cut strict rfl
    cases cut stop with
    | whole a' r' eq scanned' _ =>
      rw [scanned] at scanned'
      cases scanned'
      -- What follows the item is a comma or a bracket, and no tail of a number.
      have closed := afterItem_tail i tail
      rcases next with space | ⟨v'', _, space, -, -⟩
      · rcases skipSpace_cut eq space (not_isSpace_closing i).1 with nothing | ⟨v₂, bracket, -⟩
        · exact absurd nothing more
        · simp [afterItem, bracket] at closed
      · rcases skipSpace_cut eq space (by decide) with nothing | ⟨v₂, comma, -⟩
        · exact absurd nothing more
        · have other : CodePoint.ofChar ',' ≠ i.closing := (not_isSpace_closing i).2.2.symm
          simp [afterItem, comma, other] at closed
    | shorter a' tail' v'' scanned' _ valueAt' begins => rwa [valueAt.unique valueAt']
    | stopped failure failed _ =>
      rw [scanned] at failed
      cases failed
  | @later stack j t u w x a p scanned after inner ih =>
    obtain ⟨u', one, next⟩ := derives.first
    have stop : Stops u' := by
      rcases next with space | ⟨_, _, space, -, -⟩
      · exact space.stops (not_isSpace_closing j).2.1
      · exact space.stops (by decide)
    have nonempty : w ≠ [] := by
      rintro rfl
      rw [List.suffix_nil.mp (inner.suffix strict)] at more
      exact more rfl
    obtain ⟨v₁, space₁, rfl⟩ := afterItem_comma after
    have comma : skipSpace u = .ofChar ',' :: v₁ := space₁.skipSpace_eq fun c head => by
      cases head
      decide
    have cut : Cuts hooks n stack (.one j) t s u' := one.cut strict rfl
    cases cut stop with
    | whole a' r' eq scanned' _ =>
      rw [scanned] at scanned'
      cases scanned'
      rcases next with space | ⟨v₂, w, space, space', many⟩
      · rcases skipSpace_cut eq space (not_isSpace_closing j).1 with nothing | ⟨v₂, bracket, -⟩
        · rw [comma] at nothing
          cases nothing
        · rw [comma] at bracket
          injection bracket with head
          exact absurd head.symm (not_isSpace_closing j).2.2
      · rcases skipSpace_cut eq space (by decide) with nothing | ⟨v₃, comma', rfl⟩
        · rw [comma] at nothing
          cases nothing
        · rw [comma] at comma'
          cases comma'
          have skipped := many.skipSpace_eq space'
          rw [skipSpace_append s nonempty] at skipped
          rw [← skipped] at many
          exact ih tail more many place
    | shorter a' tail' v'' scanned' member _ _ =>
      rw [scanned] at scanned'
      cases scanned'
      rw [afterItem_numberTail j member] at after
      cases after
    | stopped failure failed _ =>
      rw [scanned] at failed
      cases failed

end Cut

end DataBridge.Json
