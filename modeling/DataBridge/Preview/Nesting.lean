import DataBridge.Json.Grammar
import DataBridge.Preview.Json

/-!
# The nesting guard

`_check_nesting` lexes with a regular expression, the decoder parses. Up to the
decoder's first error they see the same brackets: over a derived value the guard
comes back to the depth it started from (`Derives.levels`), and where the decoder
would open a container too many the guard refuses (`levels_of_recursion`). So no call
of the decoder needs more room than the guard allows (`checkNesting_bounds`).
-/

namespace DataBridge

open Json

/-- The guard at a depth, outside of strings. -/
def levels (limit depth : Nat) (text : Text) : Except Exc Unit :=
  nest limit depth (brackets false text)

/-! ## What the guard skips -/

/-- Neither a quote nor a bracket. -/
def Plain (c : CodePoint) : Prop :=
  c ≠ .ofChar '"' ∧ ¬ (c = .ofChar '[' ∨ c = .ofChar '{' ∨ c = .ofChar ']' ∨ c = .ofChar '}')

theorem brackets_plain {x r : Text} (plain : ∀ c ∈ x, Plain c) :
    brackets false (x ++ r) = brackets false r := by
  induction x with
  | nil => rfl
  | cons c x ih =>
    obtain ⟨quote, bracket⟩ := plain c List.mem_cons_self
    rw [List.cons_append, brackets.eq_def]
    simp only [if_neg quote, if_neg bracket, Bool.false_eq_true, if_false]
    exact ih fun d member => plain d (List.mem_cons_of_mem c member)

theorem plain_of_isSpace {c : CodePoint} (space : isSpace c = true) : Plain c := by
  simp only [isSpace, Bool.or_eq_true, decide_eq_true_eq] at space
  rcases space with ((rfl | rfl) | rfl) | rfl
  · exact ⟨by decide, by decide⟩
  · exact ⟨by decide, by decide⟩
  · exact ⟨by decide, by decide⟩
  · exact ⟨by decide, by decide⟩

theorem plain_of_isNumberChar {c : CodePoint} (char : isNumberChar c = true) : Plain c := by
  refine ⟨?_, ?_⟩
  · rintro rfl
    revert char
    decide
  · rintro (rfl | rfl | rfl | rfl)
    · revert char
      decide
    · revert char
      decide
    · revert char
      decide
    · revert char
      decide

theorem Json.Space.brackets {t r : Text} (space : Space t r) :
    brackets false t = brackets false r := by
  obtain ⟨s, rfl, spaces⟩ := space
  exact brackets_plain fun c member => plain_of_isSpace (spaces c member)

theorem plain_letter {c : CodePoint} (letter : .ofChar 'a' ≤ c ∧ c ≤ .ofChar 'z') : Plain c := by
  obtain ⟨low, high⟩ := letter
  refine ⟨?_, ?_⟩
  · rintro rfl
    exact absurd low (by decide)
  · rintro (rfl | rfl | rfl | rfl)
    · exact absurd low (by decide)
    · exact absurd high (by decide)
    · exact absurd low (by decide)
    · exact absurd high (by decide)

theorem plain_literal {x : Text} (literal : x ∈ literals) : ∀ c ∈ x, Plain c := by
  intro c member
  refine plain_letter ?_
  rcases mem_literals.mp literal with rfl | rfl | rfl
  · simp [lit] at member
    rcases member with rfl | rfl | rfl <;> decide
  · simp [lit] at member
    rcases member with rfl | rfl | rfl | rfl <;> decide
  · simp [lit] at member
    rcases member with rfl | rfl | rfl | rfl | rfl <;> decide

/-- Inside a string the guard skips what is no quote and no backslash. -/
theorem brackets_inside {c : CodePoint} {t : Text} (quote : c ≠ .ofChar '"')
    (backslash : c ≠ .ofChar '\\') : brackets true (c :: t) = brackets true t := by
  rw [brackets.eq_def]
  simp only [if_true, if_neg quote, if_neg backslash]

theorem hexDigit_plain {c : CodePoint} (digit : (Json.hexDigit c).isSome) :
    c ≠ .ofChar '"' ∧ c ≠ .ofChar '\\' := by
  refine ⟨?_, ?_⟩
  · rintro rfl
    revert digit
    decide
  · rintro rfl
    revert digit
    decide

/-- A string of the grammar is one token of the guard. -/
theorem Json.StringBody.brackets {t r : Text} (body : StringBody t r) :
    brackets true t = brackets false r := by
  have escaped : ∀ {e : CodePoint} {t : Text}, e ≠ .ofChar '\n' →
      DataBridge.brackets true (.ofChar '\\' :: e :: t) = DataBridge.brackets true t := by
    intro e t other
    have quote : CodePoint.ofChar '\\' ≠ .ofChar '"' := by decide
    rw [DataBridge.brackets.eq_def]
    simp only [if_true, if_neg quote, if_neg other]
  induction body with
  | close =>
    rw [DataBridge.brackets.eq_def]
    simp only [if_true]
  | plain quote backslash _ _ ih => rw [brackets_inside quote backslash, ih]
  | @escape e point t r simple _ ih =>
    have other : e ≠ .ofChar '\n' := by
      rintro rfl
      have none : simpleEscape (.ofChar '\n') = none := by decide
      rw [none] at simple
      cases simple
    rw [escaped other, ih]
  | @unicode a b c d point t r hex _ ih =>
    have digits := hexPoint_digits hex
    have plain : ∀ e ∈ [a, b, c, d], e ≠ .ofChar '"' ∧ e ≠ .ofChar '\\' :=
      fun e member => hexDigit_plain (digits e member)
    simp only [List.forall_mem_cons] at plain
    obtain ⟨ha, hb, hc, hd, -⟩ := plain
    rw [escaped (by decide), brackets_inside ha.1 ha.2, brackets_inside hb.1 hb.2,
      brackets_inside hc.1 hc.2, brackets_inside hd.1 hd.2, ih]

/-! ## Derived values -/

section Levels

variable {limit depth n : Nat} {t r : Text}

theorem levels_opening (i : Item) : levels limit depth (i.opening :: t) =
    if limit < depth + 1 then .error tooDeep else levels limit (depth + 1) t := by
  have seen : brackets false (i.opening :: t) = i.opening :: brackets false t := by
    rw [brackets.eq_def]
    cases i with
    | value => simp [Item.opening, show CodePoint.ofChar '[' ≠ .ofChar '"' by decide]
    | member => simp [Item.opening, show CodePoint.ofChar '{' ≠ .ofChar '"' by decide]
  have opens : i.opening = .ofChar '[' ∨ i.opening = .ofChar '{' := by
    cases i with
    | value => exact .inl rfl
    | member => exact .inr rfl
  rw [levels, seen, nest, if_pos opens]
  rfl

theorem levels_closing (i : Item) : levels limit depth (i.closing :: t) =
    if depth - 1 = 0 then .ok () else levels limit (depth - 1) t := by
  have seen : brackets false (i.closing :: t) = i.closing :: brackets false t := by
    rw [brackets.eq_def]
    cases i with
    | value => simp [Item.closing, show CodePoint.ofChar ']' ≠ .ofChar '"' by decide]
    | member => simp [Item.closing, show CodePoint.ofChar '}' ≠ .ofChar '"' by decide]
  have closes : ¬ (i.closing = .ofChar '[' ∨ i.closing = .ofChar '{') := by
    cases i with
    | value => decide
    | member => decide
  rw [levels, seen, nest, if_neg closes]
  rfl

/-- The guard passes over a string. -/
theorem levels_string (body : StringBody t r) :
    levels limit depth (.ofChar '"' :: t) = levels limit depth r := by
  have seen : brackets false (.ofChar '"' :: t) = brackets true t := by
    rw [brackets.eq_def]
    simp
  rw [levels, seen, body.brackets]
  rfl

theorem levels_space {c : CodePoint} (space : Space t (c :: r)) (plain : Plain c) :
    levels limit depth t = levels limit depth r := by
  have skipped : brackets false ([c] ++ r) = brackets false r :=
    brackets_plain fun d member => List.mem_singleton.mp member ▸ plain
  rw [levels, space.brackets]
  exact congrArg (nest limit depth) skipped

/-- The depth at which the guard leaves what a symbol derives. -/
def Leaves (limit depth : Nat) : Symbol → Text → Text → Prop
  | .one _, t, r => levels limit depth t = levels limit depth r
  | .many _, t, r => levels limit depth t =
    if depth - 1 = 0 then .ok () else levels limit (depth - 1) r

theorem levels_item {i : Item} {u v : Text} (one : Leaves limit depth (.one i) t u)
    {c : CodePoint} (space : Space u (c :: v)) (plain : Plain c) {w : Text} (space' : Space v w) :
    levels limit depth t = levels limit depth w := by
  rw [one, levels_space space plain, levels, space'.brackets]
  rfl

/-- The guard passes over a derived value that nests no deeper than the limit. -/
theorem Json.Derives.leaves {symbol : Symbol} (derives : Derives symbol n t r) (inside : 0 < depth)
    (shallow : depth + n ≤ limit) : Leaves limit depth symbol t r := by
  induction derives generalizing depth with
  | string body => exact levels_string body
  | number number eq =>
    rw [Leaves, eq]
    exact congrArg (nest limit depth) (brackets_plain fun c member =>
      plain_of_isNumberChar (number.numberChars member))
  | literal literal eq =>
    rw [Leaves, eq]
    exact congrArg (nest limit depth) (brackets_plain (plain_literal literal))
  | @empty i n t r space =>
    have open' : ¬ limit < depth + 1 := by omega
    have back : ¬ depth + 1 - 1 = 0 := by omega
    rw [Leaves, levels_opening, if_neg open', levels, space.brackets]
    refine (levels_closing i).trans ?_
    rw [if_neg back]
    rfl
  | @container i n t u r space _ ih =>
    have open' : ¬ limit < depth + 1 := by omega
    have back : ¬ depth + 1 - 1 = 0 := by omega
    rw [Leaves, levels_opening, if_neg open', levels, space.brackets]
    refine (ih depth.succ_pos (by omega)).trans ?_
    rw [if_neg back]
    rfl
  | member body space space' _ ih =>
    have key : Leaves limit depth (.one .value) _ _ := levels_string body
    exact (levels_item key space ⟨by decide, by decide⟩ space').trans (ih inside shallow)
  | @last i n t u r _ space ih =>
    have closed := (congrArg (nest limit depth) space.brackets).trans (levels_closing i)
    exact Eq.trans (ih inside shallow) closed
  | more _ space space' _ ih₁ ih₂ =>
    have rest := ih₂ inside shallow
    have item := levels_item (ih₁ inside shallow) space ⟨by decide, by decide⟩ space'
    exact item.trans rest

end Levels

/-! ## Where the decoder has no more room -/

section Recursion

variable {ε N : Type} {hooks : Hooks ε N} {limit depth stack : Nat}

/-- Where the item function has no more room, the guard refuses. -/
def Guarded {α : Type} (limit depth : Nat) (item : Text → Scanned ε α) : Prop :=
  ∀ t, item t = .error .recursion → levels limit depth t = .error tooDeep

theorem guarded_scanItem {scan : Text → Scanned ε (Value N)} (guarded : Guarded limit depth scan)
    (i : Item) : Guarded limit depth (scanItem scan i) := by
  cases i with
  | value => exact guarded
  | member =>
    intro t deep
    rcases scanMember_error deep with ⟨e, impossible⟩ | ⟨u, x, v, w, rfl, key, skipped, deep⟩
    · cases impossible
    · have space := space_skipSpace v
      rw [skipped] at space
      have one : Leaves limit depth (.one .value) _ _ := levels_string (scanString_sound key)
      rw [levels_item one space ⟨by decide, by decide⟩ (space_skipSpace w)]
      exact guarded _ deep

theorem Json.Items.levels {α : Type} {i : Item} {item : Text → Scanned ε α}
    (reads : Reads i stack item) (guarded : Guarded limit depth item) (inside : 0 < depth)
    (room : depth + stack ≤ limit) {t : Text} (items : Items i.closing item t (.error .recursion)) :
    levels limit depth t = .error tooDeep := by
  generalize ended : (.error .recursion : Scanned ε (List α)) = result at items
  induction items with
  | failed scanned =>
    cases ended
    exact guarded _ scanned
  | later scanned after _ ih =>
    cases ended
    obtain ⟨v, space, rfl⟩ := afterItem_comma after
    have one := (reads _ _ _ scanned).leaves inside room
    rw [levels_item one space ⟨by decide, by decide⟩ (space_skipSpace v)]
    exact ih rfl
  | «open» _ _ | last _ _ | more _ _ _ _ => cases ended

/-- Numbers and literals need no room. -/
theorem plain_not_deep {t : Text} :
    (scanLiteral hooks t).getD (scanNumber hooks t) ≠ .error .recursion := by
  intro deep
  cases literal : scanLiteral hooks t with
  | none =>
    rw [literal, Option.getD_none] at deep
    rcases scanNumber_error deep with ⟨impossible, -⟩ | ⟨_, _, impossible, -⟩
    · cases impossible
    · cases impossible
  | some result =>
    rw [literal, Option.getD_some] at deep
    subst deep
    obtain ⟨_, _, impossible, -⟩ := scanLiteral_error literal
    cases impossible

/-- The guard refuses before the decoder opens a container too many. -/
theorem guarded_scanOnce (strict : hooks.Strict) (room : depth + stack = limit) :
    Guarded limit depth (scanOnce hooks stack) := by
  intro t
  refine scanOnce_induction strict (motive := fun stack t result => ∀ depth, depth + stack = limit →
    result = .error .recursion → levels limit depth t = .error tooDeep) ?_ ?_ ?_ ?_ ?_
    stack t depth room
  · intro _ _ _ impossible
    cases impossible
  · intro _ t _ _ impossible
    split at impossible
    · cases impossible
    · cases impossible
  · intro i t depth room _
    rw [levels_opening, if_pos (by omega)]
  · intro stack i t result ih container depth room deep
    rw [map_error deep] at container
    have guarded : Guarded limit (depth + 1) (scanOnce hooks stack) :=
      fun t => ih t (depth + 1) (by omega)
    rw [levels_opening, if_neg (by omega), levels, (space_skipSpace t).brackets]
    cases container with
    | items _ items =>
      exact items.levels (reads_scanItem (reads_scanOnce strict stack) i) (guarded_scanItem guarded i)
        depth.succ_pos (by omega)
  · exact fun _ _ _ _ _ _ _ deep => absurd deep plain_not_deep

end Recursion

/-! ## The calls of the decoder -/

section Calls

variable {Φ : Type} {toFloat : Text → Φ} {isFinite : Φ → Bool}

theorem strict_decoder : (decoder toFloat isFinite).Strict := fun _ => ⟨_, rfl⟩

theorem checkNesting_opening {i : Item} {t : Text} {limit : Nat} :
    checkNesting (i.opening :: t) limit = levels limit 0 (i.opening :: t) := by
  have opens : i.opening = .ofChar '[' ∨ i.opening = .ofChar '{' := by
    cases i with
    | value => exact .inl rfl
    | member => exact .inr rfl
  simp only [checkNesting, if_pos opens, levels]

theorem checkNesting_other {c : CodePoint} {t : Text} {limit : Nat}
    (containers : ∀ i : Item, c ≠ i.opening) : checkNesting (c :: t) limit = .ok () := by
  have plain : ¬ (c = .ofChar '[' ∨ c = .ofChar '{') := by
    rintro (same | same)
    · exact containers .value same
    · exact containers .member same
  simp only [checkNesting, if_neg plain]

/-- After the guard a decoder holds at most `limit` containers open at once. -/
theorem scanOnce_guarded {ε N : Type} {hooks : Hooks ε N} (strict : hooks.Strict) {text : Text}
    {limit : Nat} (guarded : checkNesting text limit = .ok ()) :
    scanOnce hooks limit text ≠ .error .recursion := by
  intro deep
  cases head_of text with
  | nil =>
    rw [scanOnce_nil] at deep
    cases deep
  | string t =>
    rw [scanOnce_string] at deep
    split at deep
    · cases deep
    · cases deep
  | container i t =>
    have refused := guarded_scanOnce strict (Nat.zero_add limit) _ deep
    rw [← checkNesting_opening, guarded] at refused
    cases refused
  | other c t quote containers =>
    rw [scanOnce_other quote containers] at deep
    exact plain_not_deep deep

/-- The guard lets every value of the grammar pass that nests no deeper than its limit. -/
theorem checkNesting_derived {text r : Text} {n limit : Nat}
    (derives : Derives (.one .value) n text r) (shallow : n ≤ limit) :
    checkNesting text limit = .ok () := by
  cases derives with
  | string _ => exact checkNesting_other fun i => by cases i <;> decide
  | number number eq =>
    obtain ⟨c, rest, rfl, begin⟩ := number.head
    rw [eq]
    refine checkNesting_other fun i => ?_
    rcases begin with digit | rfl
    · rintro rfl
      cases i with
      | value => exact absurd digit (by decide)
      | member => exact absurd digit (by decide)
    · cases i with
      | value => decide
      | member => decide
  | literal literal eq =>
    rw [eq]
    rcases mem_literals.mp literal with rfl | rfl | rfl
    all_goals exact checkNesting_other fun i => by cases i <;> decide
  | @empty i n t r space =>
    rw [checkNesting_opening, levels_opening, if_neg (by omega), levels, space.brackets]
    exact levels_closing i
  | @container i n t u r space items =>
    rw [checkNesting_opening, levels_opening, if_neg (by omega), levels, space.brackets]
    exact items.leaves Nat.one_pos (by omega)

theorem malformed_ne {message : String} : malformed message ≠ .runtimeError := by
  intro impossible
  cases impossible

/-- The hooks refuse with `MALFORMED_FILE`. -/
theorem refuses_malformed :
    (decoder toFloat isFinite).Refuses fun e => ∃ message, e = malformed message := by
  intro x e refused
  rcases refused with refused | refused | refused
  · simp only [decoder, boundedInt] at refused
    split at refused
    · cases refused
      exact ⟨_, rfl⟩
    · split at refused
      · split at refused
        · cases refused
        · cases refused
      · cases refused
  · simp only [decoder, finiteFloat] at refused
    split at refused
    · cases refused
    · cases refused
      exact ⟨_, rfl⟩
  · cases refused
    exact ⟨_, rfl⟩

theorem refuses_decoder : (decoder toFloat isFinite).Refuses fun e => e ≠ .runtimeError := by
  intro x e refused
  obtain ⟨message, rfl⟩ := refuses_malformed x e refused
  exact malformed_ne

theorem nest_error {limit depth : Nat} {tokens : List CodePoint} {e : Exc}
    (refused : nest limit depth tokens = .error e) : e = tooDeep := by
  induction tokens generalizing depth with
  | nil => cases refused
  | cons bracket tokens ih =>
    rw [nest] at refused
    split at refused
    · split at refused
      · cases refused
        rfl
      · exact ih refused
    · split at refused
      · cases refused
      · exact ih refused

/-- The guard refuses with its own error. -/
theorem checkNesting_error {text : Text} {limit : Nat} {e : Exc}
    (refused : checkNesting text limit = .error e) : e = tooDeep := by
  unfold checkNesting at refused
  split at refused
  · cases refused
  · split at refused
    · exact nest_error refused
    · cases refused

variable (toFloat isFinite) in
/-- After the guard more room changes nothing. -/
theorem rawDecode_guarded {text : Text} {limit stack : Nat} (room : limit ≤ stack)
    (guarded : checkNesting text limit = .ok ()) :
    rawDecode (decoder toFloat isFinite) stack text =
      rawDecode (decoder toFloat isFinite) limit text ∧
    rawDecode (decoder toFloat isFinite) stack text ≠ .error .recursion := by
  have safe : scanOnce (decoder toFloat isFinite) limit text ≠ .error .recursion :=
    scanOnce_guarded strict_decoder guarded
  rcases deeper_scanOnce strict_decoder room text with deep | same
  · exact absurd deep safe
  · exact ⟨same, fun deep => safe (same.symm.trans deep)⟩

theorem decoderFailure_ne {stack : Nat} {text : Text} {failure : Failure Exc}
    {decode : DecodeError → Exc} (plain : ∀ e, decode e ≠ .runtimeError)
    (failed : scanOnce (decoder toFloat isFinite) stack text = .error failure)
    (safe : failure ≠ .recursion) : decoderFailure decode failure ≠ .runtimeError := by
  cases failure with
  | decode e => exact plain e
  | recursion => exact absurd rfl safe
  | refused e => exact refuses_scanOnce strict_decoder refuses_decoder stack text e failed

theorem decode_error {ε N : Type} {hooks : Hooks ε N} {stack : Nat} {text : Text} {failure : Failure ε}
    (failed : decode hooks stack text = .error failure) :
    scanOnce hooks stack (skipSpace text) = .error failure ∨ ∃ e, failure = .decode e := by
  unfold decode rawDecode at failed
  split at failed
  · rename_i scanned
    cases failed
    exact .inl scanned
  · split at failed
    · cases failed
    · cases failed
      exact .inr ⟨_, rfl⟩

/-- A complete file is decoded with room for `MAX_JSON_DEPTH + 1` containers. -/
theorem jsonDocument_bounded {stack : Nat} (room : maxJsonDepth + 1 ≤ stack) (text : Text)
    (limit : Nat) :
    jsonDocument toFloat isFinite stack text limit =
      jsonDocument toFloat isFinite (maxJsonDepth + 1) text limit ∧
    jsonDocument toFloat isFinite stack text limit ≠ .error .runtimeError := by
  unfold jsonDocument
  cases guarded : checkNesting (skipSpace text) (maxJsonDepth + 1) with
  | error e =>
    refine ⟨rfl, fun impossible => ?_⟩
    rw [checkNesting_error guarded] at impossible
    cases impossible
  | ok _ =>
    obtain ⟨same, safe⟩ := rawDecode_guarded toFloat isFinite room guarded
    simp only [bind, Except.bind]
    refine ⟨by rw [decode, decode, same], ?_⟩
    cases decoded : decode (decoder toFloat isFinite) stack text with
    | error failure =>
      intro raised
      rcases decode_error decoded with failed | ⟨e, rfl⟩
      · refine decoderFailure_ne (fun _ => malformed_ne) failed ?_ (Except.error.inj raised)
        rintro rfl
        exact safe failed
      · cases raised
    | ok value =>
      cases value with
      | array items =>
        dsimp only
        split
        · intro impossible
          cases impossible
        · exact fun impossible => malformed_ne (Except.error.inj impossible)
      | _ => exact fun impossible => malformed_ne (Except.error.inj impossible)

theorem endOfArray_ne {rest : Text} {rows : List (Row Φ)} :
    endOfArray rest rows ≠ .error .runtimeError := by
  unfold endOfArray
  split
  · intro impossible
    cases impossible
  · exact fun impossible => malformed_ne (Except.error.inj impossible)

theorem skipSpace_length_le (text : Text) : (skipSpace text).length ≤ text.length :=
  (space_skipSpace text).length_le

/-- Each pass of `_json_prefix` decodes one entry with room for `MAX_JSON_DEPTH`
containers, and takes at least one character. -/
theorem prefixLoop_bounded {stack : Nat} (room : maxJsonDepth ≤ stack) (limit : Nat) {fuel : Nat}
    {position : Text} (enough : position.length < fuel) (rows : List (Row Φ)) (afterComma : Bool) :
    prefixLoop toFloat isFinite stack limit fuel position rows afterComma =
      prefixLoop toFloat isFinite maxJsonDepth limit fuel position rows afterComma ∧
    prefixLoop toFloat isFinite stack limit fuel position rows afterComma ≠
      .error .runtimeError := by
  induction fuel generalizing position rows afterComma with
  | zero => exact absurd enough (Nat.not_lt_zero _)
  | succ fuel ih =>
    have shorter := skipSpace_length_le position
    simp only [prefixLoop]
    cases skipped : skipSpace position with
    | nil => exact ⟨rfl, fun impossible => by cases impossible⟩
    | cons c rest =>
      rw [skipped, List.length_cons] at shorter
      by_cases close : c = .ofChar ']'
      · simp only [if_pos close]
        refine ⟨trivial, ?_⟩
        split
        · exact fun impossible => malformed_ne (Except.error.inj impossible)
        · exact endOfArray_ne
      · simp only [if_neg close]
        cases guarded : checkNesting (c :: rest) maxJsonDepth with
        | error e =>
          refine ⟨rfl, fun impossible => ?_⟩
          rw [checkNesting_error guarded] at impossible
          cases impossible
        | ok _ =>
          obtain ⟨same, safe⟩ := rawDecode_guarded toFloat isFinite room guarded
          rw [← same]
          cases scanned : rawDecode (decoder toFloat isFinite) stack (c :: rest) with
          | error failure =>
            refine ⟨rfl, fun raised => ?_⟩
            refine decoderFailure_ne (fun e => ?_) scanned ?_ (Except.error.inj raised)
            · split
              · intro impossible
                cases impossible
              · exact malformed_ne
            · rintro rfl
              exact safe scanned
          | ok found =>
            obtain ⟨item, left⟩ := found
            have taken : left.length < (c :: rest).length :=
              (reads_scanOnce strict_decoder stack _ _ _ scanned).length_lt
            rw [List.length_cons] at taken
            have shorter' := skipSpace_length_le left
            dsimp only
            cases asRow item with
            | none => exact ⟨rfl, fun impossible => malformed_ne (Except.error.inj impossible)⟩
            | some row =>
              dsimp only
              cases skipped' : skipSpace left with
              | nil =>
                refine ⟨rfl, ?_⟩
                dsimp only
                split
                · intro impossible
                  cases impossible
                · intro impossible
                  cases impossible
              | cons delimiter rest =>
                rw [skipped', List.length_cons] at shorter'
                dsimp only
                split
                · exact ⟨rfl, fun impossible => malformed_ne (Except.error.inj impossible)⟩
                · split
                  · exact ⟨rfl, fun impossible => by cases impossible⟩
                  · split
                    · exact ⟨rfl, endOfArray_ne⟩
                    · exact ih (by omega) _ _

theorem jsonPrefix_bounded {stack : Nat} (room : maxJsonDepth ≤ stack) (text : Text) (limit : Nat) :
    jsonPrefix toFloat isFinite stack text limit =
      jsonPrefix toFloat isFinite maxJsonDepth text limit ∧
    jsonPrefix toFloat isFinite stack text limit ≠ .error .runtimeError := by
  unfold jsonPrefix
  split
  · exact ⟨rfl, fun impossible => malformed_ne (Except.error.inj impossible)⟩
  · split
    · exact prefixLoop_bounded room limit (Nat.lt_succ_self _) [] false
    · exact ⟨rfl, fun impossible => malformed_ne (Except.error.inj impossible)⟩

/-- No call of the decoder holds more than `MAX_JSON_DEPTH + 1` containers open at
once: after the guard no decoder needs more room than its limit, so a larger stack
changes neither kind of preview. And the guard refuses no JSON value that nests
within its limit. -/
theorem nesting_guarded {ε N : Type} (hooks : Hooks ε N) (strict : hooks.Strict)
    (toFloat : Text → Φ) (isFinite : Φ → Bool) :
    (∀ text limit, checkNesting text limit = .ok () →
      scanOnce hooks limit text ≠ .error .recursion) ∧
    (∀ stack, maxJsonDepth + 1 ≤ stack → ∀ text limit,
      (jsonDocument toFloat isFinite stack text limit =
          jsonDocument toFloat isFinite (maxJsonDepth + 1) text limit ∧
        jsonDocument toFloat isFinite stack text limit ≠ .error .runtimeError) ∧
      (jsonPrefix toFloat isFinite stack text limit =
          jsonPrefix toFloat isFinite maxJsonDepth text limit ∧
        jsonPrefix toFloat isFinite stack text limit ≠ .error .runtimeError)) ∧
    ∀ text rest n limit, Derives (.one .value) n text rest → n ≤ limit →
      checkNesting text limit = .ok () := by
  refine ⟨fun text limit => scanOnce_guarded strict, fun stack room text limit => ?_,
    fun text rest n limit => checkNesting_derived⟩
  exact ⟨jsonDocument_bounded room text limit, jsonPrefix_bounded (by omega) text limit⟩

theorem nesting_guarded_decoder :
    scanOnce (decoder (fun text => text) fun _ => true) 1 (lit "[]") ≠ .error .recursion :=
  (nesting_guarded (decoder (fun text => text) fun _ => true) strict_decoder (fun text => text)
    fun _ => true).1 (lit "[]") 1 (by decide)

end Calls

end DataBridge
