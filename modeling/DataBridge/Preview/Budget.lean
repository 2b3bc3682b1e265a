import DataBridge.Json.Cuts
import DataBridge.Preview.Nesting

/-!
# Arrays cut by the byte budget

`_json_prefix` on the beginning of a file: what it returns where the complete file is a
valid preview (`jsonPrefix_of_jsonDocument`), and whether more bytes can complete
what it blames on the budget (`jsonPrefix_incomplete`).
-/

namespace DataBridge

open Json

/-- `DataBridgeError` with the code `PREVIEW_LIMIT_EXCEEDED`. -/
def LimitExceeded (e : Exc) : Prop := ∃ message, e = .ofCode .previewLimitExceeded message

theorem limitExceeded_incomplete : LimitExceeded incomplete := ⟨_, rfl⟩

theorem not_limitExceeded_malformed {message : String} : ¬ LimitExceeded (malformed message) := by
  rintro ⟨text, same⟩
  cases same

/-! ## The decision of `_cut_by_budget` -/

theorem hex_digits {hex : Text} : (hex.all fun c => (Json.hexDigit c).isSome) = true ↔
    ∀ c ∈ hex, (Json.hexDigit c).isSome := List.all_eq_true

theorem cutByBudget_value {x : Text} : cutByBudget ⟨.value, x⟩ = true ↔
    x = [] ∨ x = lit "-" ∨ ∃ y ∈ literals, x <+: y := by
  have names : [lit "true", lit "false", lit "null"].any (fun literal => x.isPrefixOf literal) = true ↔
      ∃ y ∈ literals, x <+: y := by
    simp only [List.any_eq_true, List.isPrefixOf_iff_prefix, List.mem_cons, List.not_mem_nil,
      or_false, mem_literals]
    constructor
    · rintro ⟨y, rfl | rfl | rfl, before⟩
      · exact ⟨_, .inr (.inl rfl), before⟩
      · exact ⟨_, .inr (.inr rfl), before⟩
      · exact ⟨_, .inl rfl, before⟩
    · rintro ⟨y, rfl | rfl | rfl, before⟩
      · exact ⟨_, .inr (.inr rfl), before⟩
      · exact ⟨_, .inl rfl, before⟩
      · exact ⟨_, .inr (.inl rfl), before⟩
  simp only [cutByBudget, Bool.or_eq_true, decide_eq_true_eq, names, or_assoc]

theorem cutByBudget_comma {x : Text} : cutByBudget ⟨.comma, x⟩ = true ↔ x ∈ numberTails :=
  decide_eq_true_iff

/-- A fault at the end of the text is blamed on the budget, but for a complete escape. -/
theorem cutByBudget_cutAt {e : DecodeError} (cut : CutAt e) :
    cutByBudget e = true ∨ CutEscape e := by
  cases cut with
  | string cut =>
    by_cases escape : CutEscape e
    · exact .inr escape
    · left
      obtain ⟨message, suffix⟩ := e
      rcases cut with message | ⟨message, hex, same, short, digits⟩
      · obtain rfl : _ = Message.unterminated := message
        rfl
      · obtain rfl : _ = Message.unicodeEscape := message
        obtain rfl : suffix = _ := same
        have three : hex.length ≤ 3 := by
          by_contra longer
          exact escape ⟨rfl, hex, rfl, by omega, digits⟩
        simp only [cutByBudget, Bool.and_eq_true, decide_eq_true_eq, hex_digits]
        exact ⟨⟨trivial, three⟩, digits⟩
  | value ends => exact .inl (cutByBudget_value.mpr ends)
  | comma tail => exact .inl (cutByBudget_comma.mpr tail)
  | name => exact .inl rfl
  | colon => exact .inl rfl

/-- An error about a cut string is blamed on the budget, but for a complete escape. -/
theorem cutByBudget_string {start t : Text} {e : DecodeError} (failed : scanString start t = .error e) :
    cutByBudget e = true ↔ CutString e ∧ ¬ CutEscape e := by
  constructor
  · intro cut
    obtain ⟨message, suffix⟩ := e
    rcases scanString_message failed with rfl | rfl | rfl | rfl
    · refine ⟨.inl rfl, ?_⟩
      rintro ⟨other, -⟩
      cases other
    · cases suffix with
      | nil => cases cut
      | cons u hex =>
        simp only [cutByBudget, Bool.and_eq_true, decide_eq_true_eq, hex_digits] at cut
        obtain ⟨⟨rfl, short⟩, digits⟩ := cut
        refine ⟨.inr ⟨rfl, hex, rfl, by omega, digits⟩, ?_⟩
        rintro ⟨-, hex', same, four, -⟩
        cases same
        omega
    · cases cut
    · cases cut
  · rintro ⟨cut, other⟩
    exact (cutByBudget_cutAt (.string cut)).resolve_right other

section Budget

variable {Φ : Type} (toFloat : Text → Φ) (isFinite : Φ → Bool) (stack : Nat)

/-! ## The entries of the array -/

/-- `_json_prefix` looks for an entry at `position`, with the rows before it. -/
inductive EntryAt (text : Text) : List (Row Φ) → (position : Text) → Prop
  | start {position : Text} : skipSpace text = .ofChar '[' :: position → EntryAt text [] position
  | next {rows : List (Row Φ)} {position rest next : Text} {row : Row Φ} :
    EntryAt text rows position → (∀ r, skipSpace position ≠ .ofChar ']' :: r) →
    checkNesting (skipSpace position) maxJsonDepth = .ok () →
    rawDecode (decoder toFloat isFinite) stack (skipSpace position) = .ok (.object row, rest) →
    skipSpace rest = .ofChar ',' :: next → EntryAt text (rows ++ [row]) next

/-- `_json_prefix` decodes an entry of the text, and the decoder comes to a place in it. -/
def EntryReaches (text : Text) (limit : Nat) (place : Place) (u : Text) : Prop :=
  ∃ rows position, EntryAt toFloat isFinite stack text rows position ∧ rows.length < limit ∧
    (∀ r, skipSpace position ≠ .ofChar ']' :: r) ∧
    checkNesting (skipSpace position) maxJsonDepth = .ok () ∧
    Reaches (decoder toFloat isFinite) stack (.one .value) (skipSpace position) place u

variable {toFloat isFinite stack} {text : Text} {limit : Nat}

theorem asRow_eq_some {item : Value (JsonNumber Φ)} {row : Row Φ} :
    asRow item = some row ↔ item = .object row := by
  cases item with
  | object members =>
    constructor
    · intro same
      cases same
      rfl
    · intro same
      cases same
      rfl
  | null | bool | number | string | array =>
    exact iff_of_false (fun same => by cases same) fun same => by cases same

/-- The entries are items of the array that the text is the beginning of. -/
theorem EntryAt.reaches {rows : List (Row Φ)} {position u : Text} {place : Place}
    (entry : EntryAt toFloat isFinite stack text rows position)
    (opened : ∀ r, skipSpace position ≠ .ofChar ']' :: r)
    (reaches : Reaches (decoder toFloat isFinite) stack (.many .value) (skipSpace position) place u) :
    Reaches (decoder toFloat isFinite) (stack + 1) (.one .value) (skipSpace text) place u := by
  induction entry with
  | start array =>
    rw [array]
    exact .container opened reaches
  | @next rows position rest next row _ before _ decoded comma ih =>
    refine ih before ?_
    have space := space_skipSpace rest
    rw [comma] at space
    have after : afterItem Item.value.closing rest = .ok (false, skipSpace next) :=
      afterItem_of_comma (i := .value) space
    have scanned : scanItem (scanOnce (decoder toFloat isFinite) stack) .value (skipSpace position) =
        .ok ((.object row : Item.value.Found (JsonNumber Φ)), rest) := decoded
    exact .later scanned after reaches

/-- `_json_prefix` goes on at an entry that it comes to. -/
theorem EntryAt.loop {rows : List (Row Φ)} {position : Text}
    (entry : EntryAt toFloat isFinite stack text rows position) (few : rows.length < limit) :
    ∃ fuel afterComma, position.length ≤ fuel ∧ jsonPrefix toFloat isFinite stack text limit =
      prefixLoop toFloat isFinite stack limit (fuel + 1) position rows afterComma := by
  induction entry with
  | @start position array =>
    refine ⟨position.length, false, le_refl _, ?_⟩
    simp only [jsonPrefix, array, if_true]
  | @next rows position rest next row _ opened guarded decoded comma ih =>
    rw [List.length_append, List.length_singleton] at few
    obtain ⟨fuel, afterComma, enough, eq⟩ := ih (by omega)
    have shorter₁ := skipSpace_length_le position
    have shorter₂ := skipSpace_length_le rest
    have taken : rest.length < (skipSpace position).length :=
      (reads_scanOnce strict_decoder stack _ _ _ decoded).length_lt
    rw [comma, List.length_cons] at shorter₂
    obtain ⟨fuel, rfl⟩ : ∃ n, fuel = n + 1 := Nat.exists_eq_add_one.mpr (by omega)
    refine ⟨fuel, true, by omega, ?_⟩
    rw [eq, prefixLoop]
    cases head : skipSpace position with
    | nil =>
      rw [head] at taken
      cases taken
    | cons c u =>
      have other : c ≠ .ofChar ']' := by
        rintro rfl
        exact opened u head
      rw [head] at guarded decoded
      have fewer : (rows ++ [row]).length ≠ limit := by
        rw [List.length_append, List.length_singleton]
        omega
      have bracket : CodePoint.ofChar ',' ≠ .ofChar ']' := by decide
      simp only [if_neg other, guarded, decoded, asRow, comma, if_neg fewer, if_neg bracket,
        ne_eq, not_true_eq_false, false_and, if_false]

/-- `_json_prefix` raises what the decoder fails with at an entry. -/
theorem EntryReaches.raises {place : Place} {u : Text} {failure : Failure Exc}
    (entry : EntryReaches toFloat isFinite stack text limit place u)
    (fault : Fault (decoder toFloat isFinite) place u failure) :
    jsonPrefix toFloat isFinite stack text limit =
      .error (decoderFailure (fun e => if cutByBudget e then incomplete
        else malformed "The JSON file is malformed") failure) := by
  obtain ⟨rows, position, entry, few, opened, guarded, reaches⟩ := entry
  obtain ⟨fuel, afterComma, -, eq⟩ := entry.loop few
  have failed : scanOnce (decoder toFloat isFinite) stack (skipSpace position) = .error failure :=
    reaches.fails strict_decoder fault
  rw [eq, prefixLoop]
  cases head : skipSpace position with
  | nil =>
    rw [head, scanOnce_nil] at failed
    cases failed
    rfl
  | cons c u =>
    have other : c ≠ .ofChar ']' := by
      rintro rfl
      exact opened u head
    rw [head] at guarded failed
    simp only [if_neg other, guarded, rawDecode, failed]

/-! ## What more bytes can complete -/

/-- The text ends, behind a complete value inside an entry, with the beginning of a
fraction or an exponent that is no part of that value. -/
def Stray (toFloat : Text → Φ) (isFinite : Φ → Bool) (stack : Nat) (text : Text) (limit : Nat) : Prop :=
  ∃ i value u, EntryReaches toFloat isFinite stack text limit (.comma i value) u ∧
    skipSpace u ∈ numberTails ∧ skipSpace u ≠ [] ∧ ¬ BeginsNumber value

/-- What is blamed on the budget can be completed, but for a stray tail. -/
theorem Fault.continues {place : Place} {u : Text} {e : DecodeError}
    (fault : Fault (decoder toFloat isFinite) place u (.decode e)) (cut : cutByBudget e = true) :
    Continues place u ∨ ∃ i value, place = .comma i value ∧ skipSpace u ∈ numberTails ∧
      skipSpace u ≠ [] ∧ ¬ BeginsNumber value := by
  cases fault with
  | nothing => exact .inl ⟨zero, 0, derives_zero 0⟩
  | string failed =>
    obtain ⟨s, body⟩ := scanString_resume failed ((cutByBudget_string failed).mp cut).1
    exact .inl ⟨s, 0, .string body⟩
  | @plain c t _ quote containers failed =>
    left
    cases literal : scanLiteral (decoder toFloat isFinite) (c :: t) with
    | some result =>
      rw [literal, Option.getD_some] at failed
      subst failed
      obtain ⟨_, _, impossible, -⟩ := scanLiteral_error literal
      cases impossible
    | none =>
      rw [literal, Option.getD_none] at failed
      rcases scanNumber_error failed with ⟨same, -⟩ | ⟨_, _, impossible, -⟩
      · cases same
        rcases cutByBudget_value.mp cut with nothing | minus | ⟨y, literal, s, eq⟩
        · cases nothing
        · have number : IsNumber (lit "-" ++ zero) := by
            exact ⟨lit "-", zero, [], [], rfl, .inr rfl, .inl rfl, .inl rfl, .inl rfl⟩
          exact ⟨zero, 0, .number number (by rw [minus, List.append_nil])⟩
        · exact ⟨s, 0, .literal literal (by rw [eq, List.append_nil])⟩
      · cases impossible
  | key failed =>
    obtain ⟨s, body⟩ := scanString_resume failed ((cutByBudget_string failed).mp cut).1
    exact .inl (.inr ⟨_, s, rfl, body⟩)
  | name => exact .inl (.inl (of_decide_eq_true cut))
  | colon =>
    have nothing : skipSpace u = [] := of_decide_eq_true cut
    exact .inl nothing
  | @comma i value u _ failed =>
    obtain rfl := afterItem_error failed
    have tail := cutByBudget_comma.mp cut
    by_cases nothing : skipSpace u = []
    · exact .inl (.inl nothing)
    · by_cases begins : BeginsNumber value
      · exact .inl (.inr begins)
      · exact .inr ⟨i, value, rfl, tail, nothing, begins⟩

/-- The text ends at a place of the array that more text completes. -/
def Repairable (toFloat : Text → Φ) (isFinite : Φ → Bool) (stack : Nat) (text : Text) : Prop :=
  ∃ place u, Reaches (decoder toFloat isFinite) (stack + 1) (.one .value) (skipSpace text) place u ∧
    Continues place u

theorem Repairable.isJson (repairable : Repairable toFloat isFinite stack text) :
    ∃ s, IsJson (text ++ s) := by
  obtain ⟨place, u, reaches, continues⟩ := repairable
  obtain ⟨s, n, derives⟩ := reaches.resume strict_decoder continues
  exact ⟨s, n, _, _, (space_skipSpace text).append s, derives, .refl []⟩

/-- What `_json_prefix` blames on the budget. -/
theorem prefixLoop_exceeded {rows : List (Row Φ)} {fuel : Nat} {position : Text} {afterComma : Bool}
    {e : Exc} (entry : EntryAt toFloat isFinite stack text rows position) (few : rows.length < limit)
    (raised : prefixLoop toFloat isFinite stack limit fuel position rows afterComma = .error e)
    (exceeded : LimitExceeded e) (other : e ≠ tooDeep) :
    Repairable toFloat isFinite stack text ∨ Stray toFloat isFinite stack text limit := by
  have plain : ∀ {message : String}, ¬ (.error (malformed message) : Except Exc (List (Row Φ))) =
      .error e := by
    intro message same
    rw [← Except.error.inj same] at exceeded
    exact not_limitExceeded_malformed exceeded
  have ended : ∀ {rest : Text} {rows : List (Row Φ)}, endOfArray rest rows ≠ .error e := by
    intro rest rows same
    unfold endOfArray at same
    split at same
    · cases same
    · exact plain same
  induction fuel generalizing rows position afterComma with
  | zero =>
    cases raised
    obtain ⟨_, impossible⟩ := exceeded
    cases impossible
  | succ fuel ih =>
    rw [prefixLoop] at raised
    cases head : skipSpace position with
    | nil =>
      have opened : ∀ r, skipSpace position ≠ .ofChar ']' :: r := by simp [head]
      have reaches := entry.reaches opened (.first .value)
      rw [head] at reaches
      exact .inl ⟨_, _, reaches, zero, 0, derives_zero 0⟩
    | cons c u =>
      simp only [head] at raised
      by_cases close : c = .ofChar ']'
      · simp only [if_pos close] at raised
        split at raised
        · exact absurd raised plain
        · exact absurd raised ended
      · have opened : ∀ r, skipSpace position ≠ .ofChar ']' :: r := by
          intro r same
          rw [head] at same
          injection same with same
          exact close same
        simp only [if_neg close] at raised
        cases guarded : checkNesting (c :: u) maxJsonDepth with
        | error e' =>
          simp only [guarded] at raised
          cases raised
          exact absurd (checkNesting_error guarded) other
        | ok _ =>
          simp only [guarded] at raised
          rw [← head] at guarded
          cases scanned : rawDecode (decoder toFloat isFinite) stack (c :: u) with
          | error failure =>
            simp only [scanned] at raised
            rw [← head] at scanned
            rcases scanOnce_failed strict_decoder scanned with rfl | ⟨place, x, reaches, fault⟩
            · cases raised
              obtain ⟨_, impossible⟩ := exceeded
              cases impossible
            · cases failure with
              | recursion =>
                cases raised
                obtain ⟨_, impossible⟩ := exceeded
                cases impossible
              | refused e' =>
                cases raised
                obtain ⟨message, same⟩ := refuses_scanOnce strict_decoder refuses_malformed stack _ _
                  scanned
                rw [same] at exceeded
                exact absurd exceeded not_limitExceeded_malformed
              | decode e' =>
                simp only [decoderFailure] at raised
                split at raised
                · rename_i cut
                  rcases Fault.continues fault cut with continues | ⟨i, value, rfl, tail, more, stray⟩
                  · exact .inl ⟨place, x, entry.reaches opened (.first reaches), continues⟩
                  · exact .inr ⟨i, value, x, ⟨rows, position, entry, few, opened, guarded, reaches⟩,
                      tail, more, stray⟩
                · exact absurd raised plain
          | ok found =>
            obtain ⟨item, rest⟩ := found
            simp only [scanned] at raised
            rw [← head] at scanned
            cases row : asRow item with
            | none =>
              simp only [row] at raised
              exact absurd raised plain
            | some row' =>
              simp only [row] at raised
              obtain rfl := asRow_eq_some.mp row
              cases after : skipSpace rest with
              | nil =>
                have scanned' : scanItem (scanOnce (decoder toFloat isFinite) stack) .value
                    (skipSpace position) =
                      .ok ((.object row' : Item.value.Found (JsonNumber Φ)), rest) := scanned
                exact .inl ⟨_, _, entry.reaches opened (.after rfl scanned'), .inl after⟩
              | cons delimiter next =>
                simp only [after] at raised
                split at raised
                · exact absurd raised plain
                · rename_i valid
                  split at raised
                  · cases raised
                  · rename_i fewer
                    split at raised
                    · exact absurd raised ended
                    · rename_i more
                      have comma : delimiter = .ofChar ',' := by
                        by_contra different
                        exact valid ⟨different, more⟩
                      rw [comma] at after
                      rw [List.length_append, List.length_singleton] at fewer
                      refine ih (.next entry opened guarded scanned after) ?_ raised
                      rw [List.length_append, List.length_singleton]
                      omega

theorem EntryReaches.reaches {place : Place} {u : Text}
    (entry : EntryReaches toFloat isFinite stack text limit place u) :
    Reaches (decoder toFloat isFinite) (stack + 1) (.one .value) (skipSpace text) place u := by
  obtain ⟨rows, position, entry, -, opened, -, reaches⟩ := entry
  exact entry.reaches opened (.first reaches)

/-- No text completes what ends with a stray tail. -/
theorem Stray.not_isJson (stray : Stray toFloat isFinite stack text limit) (s : Text) :
    ¬ IsJson (text ++ s) := by
  obtain ⟨i, value, u, entry, tail, more, no⟩ := stray
  rintro ⟨n, t, r, space, derives, -⟩
  have reaches := entry.reaches
  have nonempty : skipSpace text ≠ [] := by
    intro nothing
    have before := reaches.suffix strict_decoder
    rw [nothing] at before
    rw [List.suffix_nil.mp before] at more
    exact more rfl
  have skipped := derives.skipSpace_eq space
  rw [skipSpace_append s nonempty] at skipped
  rw [← skipped] at derives
  exact no (reaches.continued strict_decoder tail more derives)

/-- A stray tail is blamed on the budget. -/
theorem Stray.raises (stray : Stray toFloat isFinite stack text limit) :
    jsonPrefix toFloat isFinite stack text limit = .error incomplete := by
  obtain ⟨i, value, u, entry, tail, -, -⟩ := stray
  have failed : Fault (decoder toFloat isFinite) (.comma i value) u (.decode ⟨.comma, skipSpace u⟩) :=
    .comma (afterItem_tail i tail)
  have cut : cutByBudget ⟨.comma, skipSpace u⟩ = true := cutByBudget_comma.mpr tail
  rw [entry.raises failed, decoderFailure, if_pos cut]

theorem incomplete_ne_tooDeep : incomplete ≠ tooDeep := by
  intro same
  injection same with same
  injection same with _ texts
  revert texts
  decide +kernel

/-- A prefix that `_json_prefix` blames on the budget, and not on its nesting, is the
beginning of a valid JSON text: unless a complete value inside an entry is followed by
a stray `.`, `e` or the like, which is blamed on the budget as well. -/
theorem jsonPrefix_incomplete (positive : 0 < limit) :
    (∀ e, jsonPrefix toFloat isFinite stack text limit = .error e → LimitExceeded e → e ≠ tooDeep →
      ∃ s, IsJson (text ++ s)) ↔ ¬ Stray toFloat isFinite stack text limit := by
  constructor
  · intro completes stray
    obtain ⟨s, valid⟩ := completes _ stray.raises limitExceeded_incomplete incomplete_ne_tooDeep
    exact stray.not_isJson s valid
  · intro straight e raised exceeded other
    have begun : Repairable toFloat isFinite stack text ∨ Stray toFloat isFinite stack text limit := by
      unfold jsonPrefix at raised
      cases array : skipSpace text with
      | nil =>
        simp only [array] at raised
        cases raised
        exact absurd exceeded not_limitExceeded_malformed
      | cons c rest =>
        simp only [array] at raised
        split at raised
        · rename_i bracket
          rw [bracket] at array
          exact prefixLoop_exceeded (.start array) positive raised exceeded other
        · cases raised
          exact absurd exceeded not_limitExceeded_malformed
    exact (begun.resolve_right straight).isJson

end Budget

/-- An open array in an entry is completed by closing brackets. -/
theorem jsonPrefix_incomplete_array :
    ¬ Stray (Φ := Unit) (fun _ => ()) (fun _ => true) 2 (lit "[[[]") 1 := by
  refine (jsonPrefix_incomplete (by decide)).mp fun _ _ _ _ => ⟨lit "]]", ?_⟩
  have scanned : scanOnce (decoder (Φ := Unit) (fun _ => ()) fun _ => true) 3 (lit "[[[]" ++ lit "]]") =
      .ok (.array [.array [.array []]], []) := by rfl
  exact ⟨3, _, [], .refl _, reads_scanOnce strict_decoder 3 _ _ _ scanned, .refl []⟩

/-- A point after an array is no fraction, but it is blamed on the budget. -/
theorem jsonPrefix_stray : ¬ ∀ e,
    jsonPrefix (Φ := Unit) (fun _ => ()) (fun _ => true) 2 (lit "[[[].") 1 = .error e →
      LimitExceeded e → e ≠ tooDeep → ∃ s, IsJson (lit "[[[]." ++ s) := by
  let hooks := decoder (Φ := Unit) (fun _ => ()) fun _ => true
  have other : ∀ r, skipSpace (lit "[].") ≠ Item.value.closing :: r := by
    intro r same
    injection same with head
    revert head
    decide
  have scanned : scanItem (scanOnce hooks 1) .value (skipSpace (lit "[].")) =
      .ok ((.array [] : Item.value.Found (JsonNumber Unit)), lit ".") := by rfl
  have reaches : Reaches hooks 2 (.one .value) (Item.value.opening :: lit "[].")
      (.comma .value (lit "[].")) (lit ".") := .container other (.after rfl scanned)
  have open' : ∀ r, skipSpace (lit "[[].") ≠ .ofChar ']' :: r := by
    intro r same
    injection same with head
    revert head
    decide
  have stray : Stray (Φ := Unit) (fun _ => ()) (fun _ => true) 2 (lit "[[[].") 1 := by
    refine ⟨.value, lit "[].", lit ".", ⟨[], lit "[[].", .start (by decide), by decide, open',
      by decide, reaches⟩, by decide, by decide, ?_⟩
    rintro ⟨s, number⟩
    obtain ⟨c, rest, same, digit | minus⟩ := number.head
    · injection same with head
      rw [← head] at digit
      revert digit
      decide
    · injection same with head
      rw [← head] at minus
      revert minus
      decide
  intro completes
  obtain ⟨s, valid⟩ := completes _ stray.raises limitExceeded_incomplete incomplete_ne_tooDeep
  exact stray.not_isJson s valid

end DataBridge
