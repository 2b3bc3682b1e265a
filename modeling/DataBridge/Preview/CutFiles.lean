import DataBridge.Preview.Budget

/-!
# The beginning of a valid file

`_json_prefix` on the beginning of a file that `_json_document` accepts. It returns the same
rows or blames the budget, unless the cut makes the decoder read something else
(`jsonPrefix_of_jsonDocument`).
-/

namespace DataBridge

open Json

section Containers

variable {ε N : Type} {hooks : Hooks ε N}

/-- A literal or a constant is no container. -/
theorem scanLiteral_scalar {t r : Text} {v : Value N} (scanned : scanLiteral hooks t = some (.ok (v, r))) :
    v = .null ∨ (∃ b, v = .bool b) ∨ ∃ n, v = .number n := by
  have constant : ∀ {name rest : Text}, some (scanConstant hooks name rest) = some (.ok (v, r)) →
      ∃ n, v = .number n := by
    intro name rest scanned
    unfold scanConstant at scanned
    split at scanned
    · cases scanned
      exact ⟨_, rfl⟩
    · cases scanned
  unfold scanLiteral at scanned
  split at scanned
  · cases scanned
    exact .inl rfl
  · split at scanned
    · cases scanned
      exact .inr (.inl ⟨_, rfl⟩)
    · split at scanned
      · cases scanned
        exact .inr (.inl ⟨_, rfl⟩)
      · split at scanned
        · exact .inr (.inr (constant scanned))
        · split at scanned
          · exact .inr (.inr (constant scanned))
          · split at scanned
            · exact .inr (.inr (constant scanned))
            · cases scanned

/-- A scanned container, from its opening bracket on. -/
theorem scanOnce_container_ok (strict : hooks.Strict) {stack : Nat} {t r : Text} {v : Value N}
    {c : Container N} (scanned : scanOnce hooks stack t = .ok (v, r)) (container : asContainer v = some c) :
    ∃ k rest, stack = k + 1 ∧ ∃ (i : Item) (l : List (i.Found N)), t = i.opening :: rest ∧
      v = i.build l ∧ Json.Container i.closing (scanItem (scanOnce hooks k) i) rest (.ok (l, r)) := by
  cases head_of t with
  | nil =>
    rw [scanOnce_nil] at scanned
    cases scanned
  | string t =>
    rw [scanOnce_string] at scanned
    split at scanned
    · cases scanned
    · cases scanned
      cases container
  | container i t =>
    cases stack with
    | zero =>
      rw [scanOnce_deep] at scanned
      cases scanned
    | succ k =>
      rw [scanOnce_container] at scanned
      obtain ⟨⟨l, r'⟩, found, same⟩ := map_ok scanned
      cases same
      have takes := (reads_scanItem (reads_scanOnce strict k) i).takes
      have items : Json.Container i.closing (scanItem (scanOnce hooks k) i) t _ :=
        container_scanContainer takes t
      rw [found] at items
      exact ⟨k, t, rfl, i, l, rfl, rfl, items⟩
  | other c t quote containers =>
    rw [scanOnce_other quote containers] at scanned
    cases literal : scanLiteral hooks (c :: t) with
    | none =>
      rw [literal, Option.getD_none] at scanned
      obtain ⟨_, _, _, n, rfl, -⟩ := scanNumber_ok scanned
      cases container
    | some result =>
      rw [literal, Option.getD_some] at scanned
      subst scanned
      rcases scanLiteral_scalar literal with rfl | ⟨b, rfl⟩ | ⟨n, rfl⟩
      · cases container
      · cases container
      · cases container

/-- A container with one item. -/
theorem scanOnce_single (strict : hooks.Strict) {k : Nat} {i : Item} {t u r : Text} {a : i.Found N}
    (plain : skipSpace t = t) (other : t.head? ≠ some i.closing)
    (scanned : scanItem (scanOnce hooks k) i t = .ok (a, u))
    (after : afterItem i.closing u = .ok (true, r)) :
    scanOnce hooks (k + 1) (i.opening :: t) = .ok (i.build [a], r) := by
  have takes := (reads_scanItem (reads_scanOnce strict k) i).takes
  have items : Json.Container i.closing (scanItem (scanOnce hooks k) i) t (.ok ([a], r)) := by
    refine .items (fun r' same => ?_) ?_
    · rw [plain] at same
      rw [same] at other
      exact other rfl
    · rw [plain]
      exact .last scanned after
  rw [scanOnce_container, items.scanContainer_eq takes]
  rfl

end Containers

section CutFiles

variable {Φ : Type} {toFloat : Text → Φ} {isFinite : Φ → Bool} {stack : Nat} {text s : Text} {limit : Nat}

/-- The cut makes the decoder read something else: the text ends, inside an entry that
`_json_prefix` decodes, in a string and right after an escape `\uXXXX`, or in a number
whose digits so far a hook refuses. -/
def Misread (toFloat : Text → Φ) (isFinite : Φ → Bool) (stack : Nat) (text : Text) (limit : Nat) : Prop :=
  ∃ place u, EntryReaches toFloat isFinite stack text limit place u ∧
    ((place = .value ∨ place = .name) ∧ (∃ body, u = .ofChar '"' :: body ∧ EndsInEscape body) ∨
      place = .value ∧ ∃ e, Fault (decoder toFloat isFinite) .value u (.refused e))

theorem Misread.malformed (misread : Misread toFloat isFinite stack text limit) :
    ∃ message, jsonPrefix toFloat isFinite stack text limit = .error (malformed message) := by
  obtain ⟨place, u, entry, ⟨kind, body, rfl, ends⟩ | ⟨rfl, e, fault⟩⟩ := misread
  · obtain ⟨e, failed, cut⟩ :
        ∃ e, scanString (.ofChar '"' :: body) body = .error e ∧ CutEscape e := ends.scanString
    have fault : Fault (decoder toFloat isFinite) place (.ofChar '"' :: body) (.decode e) := by
      rcases kind with rfl | rfl
      · exact .string failed
      · exact .key failed
    have blamed : ¬ cutByBudget e = true := fun blamed =>
      ((cutByBudget_string failed).mp blamed).2 cut
    exact ⟨_, by rw [entry.raises fault, decoderFailure, if_neg blamed]⟩
  · have failed : scanOnce (decoder toFloat isFinite) stack u = .error (.refused e) := fault.scanOnce
    obtain ⟨message, rfl⟩ := refuses_scanOnce strict_decoder refuses_malformed stack u e failed
    exact ⟨message, entry.raises fault⟩

/-- An error about a complete escape is one of a string. -/
theorem Fault.endsInEscape {ε N : Type} {hooks : Hooks ε N} {place : Place} {u : Text} {e : DecodeError}
    (fault : Fault hooks place u (.decode e)) (cut : CutEscape e) :
    (place = .value ∨ place = .name) ∧ ∃ body, u = .ofChar '"' :: body ∧ EndsInEscape body := by
  have message := cut.1
  cases fault with
  | nothing | name | colon => cases message
  | string failed => exact ⟨.inl rfl, _, rfl, endsInEscape_of_scanString failed cut⟩
  | key failed => exact ⟨.inr rfl, _, rfl, endsInEscape_of_scanString failed cut⟩
  | @plain c t _ _ _ failed =>
    cases literal : scanLiteral hooks (c :: t) with
    | some result =>
      rw [literal, Option.getD_some] at failed
      subst failed
      obtain ⟨_, _, impossible, -⟩ := scanLiteral_error literal
      cases impossible
    | none =>
      rw [literal, Option.getD_none] at failed
      rcases scanNumber_error failed with ⟨same, -⟩ | ⟨_, _, impossible, -⟩
      · cases same
        cases message
      · cases impossible
  | comma failed =>
    rw [afterItem_error failed] at message
    cases message

theorem Fault.refused {ε N : Type} {hooks : Hooks ε N} {place : Place} {u : Text} {e : ε}
    (fault : Fault hooks place u (.refused e)) : place = .value := by
  cases fault with
  | plain => rfl

/-- An entry of the complete file is read as such, or blamed on the budget. -/
theorem entry_cut {k : Nat} (room : k ≤ stack) {rows : List (Row Φ)} {row : Row Φ} {position u : Text}
    (entry : EntryAt toFloat isFinite stack text rows position) (few : rows.length < limit)
    (nonempty : skipSpace position ≠ []) (opened : ∀ r, skipSpace position ≠ .ofChar ']' :: r)
    (guarded : checkNesting (skipSpace position) maxJsonDepth = .ok ())
    (scanned : scanOnce (decoder toFloat isFinite) k (skipSpace position ++ s) = .ok (.object row, u))
    (stop : Stops u) (fine : ¬ Misread toFloat isFinite stack text limit) :
    (∃ u', u = u' ++ s ∧
      scanOnce (decoder toFloat isFinite) stack (skipSpace position) = .ok (.object row, u')) ∨
    ∃ e, cutByBudget e = true ∧
      scanOnce (decoder toFloat isFinite) stack (skipSpace position) = .error (.decode e) := by
  have derives := reads_scanOnce strict_decoder k _ _ _ scanned
  have cut : Cuts (decoder toFloat isFinite) k stack (.one .value) (skipSpace position) s u :=
    derives.cut strict_decoder rfl
  cases cut stop with
  | whole a u' eq scanned' scanned'' =>
    rcases deeper_scanOnce strict_decoder room (skipSpace position ++ s) with deep | same
    · rw [deep] at scanned
      cases scanned
    · have both : scanOnce (decoder toFloat isFinite) stack (skipSpace position ++ s) = .ok (a, u) :=
        scanned''
      rw [same, scanned] at both
      cases both
      exact .inl ⟨u', eq, scanned'⟩
  | shorter a tail v _ _ valueAt begins =>
    obtain rfl : v = skipSpace position := valueAt
    obtain ⟨_, rest, -, i, -, whole, -, -⟩ := scanOnce_container_ok strict_decoder scanned rfl
    obtain ⟨z, number⟩ := begins
    obtain ⟨c, rest', head, begin⟩ := number.head
    have same : c = i.opening := by
      cases q : skipSpace position with
      | nil => exact absurd q nonempty
      | cons d q' =>
        rw [q] at whole head
        injection whole with first
        injection head with second
        exact second.symm.trans first
    have other : isDigit i.opening = false ∧ i.opening ≠ .ofChar '-' := by
      cases i with
      | value => decide
      | member => decide
    rcases begin with digit | minus
    · rw [same, other.1] at digit
      cases digit
    · exact absurd (same.symm.trans minus) other.2
  | stopped failure failed stopped =>
    have failed' : scanOnce (decoder toFloat isFinite) stack (skipSpace position) = .error failure :=
      failed
    have misread : ∀ {place x}, Reaches (decoder toFloat isFinite) stack (.one .value)
        (skipSpace position) place x → EntryReaches toFloat isFinite stack text limit place x :=
      fun reaches => ⟨rows, position, entry, few, opened, guarded, reaches⟩
    cases stopped with
    | deep less => exact absurd less (by omega)
    | refused e =>
      rcases scanOnce_failed strict_decoder failed' with impossible | ⟨place, x, reaches, fault⟩
      · cases impossible
      · obtain rfl := Fault.refused fault
        exact absurd ⟨_, x, misread reaches, .inr ⟨rfl, e, fault⟩⟩ fine
    | @cut e cut =>
      rcases cutByBudget_cutAt cut with blamed | escape
      · exact .inr ⟨e, blamed, failed'⟩
      · rcases scanOnce_failed strict_decoder failed' with impossible | ⟨place, x, reaches, fault⟩
        · cases impossible
        · exact absurd ⟨place, x, misread reaches, .inl (Fault.endsInEscape fault escape)⟩ fine

/-- The preview of a cut file: the rows of the complete one, or an error about the budget. -/
def AsComplete (result : Except Exc (List (Row Φ))) (rows : List (Row Φ)) : Prop :=
  result = .ok rows ∨ ∃ e, result = .error e ∧ LimitExceeded e

theorem asComplete_incomplete {rows : List (Row Φ)} : AsComplete (.error incomplete) rows :=
  .inr ⟨_, rfl, limitExceeded_incomplete⟩

/-- The step of the loop at an entry of the complete file. `last` is for what follows
the entry in the text that is not cut. -/
theorem prefixLoop_entry {k : Nat} (room : k ≤ stack) {rows all : List (Row Φ)} {row : Row Φ}
    {position u t : Text} {fuel : Nat} {afterComma : Bool} {c : CodePoint}
    (entry : EntryAt toFloat isFinite stack text rows position) (few : rows.length < limit)
    (eq : skipSpace (position ++ s) = t)
    (scanned : scanOnce (decoder toFloat isFinite) k t = .ok (.object row, u))
    (follows : ∃ v, skipSpace u = c :: v) (delimiter : c = .ofChar ',' ∨ c = .ofChar ']')
    (fine : ¬ Misread toFloat isFinite stack text limit)
    (whole : (rows ++ [row]).length = limit → all = rows ++ [row])
    (next : ∀ rest v', (rows ++ [row]).length < limit → skipSpace rest = c :: v' →
      skipSpace u = c :: (v' ++ s) → rest.length < position.length →
      (c = .ofChar ',' → EntryAt toFloat isFinite stack text (rows ++ [row]) v') →
      AsComplete (if c = .ofChar ']' then endOfArray v' (rows ++ [row])
        else prefixLoop toFloat isFinite stack limit fuel v' (rows ++ [row]) true) all) :
    AsComplete (prefixLoop toFloat isFinite stack limit (fuel + 1) position rows afterComma) all := by
  rw [prefixLoop]
  cases head : skipSpace position with
  | nil => exact asComplete_incomplete
  | cons d q =>
    have nonempty : skipSpace position ≠ [] := by simp [head]
    rw [skipSpace_append s nonempty] at eq
    subst eq
    have begins := (reads_scanOnce strict_decoder k _ _ _ scanned).begins
    have closing : d ≠ .ofChar ']' := by
      obtain ⟨d', rest, same, begins⟩ := begins
      rw [head, List.cons_append] at same
      injection same with same
      rw [same]
      exact begins.2 .value
    have opened : ∀ r, skipSpace position ≠ .ofChar ']' :: r := by
      intro r same
      rw [head] at same
      injection same with same
      exact closing same
    obtain ⟨v, follow⟩ := follows
    have space := space_skipSpace u
    rw [follow] at space
    have stop : Stops u := space.stops (by
      rcases delimiter with rfl | rfl
      · decide
      · decide)
    have plain : isSpace c = false := by
      rcases delimiter with rfl | rfl
      · decide
      · decide
    simp only [if_neg closing]
    cases guarded : checkNesting (d :: q) maxJsonDepth with
    | error e =>
      rw [checkNesting_error guarded]
      exact .inr ⟨_, rfl, _, rfl⟩
    | ok _ =>
      rw [← head] at guarded
      have few' : (rows ++ [row]).length ≤ limit := by
        rw [List.length_append, List.length_singleton]
        omega
      rcases entry_cut room entry few nonempty opened guarded scanned stop fine with
        ⟨rest, eq', read⟩ | ⟨e, blamed, failed⟩
      · have shorter := skipSpace_length_le position
        have taken : rest.length < (skipSpace position).length :=
          (reads_scanOnce strict_decoder stack _ _ _ read).length_lt
        have decoded : rawDecode (decoder toFloat isFinite) stack (d :: q) = .ok (.object row, rest) := by
          rw [← head]
          exact read
        simp only [decoded, asRow]
        rcases skipSpace_cut eq' space plain with nothing | ⟨v', after, rfl⟩
        · simp only [nothing]
          split
          · rename_i full
            rw [whole full]
            exact .inl rfl
          · exact asComplete_incomplete
        · simp only [after]
          have valid : ¬ (c ≠ .ofChar ',' ∧ c ≠ .ofChar ']') := fun neither =>
            delimiter.elim neither.1 neither.2
          rw [if_neg valid]
          split
          · rename_i full
            rw [whole full]
            exact .inl rfl
          · rename_i fewer
            refine next rest v' (by omega) after follow (by omega) ?_
            rintro rfl
            exact .next entry opened guarded read after
      · have raised : rawDecode (decoder toFloat isFinite) stack (d :: q) = .error (.decode e) := by
          rw [← head]
          exact failed
        simp only [raised, decoderFailure, if_pos blamed]
        exact asComplete_incomplete

theorem endOfArray_cut {v r : Text} {rows : List (Row Φ)} (eq : r = v ++ s) (ended : skipSpace r = []) :
    endOfArray v rows = .ok rows := by
  have nothing : skipSpace v = [] := by
    by_contra more
    have longer := skipSpace_append s more
    rw [← eq, ended] at longer
    exact more (List.append_eq_nil_iff.mp longer.symm).1
  rw [endOfArray, if_pos nothing]

theorem mapM_asRow_cons {a : Value (JsonNumber Φ)} {items : List (Value (JsonNumber Φ))}
    {rows : List (Row Φ)} (mapped : (a :: items).mapM asRow = some rows) : ∃ row later,
      a = .object row ∧ items.mapM asRow = some later ∧ rows = row :: later := by
  rw [List.mapM_cons] at mapped
  obtain ⟨row, object, mapped⟩ := Option.bind_eq_some_iff.mp mapped
  obtain ⟨later, mapped', same⟩ := Option.bind_eq_some_iff.mp mapped
  exact ⟨row, later, asRow_eq_some.mp object, mapped', (Option.some.inj same).symm⟩

/-- What `_json_document` accepts is an array of objects, with nothing but space after it. -/
theorem jsonDocument_ok {file : Text} {rows : List (Row Φ)}
    (accepted : jsonDocument toFloat isFinite stack file limit = .ok rows) : ∃ items all r,
      scanOnce (decoder toFloat isFinite) stack (skipSpace file) = .ok (.array items, r) ∧
        skipSpace r = [] ∧ items.mapM asRow = some all ∧ rows = all.take limit := by
  unfold jsonDocument at accepted
  cases guarded : checkNesting (skipSpace file) (maxJsonDepth + 1) with
  | error e =>
    rw [guarded] at accepted
    cases accepted
  | ok _ =>
    rw [guarded] at accepted
    simp only [bind, Except.bind] at accepted
    cases decoded : decode (decoder toFloat isFinite) stack file with
    | error failure =>
      rw [decoded] at accepted
      cases accepted
    | ok value =>
      rw [decoded] at accepted
      cases value with
      | array items =>
        simp only at accepted
        cases mapped : items.mapM asRow with
        | none =>
          rw [mapped] at accepted
          cases accepted
        | some all =>
          rw [mapped] at accepted
          cases accepted
          unfold decode rawDecode at decoded
          cases scanned : scanOnce (decoder toFloat isFinite) stack (skipSpace file) with
          | error failure =>
            rw [scanned] at decoded
            cases decoded
          | ok found =>
            obtain ⟨value, r⟩ := found
            simp only [scanned] at decoded
            cases ended : skipSpace r with
            | nil =>
              simp only [ended] at decoded
              cases decoded
              exact ⟨items, all, r, rfl, ended, mapped, rfl⟩
            | cons c rest =>
              simp only [ended] at decoded
              cases decoded
      | null | bool | number | string | object => cases accepted

/-- The loop over the entries of the complete file. -/
theorem prefixLoop_items {k : Nat} (room : k ≤ stack) {t r : Text} {items : List (Value (JsonNumber Φ))}
    (scanned : Items (.ofChar ']') (scanOnce (decoder toFloat isFinite) k) t (.ok (items, r)))
    (ended : skipSpace r = []) (fine : ¬ Misread toFloat isFinite stack text limit)
    {rows later : List (Row Φ)} (mapped : items.mapM asRow = some later) {position : Text} {fuel : Nat}
    {afterComma : Bool} (entry : EntryAt toFloat isFinite stack text rows position)
    (few : rows.length < limit) (eq : skipSpace (position ++ s) = t) (enough : position.length ≤ fuel) :
    AsComplete (prefixLoop toFloat isFinite stack limit (fuel + 1) position rows afterComma)
      ((rows ++ later).take limit) := by
  generalize whole : (.ok (items, r) : Scanned Exc (List (Value (JsonNumber Φ)))) = result at scanned
  induction scanned generalizing items rows later position fuel afterComma with
  | failed | «open» | later => cases whole
  | @last t u r a read after =>
    cases whole
    obtain ⟨row, later, rfl, none, rfl⟩ := mapM_asRow_cons mapped
    obtain rfl : later = [] := (Option.some.inj none).symm
    have closed : skipSpace u = .ofChar ']' :: r := (afterItem_closed after).skipSpace_eq fun c head => by
      cases head
      decide
    refine prefixLoop_entry room entry few eq read ⟨r, closed⟩ (.inr rfl) fine ?_ ?_
    · intro full
      rw [← full, List.take_length]
    · intro rest v' fewer after' follow _ _
      rw [closed] at follow
      injection follow with _ same
      rw [if_pos rfl, endOfArray_cut same ended, List.take_of_length_le fewer.le]
      exact .inl rfl
  | @more t u w r a items read after inner ih =>
    cases whole
    obtain ⟨row, later, rfl, mapped', rfl⟩ := mapM_asRow_cons mapped
    obtain ⟨v, space, rfl⟩ := afterItem_comma after
    have comma : skipSpace u = .ofChar ',' :: v := space.skipSpace_eq fun c head => by
      cases head
      decide
    refine prefixLoop_entry room entry few eq read ⟨v, comma⟩ (.inl rfl) fine ?_ ?_
    · intro full
      rw [List.append_cons, ← full, List.take_left]
    · intro rest v' fewer after' follow shorter entry'
      rw [comma] at follow
      injection follow with _ same
      have shorter' := skipSpace_length_le rest
      rw [after', List.length_cons] at shorter'
      obtain ⟨fuel, rfl⟩ : ∃ n, fuel = n + 1 := Nat.exists_eq_add_one.mpr (by omega)
      have enough' : v'.length ≤ fuel := by omega
      have bracket : CodePoint.ofChar ',' ≠ .ofChar ']' := by decide
      have goesOn : AsComplete (prefixLoop toFloat isFinite stack limit (fuel + 1) v' (rows ++ [row]) true)
          ((rows ++ [row] ++ later).take limit) :=
        ih mapped' (entry' rfl) fewer (by rw [same]) enough' rfl
      rwa [if_neg bracket, List.append_cons rows row later]

/-- `_json_prefix` on the beginning of a file that `_json_document` accepts returns the
same rows or blames the byte budget, exactly when the beginning is more than space and
the cut does not make the decoder read something else. -/
theorem jsonPrefix_of_jsonDocument {rows : List (Row Φ)} (positive : 0 < limit)
    (accepted : jsonDocument toFloat isFinite stack (text ++ s) limit = .ok rows) :
    AsComplete (jsonPrefix toFloat isFinite stack text limit) rows ↔
      skipSpace text ≠ [] ∧ ¬ Misread toFloat isFinite stack text limit := by
  have malformed : ∀ {message : String},
      ¬ AsComplete (.error (malformed message) : Except Exc (List (Row Φ))) rows := by
    rintro message (impossible | ⟨e, same, exceeded⟩)
    · cases impossible
    · cases same
      exact not_limitExceeded_malformed exceeded
  constructor
  · intro complete
    constructor
    · intro nothing
      rw [jsonPrefix, nothing] at complete
      exact malformed complete
    · intro misread
      obtain ⟨message, raised⟩ := misread.malformed
      rw [raised] at complete
      exact malformed complete
  · rintro ⟨nonempty, fine⟩
    obtain ⟨items, all, r, scanned, ended, mapped, rfl⟩ := jsonDocument_ok accepted
    rw [skipSpace_append s nonempty] at scanned
    obtain ⟨k, rest, rfl, i, l, whole, built, container⟩ := scanOnce_container_ok strict_decoder scanned rfl
    cases i with
    | member => cases built
    | value =>
      cases built
      cases array : skipSpace text with
      | nil => exact absurd array nonempty
      | cons c position =>
        rw [array, List.cons_append] at whole
        injection whole with bracket tail
        subst tail
        obtain rfl : c = .ofChar '[' := bracket
        have entry : EntryAt toFloat isFinite (k + 1) text [] position := .start array
        simp only [jsonPrefix, array, if_true]
        cases container with
        | empty skipped =>
          obtain rfl : all = [] := (Option.some.inj mapped).symm
          by_cases nothing : skipSpace position = []
          · rw [prefixLoop, nothing]
            exact asComplete_incomplete
          · rw [skipSpace_append s nothing] at skipped
            cases after : skipSpace position with
            | nil => exact absurd after nothing
            | cons d v =>
              rw [after, List.cons_append] at skipped
              injection skipped with close same
              obtain rfl : d = .ofChar ']' := close
              rw [prefixLoop, after]
              simp only [if_true, Bool.false_eq_true, if_false, List.take_nil]
              exact .inl (endOfArray_cut same.symm ended)
        | items _ inner =>
          exact prefixLoop_items (Nat.le_succ k) inner ended fine mapped entry positive rfl (le_refl _)

end CutFiles

/-- A file that ends in an open array of one object. -/
theorem jsonPrefix_of_jsonDocument_open :
    ¬ Misread (Φ := Unit) (fun _ => ()) (fun _ => true) 2 (lit "[\x7b\x7d") 2 := by
  have accepted : jsonDocument (Φ := Unit) (fun _ => ()) (fun _ => true) 2
      (lit "[\x7b\x7d" ++ lit "]") 2 = .ok [[]] := by rfl
  have raised : jsonPrefix (Φ := Unit) (fun _ => ()) (fun _ => true) 2 (lit "[\x7b\x7d") 2 =
      .error incomplete := by rfl
  refine ((jsonPrefix_of_jsonDocument (by decide) accepted).mp ?_).2
  rw [raised]
  exact asComplete_incomplete

/-- Cut after the four digits of an escape, a valid file is called malformed. -/
theorem jsonPrefix_escape :
    let rows : List (Row Unit) := [[(lit "a", .string (lit "A"))]]
    jsonDocument (fun _ => ()) (fun _ => true) 2 (lit "[\x7b\"a\":\"\\u0041" ++ lit "\"\x7d]") 1 =
        .ok rows ∧
      rows.forM checkRow = .ok () ∧
      ¬ AsComplete (jsonPrefix (fun _ => ()) (fun _ => true) 2 (lit "[\x7b\"a\":\"\\u0041") 1) rows := by
  intro rows
  let hooks : Hooks Exc (JsonNumber Unit) := decoder (fun _ => ()) fun _ => true
  have key : ∀ start rest : Text, scanString start (.ofChar 'a' :: .ofChar '"' :: rest) =
      .ok (lit "a", rest) := by
    intro start rest
    rw [scanString_plain (by decide) (by decide) (by decide), scanString_quote]
    rfl
  have hex : hexPoint (.ofChar '0') (.ofChar '0') (.ofChar '4') (.ofChar '1') = some 0x41 := by decide
  refine ⟨?_, ?_, ?_⟩
  · let escape : Text := .ofChar '"' :: lit "\\u0041\"\x7d]"
    let member : Text := .ofChar '"' :: .ofChar 'a' :: .ofChar '"' :: .ofChar ':' :: escape
    have letter : ∀ start : Text, scanString start (lit "\\u0041\"\x7d]") = .ok (lit "A", lit "\x7d]") := by
      intro start
      have digits : lit "\\u0041\"\x7d]" = .ofChar '\\' :: .ofChar 'u' :: .ofChar '0' :: .ofChar '0' ::
        .ofChar '4' :: .ofChar '1' :: lit "\"\x7d]" := by decide
      have closed : scanString start (lit "\"\x7d]") = .ok ([], lit "\x7d]") := scanString_quote
      have single : pairAt 0x41 (lit "\"\x7d]") = .ok none := pairAt_short (by decide)
      rw [digits, scanString_unicode (by decide), hex]
      simp only [single, closed]
      rfl
    have value : scanOnce hooks 0 escape = .ok (.string (lit "A"), lit "\x7d]") := by
      rw [scanOnce_string, letter]
    have pair : scanItem (scanOnce hooks 0) .member member =
        .ok (((lit "a", .string (lit "A")) : Item.member.Found (JsonNumber Unit)), lit "\x7d]") := by
      have colon : skipSpace (.ofChar ':' :: escape) = .ofChar ':' :: escape := by decide
      have plain : skipSpace escape = escape := by decide
      simp only [member, scanItem, scanMember, if_true, key, colon, plain, value]
    have object : scanOnce hooks 1 (Item.member.opening :: member) =
        .ok (.object [(lit "a", .string (lit "A"))], lit "]") := by
      have plain : skipSpace member = member := by decide
      have other : member.head? ≠ some Item.member.closing := by decide
      have after : afterItem Item.member.closing (lit "\x7d]") = .ok (true, lit "]") := by decide
      exact scanOnce_single strict_decoder plain other pair after
    have array : scanOnce hooks 2 (Item.value.opening :: Item.member.opening :: member) =
        .ok (.array [.object [(lit "a", .string (lit "A"))]], []) := by
      have plain : skipSpace (Item.member.opening :: member) = Item.member.opening :: member := by decide
      have other : (Item.member.opening :: member).head? ≠ some Item.value.closing := by decide
      have after : afterItem Item.value.closing (lit "]") = .ok (true, []) := by decide
      have found : scanItem (scanOnce hooks 1) .value (Item.member.opening :: member) =
        .ok ((.object [(lit "a", .string (lit "A"))] : Item.value.Found (JsonNumber Unit)), lit "]") := object
      exact scanOnce_single strict_decoder plain other found after
    have whole : lit "[\x7b\"a\":\"\\u0041" ++ lit "\"\x7d]" =
        Item.value.opening :: Item.member.opening :: member := by decide
    have plain : skipSpace (Item.value.opening :: Item.member.opening :: member) =
        Item.value.opening :: Item.member.opening :: member := by decide
    have guarded : checkNesting (Item.value.opening :: Item.member.opening :: member)
        (maxJsonDepth + 1) = .ok () := by decide +kernel
    rw [whole, jsonDocument, plain, guarded]
    simp only [bind, Except.bind, decode, rawDecode, plain]
    rw [array]
    rfl
  · have plain : unencodable (some (lit "a")) = false ∧ unencodable (some (lit "A")) = false := by
      decide +kernel
    simp [rows, checkRow, checkPending_cons, checkPending, checkPairs, Container.pairs, asText,
      asContainer, plain, bind, Except.bind, pure, Except.pure]
  · let member : Text := .ofChar '"' :: .ofChar 'a' :: .ofChar '"' :: lit ":\"\\u0041"
    let escape : Text := [.ofChar '\\', .ofChar 'u', .ofChar '0', .ofChar '0', .ofChar '4', .ofChar '1']
    have array : skipSpace (lit "[\x7b\"a\":\"\\u0041") = .ofChar '[' :: .ofChar '{' :: member := by decide
    have entry : skipSpace (.ofChar '{' :: member) = .ofChar '{' :: member := by decide
    have inner : skipSpace member = member := by decide
    have colon : skipSpace (lit ":\"\\u0041") = .ofChar ':' :: .ofChar '"' :: escape := by decide
    have string : skipSpace (.ofChar '"' :: escape) = .ofChar '"' :: escape := by decide
    have guarded : checkNesting (.ofChar '{' :: member) maxJsonDepth = .ok () := by decide +kernel
    have value : Reaches hooks 1 (.one .value) (skipSpace (.ofChar '"' :: escape)) .value
        (.ofChar '"' :: escape) := by
      rw [string]
      exact .value
    have name : Reaches hooks 1 (.many .member) (skipSpace member) .value (.ofChar '"' :: escape) := by
      rw [inner]
      exact .first (.member (key _ _) colon value)
    have begins : ∀ (i : Item) (c : CodePoint) (t : Text), skipSpace (c :: t) = c :: t →
        c ≠ i.closing → ∀ r, skipSpace (c :: t) ≠ i.closing :: r := by
      intro i c t plain different r same
      rw [plain] at same
      injection same with head
      exact different head
    have object : Reaches hooks 2 (.one .value) (.ofChar '{' :: member) .value (.ofChar '"' :: escape) :=
      .container (i := .member) (begins _ _ _ inner (by decide)) name
    have misread : Misread (Φ := Unit) (fun _ => ()) (fun _ => true) 2 (lit "[\x7b\"a\":\"\\u0041") 1 := by
      refine ⟨.value, .ofChar '"' :: escape, ⟨[], .ofChar '{' :: member, .start array, Nat.one_pos,
        begins .value _ _ entry (by decide), ?_, ?_⟩, .inl ⟨.inl rfl, escape, rfl, .here hex⟩⟩
      · rw [entry]
        exact guarded
      · rw [entry]
        exact object
    obtain ⟨message, raised⟩ := misread.malformed
    rw [raised]
    rintro (impossible | ⟨e, same, exceeded⟩)
    · cases impossible
    · cases same
      exact not_limitExceeded_malformed exceeded

end DataBridge
