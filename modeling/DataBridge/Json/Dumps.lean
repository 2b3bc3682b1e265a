import DataBridge.Json.Grammar

/-!
# The JSON encoder

`json.dumps` with `ensure_ascii`, and that the decoder reads back what it wrote
(`decode_dumps`). `Writes` is the condition: distinct keys in every object, no
surrogates side by side in a text, and numbers that the hooks read back. The text
that is written is printable ASCII (`printable_dumps`), so it never holds a line feed.
-/

namespace DataBridge.Json

/-! ## Strings -/

/-- A lower-case hexadecimal digit. -/
def hexChar (n : Nat) : CodePoint := if n < 10 then pointOf (0x30 + n) else pointOf (0x61 + (n - 10))

/-- The escape `\uXXXX`. -/
def escapeUnit (n : Nat) : Text :=
  [.ofChar '\\', .ofChar 'u', hexChar (n / 4096 % 16), hexChar (n / 256 % 16), hexChar (n / 16 % 16),
    hexChar (n % 16)]

/-- `ESCAPE_DCT`, for the characters with a short escape. -/
def shortEscape (c : CodePoint) : Option CodePoint :=
  if c = .ofChar '"' ∨ c = .ofChar '\\' then some c
  else if c = 0x08 then some (.ofChar 'b')
  else if c = 0x0C then some (.ofChar 'f')
  else if c = 0x0A then some (.ofChar 'n')
  else if c = 0x0D then some (.ofChar 'r')
  else if c = 0x09 then some (.ofChar 't')
  else none

/-- `py_encode_basestring_ascii`, for one character. -/
def escapeChar (c : CodePoint) : Text :=
  match shortEscape c with
  | some e => [.ofChar '\\', e]
  | none =>
    if 0x20 ≤ c.val ∧ c.val ≤ 0x7E then [c]
    else if c.val < 0x10000 then escapeUnit c.val
    else escapeUnit (0xD800 + (c.val - 0x10000) / 0x400) ++
      escapeUnit (0xDC00 + (c.val - 0x10000) % 0x400)

/-- A text between quotes. -/
def dumpsString (text : Text) : Text := .ofChar '"' :: (text.flatMap escapeChar ++ [.ofChar '"'])

/-! ## Values -/

section Dumps

variable {ε N : Type}

mutual

/-- `json.dumps`. Both separators are followed by `space`, and `shown` is the text of a number. -/
def dumps (space : Text) (shown : N → Text) : Value N → Text
  | .null => lit "null"
  | .bool true => lit "true"
  | .bool false => lit "false"
  | .number n => shown n
  | .string text => dumpsString text
  | .array [] => lit "[]"
  | .array (item :: items) =>
    .ofChar '[' :: (dumps space shown item ++ (dumpsItems space shown items ++ [.ofChar ']']))
  | .object [] => lit "{}"
  | .object ((key, value) :: members) =>
    .ofChar '{' :: (dumpsString key ++ (.ofChar ':' :: (space ++ (dumps space shown value ++
      (dumpsMembers space shown members ++ [.ofChar '}'])))))

/-- The further items of a list. -/
def dumpsItems (space : Text) (shown : N → Text) : List (Value N) → Text
  | [] => []
  | item :: items =>
    .ofChar ',' :: (space ++ (dumps space shown item ++ dumpsItems space shown items))

/-- The further items of a `dict`. -/
def dumpsMembers (space : Text) (shown : N → Text) : List (Text × Value N) → Text
  | [] => []
  | (key, value) :: members =>
    .ofChar ',' :: (space ++ (dumpsString key ++ (.ofChar ':' :: (space ++
      (dumps space shown value ++ dumpsMembers space shown members)))))

end

/-! ## Strings are read back -/

/-- No low surrogate follows a high one, so no two characters are joined to one. -/
def Unjoined (text : Text) : Prop :=
  text.IsChain fun c next => isHighSurrogate c.val = true → isLowSurrogate next.val = false

theorem unjoined_of_plain {text : Text} (plain : text.Plain) : Unjoined text := by
  apply List.Pairwise.isChain
  apply List.pairwise_of_forall_mem_list
  intro c member next _ high
  have surrogate := plain c member
  simp only [CodePoint.isSurrogate, Bool.and_eq_false_iff, decide_eq_false_iff_not] at surrogate
  simp only [isHighSurrogate, Bool.and_eq_true, decide_eq_true_eq] at high
  omega

theorem hexDigit_hexChar {n : Nat} (small : n < 16) : hexDigit (hexChar n) = some n := by
  interval_cases n <;> decide

theorem hexPoint_escapeUnit {n : Nat} (small : n < 0x10000) :
    hexPoint (hexChar (n / 4096 % 16)) (hexChar (n / 256 % 16)) (hexChar (n / 16 % 16))
      (hexChar (n % 16)) = some n := by
  rw [hexPoint, hexDigit_hexChar (Nat.mod_lt _ (by decide)),
    hexDigit_hexChar (Nat.mod_lt _ (by decide)), hexDigit_hexChar (Nat.mod_lt _ (by decide)),
    hexDigit_hexChar (Nat.mod_lt _ (by decide))]
  simp only [Option.bind_eq_bind, Option.bind_some, Option.some.injEq]
  omega

theorem pointOf_val (c : CodePoint) : pointOf c.val = c := by
  apply Fin.ext
  simp [pointOf, Fin.ofNat, Nat.mod_eq_of_lt c.isLt]

theorem pairAt_none {point : Nat} {next : CodePoint} (plain : next ≠ .ofChar '\\') (t : Text) :
    pairAt point (next :: t) = .ok none := by
  rcases t with _ | ⟨u, _ | ⟨a, _ | ⟨b, _ | ⟨c, _ | ⟨d, _ | ⟨after, rest⟩⟩⟩⟩⟩⟩
  iterate 6
    rfl
  next =>
    simp [pairAt, surrogatePair, plain]

theorem pairAt_escape {point : Nat} {e : CodePoint} (short : e ≠ .ofChar 'u') (t : Text) :
    pairAt point (.ofChar '\\' :: e :: t) = .ok none := by
  rcases t with _ | ⟨a, _ | ⟨b, _ | ⟨c, _ | ⟨d, _ | ⟨after, rest⟩⟩⟩⟩⟩
  iterate 5
    rfl
  next =>
    simp [pairAt, surrogatePair, short]

theorem pairAt_unit {point n : Nat} (small : n < 0x10000)
    (apart : isHighSurrogate point = true → isLowSurrogate n = false) (t : Text) :
    pairAt point (escapeUnit n ++ t) = .ok none := by
  cases t with
  | nil => rfl
  | cons after rest =>
    cases high : isHighSurrogate point with
    | false => simp [escapeUnit, pairAt, surrogatePair, high]
    | true =>
      simp [escapeUnit, pairAt, surrogatePair, hexPoint_escapeUnit small, apart high]

theorem shortEscape_ne {c e : CodePoint} (short : shortEscape c = some e) : e ≠ .ofChar 'u' := by
  unfold shortEscape at short
  split_ifs at short with quote
  · cases short
    rcases quote with rfl | rfl
    · decide
    · decide
  all_goals
    cases short
    decide

/-- An escaped character is not joined to the character before it. -/
theorem pairAt_escapeChar {point : Nat} {c : CodePoint}
    (apart : isHighSurrogate point = true → isLowSurrogate c.val = false) (t : Text) :
    pairAt point (escapeChar c ++ t) = .ok none := by
  unfold escapeChar
  cases short : shortEscape c with
  | some e => exact pairAt_escape (shortEscape_ne short) t
  | none =>
    dsimp only
    split_ifs with printable plane
    · apply pairAt_none
      rintro rfl
      cases short
    · exact pairAt_unit plane apart t
    · rw [List.append_assoc]
      have bound := c.isLt
      have notLow : isLowSurrogate (0xD800 + (c.val - 0x10000) / 0x400) = false := by
        simp only [isLowSurrogate, Bool.and_eq_false_iff, decide_eq_false_iff_not]
        omega
      exact pairAt_unit (by omega) (fun _ => notLow) _

theorem simpleEscape_shortEscape {c e : CodePoint} (short : shortEscape c = some e) :
    simpleEscape e = some c := by
  unfold shortEscape at short
  split_ifs at short with quote back form feed return' tab
  · cases short
    rcases quote with rfl | rfl
    · decide
    · decide
  all_goals
    cases short
    subst_vars
    decide

theorem scanString_unit {start t : Text} {n : Nat} (small : n < 0x10000)
    (apart : pairAt n t = .ok none) (more : t ≠ []) :
    scanString start (escapeUnit n ++ t) = push (pointOf n) (scanString start t) := by
  rw [escapeUnit]
  simp only [List.cons_append, List.nil_append]
  rw [scanString_unicode more, hexPoint_escapeUnit small]
  dsimp only
  rw [apart]

/-- Two escapes of a surrogate pair are read as one character. -/
theorem scanString_joined {start t : Text} {h l : Nat} (isHigh : isHighSurrogate h = true)
    (isLow : isLowSurrogate l = true) (more : t ≠ []) :
    scanString start (escapeUnit h ++ (escapeUnit l ++ t)) =
      push (pointOf (joinSurrogates h l)) (scanString start t) := by
  have smallHigh : h < 0x10000 := by
    simp only [isHighSurrogate, Bool.and_eq_true, decide_eq_true_eq] at isHigh
    omega
  have smallLow : l < 0x10000 := by
    simp only [isLowSurrogate, Bool.and_eq_true, decide_eq_true_eq] at isLow
    omega
  obtain ⟨after, rest, rfl⟩ := List.exists_cons_of_ne_nil more
  have pair : pairAt h (escapeUnit l ++ after :: rest) =
      .ok (some (joinSurrogates h l, after :: rest)) := by
    simp [escapeUnit, pairAt, surrogatePair, isHigh, hexPoint_escapeUnit smallLow, isLow]
  have longer : escapeUnit l ++ after :: rest ≠ [] := List.cons_ne_nil _ _
  generalize escapeUnit l ++ after :: rest = later at longer pair ⊢
  rw [escapeUnit]
  simp only [List.cons_append, List.nil_append]
  rw [scanString_unicode longer, hexPoint_escapeUnit smallHigh]
  dsimp only
  rw [pair]

/-- A character beyond the first plane is written as two escapes. -/
theorem scanString_pair {start t : Text} {c : CodePoint} (large : 0x10000 ≤ c.val) (more : t ≠ []) :
    scanString start (escapeUnit (0xD800 + (c.val - 0x10000) / 0x400) ++
      (escapeUnit (0xDC00 + (c.val - 0x10000) % 0x400) ++ t)) = push c (scanString start t) := by
  have bound := c.isLt
  have isHigh : isHighSurrogate (0xD800 + (c.val - 0x10000) / 0x400) = true := by
    simp only [isHighSurrogate, Bool.and_eq_true, decide_eq_true_eq]
    omega
  have isLow : isLowSurrogate (0xDC00 + (c.val - 0x10000) % 0x400) = true := by
    simp only [isLowSurrogate, Bool.and_eq_true, decide_eq_true_eq]
    omega
  have same : joinSurrogates (0xD800 + (c.val - 0x10000) / 0x400)
      (0xDC00 + (c.val - 0x10000) % 0x400) = c.val := by
    unfold joinSurrogates
    omega
  rw [scanString_joined isHigh isLow more, same, pointOf_val]

theorem scanString_escapeChar {start t : Text} {c : CodePoint}
    (apart : pairAt c.val t = .ok none) (more : t ≠ []) :
    scanString start (escapeChar c ++ t) = push c (scanString start t) := by
  unfold escapeChar
  cases short : shortEscape c with
  | some e => exact scanString_escape (simpleEscape_shortEscape short)
  | none =>
    dsimp only
    split_ifs with printable plane
    · refine scanString_plain ?_ ?_ (by omega)
      · rintro rfl
        cases short
      · rintro rfl
        cases short
    · rw [scanString_unit plane apart more, pointOf_val]
    · rw [List.append_assoc]
      exact scanString_pair (by omega) more

/-- A text between quotes is read back. -/
theorem scanString_dumpsString {start : Text} {text : Text} (unjoined : Unjoined text) (r : Text) :
    scanString start (text.flatMap escapeChar ++ (.ofChar '"' :: r)) = .ok (text, r) := by
  induction text with
  | nil => exact scanString_quote
  | cons c text ih =>
    have apart : pairAt c.val (text.flatMap escapeChar ++ (.ofChar '"' :: r)) = .ok none := by
      cases text with
      | nil => exact pairAt_none (by decide) r
      | cons next text =>
        rw [List.flatMap_cons, List.append_assoc]
        exact pairAt_escapeChar (List.isChain_cons_cons.mp unjoined).1 _
    rw [List.flatMap_cons, List.append_assoc, scanString_escapeChar apart (by simp),
      ih unjoined.tail]
    rfl

/-! ## Values are read back -/

/-- The scanner reads the text of a number back, whatever follows it. -/
def Shows (hooks : Hooks ε N) (x : Text) (n : N) : Prop :=
  IsNumber x ∧ ∀ r, Stops r → scanNumber hooks (x ++ r) = .ok (.number n, r)

/-- The values that are read back, with at most so many containers inside one another. -/
inductive Writes (hooks : Hooks ε N) (shown : N → Text) : Nat → Value N → Prop
  | null {k : Nat} : Writes hooks shown k .null
  | bool {k : Nat} (b : Bool) : Writes hooks shown k (.bool b)
  | number {k : Nat} {n : N} : Shows hooks (shown n) n → Writes hooks shown k (.number n)
  | string {k : Nat} {text : Text} : Unjoined text → Writes hooks shown k (.string text)
  | array {k : Nat} {items : List (Value N)} :
    (∀ item ∈ items, Writes hooks shown k item) → Writes hooks shown (k + 1) (.array items)
  | object {k : Nat} {members : List (Text × Value N)} : (members.map Prod.fst).Nodup →
    (∀ member ∈ members, Unjoined member.1) →
    (∀ member ∈ members, Writes hooks shown k member.2) → Writes hooks shown (k + 1) (.object members)

/-- A member of an object. -/
def dumpsMember (space : Text) (shown : N → Text) (member : Text × Value N) : Text :=
  dumpsString member.1 ++ (.ofChar ':' :: (space ++ dumps space shown member.2))

/-- A further item behind a comma. -/
def dumpsNext {α : Type} (space : Text) (written : α → Text) (a : α) : Text :=
  .ofChar ',' :: (space ++ written a)

theorem dumpsItems_eq (space : Text) (shown : N → Text) (items : List (Value N)) :
    dumpsItems space shown items = items.flatMap (dumpsNext space (dumps space shown)) := by
  induction items with
  | nil => rw [dumpsItems, List.flatMap_nil]
  | cons item items ih =>
    rw [dumpsItems, ih, List.flatMap_cons]
    simp only [dumpsNext, List.cons_append, List.append_assoc]

theorem dumpsMembers_eq (space : Text) (shown : N → Text) (members : List (Text × Value N)) :
    dumpsMembers space shown members = members.flatMap (dumpsNext space (dumpsMember space shown)) := by
  induction members with
  | nil => rw [dumpsMembers, List.flatMap_nil]
  | cons member members ih =>
    obtain ⟨key, value⟩ := member
    rw [dumpsMembers, ih, List.flatMap_cons]
    simp only [dumpsNext, dumpsMember, List.cons_append, List.append_assoc]

theorem dumps_array_cons (space : Text) (shown : N → Text) (item : Value N) (items : List (Value N)) :
    dumps space shown (.array (item :: items)) =
      Item.value.opening :: (dumps space shown item ++
        (items.flatMap (dumpsNext space (dumps space shown)) ++ [Item.value.closing])) := by
  rw [dumps, dumpsItems_eq]
  rfl

theorem dumps_object_cons (space : Text) (shown : N → Text) (member : Text × Value N)
    (members : List (Text × Value N)) :
    dumps space shown (.object (member :: members)) =
      Item.member.opening :: (dumpsMember space shown member ++
        (members.flatMap (dumpsNext space (dumpsMember space shown)) ++ [Item.member.closing])) := by
  obtain ⟨key, value⟩ := member
  rw [dumps, dumpsMembers_eq]
  simp only [dumpsMember, List.cons_append, List.append_assoc]
  rfl

theorem begins_quote : Begins (.ofChar '"') := ⟨by decide, fun i => by cases i <;> decide⟩

theorem begins_opening (i : Item) : Begins i.opening := by
  cases i with
  | value => exact ⟨by decide, fun i => by cases i <;> decide⟩
  | member => exact ⟨by decide, fun i => by cases i <;> decide⟩

variable {hooks : Hooks ε N} {shown : N → Text} {space : Text}

theorem IsNumber.begins {x : Text} (number : IsNumber x) :
    ∃ c rest, x = c :: rest ∧ Begins c ∧ isNumberChar c = true := by
  obtain ⟨c, rest, rfl, digit | rfl⟩ := number.head
  · exact ⟨c, rest, rfl, begins_of_isDigit digit, isNumberChar_of_isDigit digit⟩
  · exact ⟨_, rest, rfl, ⟨by decide, fun i => by cases i <;> decide⟩, by decide⟩

/-- No written value begins with space. -/
theorem Writes.begins {k : Nat} {v : Value N} (writes : Writes hooks shown k v) :
    ∃ c rest, dumps space shown v = c :: rest ∧ Begins c := by
  cases writes with
  | null =>
    rw [dumps]
    exact begins_of_literal (mem_literals.mpr (.inl rfl))
  | bool b =>
    cases b with
    | true =>
      rw [dumps]
      exact begins_of_literal (mem_literals.mpr (.inr (.inl rfl)))
    | false =>
      rw [dumps]
      exact begins_of_literal (mem_literals.mpr (.inr (.inr rfl)))
  | number shows =>
    rw [dumps]
    obtain ⟨c, rest, same, begins, -⟩ := shows.1.begins
    exact ⟨c, rest, same, begins⟩
  | string _ =>
    rw [dumps]
    exact ⟨_, _, rfl, begins_quote⟩
  | @array k items _ =>
    cases items with
    | nil =>
      rw [dumps]
      exact ⟨Item.value.opening, _, rfl, begins_opening .value⟩
    | cons item items =>
      rw [dumps_array_cons]
      exact ⟨_, _, rfl, begins_opening .value⟩
  | @object k members _ _ _ =>
    cases members with
    | nil =>
      rw [dumps]
      exact ⟨Item.member.opening, _, rfl, begins_opening .member⟩
    | cons member members =>
      rw [dumps_object_cons]
      exact ⟨_, _, rfl, begins_opening .member⟩

/-- Written items of a container: each begins no space and is read back. -/
structure ReadBack {α : Type} (item : Text → Scanned ε α) (written : α → Text) (a : α) : Prop where
  begins : ∃ c rest, written a = c :: rest ∧ Begins c
  reads : ∀ r, Stops r → item (written a ++ r) = .ok (a, r)

theorem ReadBack.skipSpace_eq {α : Type} {item : Text → Scanned ε α} {written : α → Text} {a : α}
    (back : ReadBack item written a) (spaces : ∀ c ∈ space, isSpace c = true) (r : Text) :
    skipSpace (space ++ (written a ++ r)) = written a ++ r := by
  obtain ⟨c, rest, same, begins⟩ := back.begins
  have before : Space (space ++ (written a ++ r)) (written a ++ r) := ⟨space, rfl, spaces⟩
  refine before.skipSpace_eq fun d head => ?_
  rw [same] at head
  cases head
  exact begins.1

theorem stops_closing (i : Item) (r : Text) : Stops (i.closing :: r) := by
  intro c head
  cases head
  exact (not_isSpace_closing i).2.1

/-- The items of a container are read back. -/
theorem scanItems_written {α : Type} (i : Item) {item : Text → Scanned ε α} {written : α → Text}
    (spaces : ∀ c ∈ space, isSpace c = true) {a : α} {later : List α}
    (back : ∀ b ∈ a :: later, ReadBack item written b) {fuel : Nat} (enough : later.length < fuel)
    (r : Text) :
    scanItems i.closing item fuel
      (written a ++ (later.flatMap (dumpsNext space written) ++ (i.closing :: r))) =
        .ok (a :: later, r) := by
  induction later generalizing a fuel with
  | nil =>
    obtain ⟨fuel, rfl⟩ := Nat.exists_eq_add_one.mpr enough
    rw [List.flatMap_nil, List.nil_append, scanItems,
      (back a List.mem_cons_self).reads _ (stops_closing i r)]
    dsimp only
    rw [afterItem_of_closed (.refl _)]
  | cons b later ih =>
    obtain ⟨fuel, rfl⟩ := Nat.exists_eq_add_one.mpr (Nat.zero_lt_of_lt enough)
    rw [List.length_cons] at enough
    have next := back b (List.mem_cons_of_mem a List.mem_cons_self)
    have stop : ∀ t, Stops (.ofChar ',' :: t) := by
      intro t c head
      cases head
      decide
    rw [List.flatMap_cons, dumpsNext, List.cons_append, List.cons_append, scanItems,
      (back a List.mem_cons_self).reads _ (stop _)]
    dsimp only
    rw [afterItem_of_comma (.refl _), List.append_assoc, List.append_assoc, next.skipSpace_eq spaces]
    dsimp only
    rw [ih (fun c member => back c (List.mem_cons_of_mem a member)) (by omega)]

/-- A container of written items is read back. -/
theorem scanOnce_written (i : Item) {stack : Nat} {written : i.Found N → Text}
    (spaces : ∀ c ∈ space, isSpace c = true) {a : i.Found N} {later : List (i.Found N)}
    (back : ∀ b ∈ a :: later, ReadBack (scanItem (scanOnce hooks stack) i) written b) (r : Text) :
    scanOnce hooks (stack + 1) (i.opening ::
      (written a ++ (later.flatMap (dumpsNext space written) ++ (i.closing :: r)))) =
        .ok (i.build (a :: later), r) := by
  have first := back a List.mem_cons_self
  have plain : skipSpace (written a ++ (later.flatMap (dumpsNext space written) ++ (i.closing :: r))) =
      written a ++ (later.flatMap (dumpsNext space written) ++ (i.closing :: r)) :=
    first.skipSpace_eq (List.forall_mem_nil (isSpace · = true)) _
  have length : later.length ≤ (later.flatMap (dumpsNext space written)).length := by
    rw [List.length_flatMap]
    calc later.length = (later.map fun _ => 1).sum := by simp
      _ ≤ (later.map fun b => (dumpsNext space written b).length).sum :=
        List.sum_le_sum fun b _ => by
          rw [dumpsNext, List.length_cons]
          omega
  obtain ⟨c, rest, same, begins⟩ := first.begins
  rw [scanOnce_container, scanContainer, plain]
  have items := fun fuel (enough : later.length < fuel) => scanItems_written i spaces back enough r
  rw [same, List.cons_append] at items ⊢
  dsimp only
  rw [if_neg (begins.2 i), items]
  · rfl
  · simp only [List.length_append, List.length_cons]
    omega

theorem scanMember_written {stack : Nat} (spaces : ∀ c ∈ space, isSpace c = true)
    {member : Text × Value N} (unjoined : Unjoined member.1)
    (back : ReadBack (scanOnce hooks stack) (dumps space shown) member.2) :
    ReadBack (scanMember (scanOnce hooks stack)) (dumpsMember space shown) member where
  begins := ⟨_, _, rfl, begins_quote⟩
  reads := by
    intro r stop
    obtain ⟨key, value⟩ := member
    have skipped := back.skipSpace_eq spaces r
    have colon : ∀ t, skipSpace (.ofChar ':' :: t) = .ofChar ':' :: t := fun t => rfl
    simp only [dumpsMember, dumpsString, List.cons_append, List.append_assoc, List.nil_append]
    rw [scanMember, if_pos rfl, scanString_dumpsString unjoined]
    dsimp only
    rw [colon]
    dsimp only
    rw [if_pos rfl, skipped, back.reads r stop]

theorem foldl_setItem {members : List (Text × Value N)} (distinct : (members.map Prod.fst).Nodup) :
    members.foldl setItem [] = members := by
  suffices go : ∀ first : List (Text × Value N), ((first ++ members).map Prod.fst).Nodup →
      members.foldl setItem first = first ++ members from go [] distinct
  clear distinct
  induction members with
  | nil =>
    intro first _
    exact (List.append_nil first).symm
  | cons member members ih =>
    intro first distinct
    have absent : first.any (fun old => old.1 = member.1) = false := by
      rw [List.any_eq_false]
      intro old inFirst same
      rw [List.map_append, List.map_cons, List.nodup_append] at distinct
      exact distinct.2.2 old.1 (List.mem_map_of_mem inFirst) member.1 List.mem_cons_self
        (of_decide_eq_true same)
    rw [List.append_cons] at distinct
    rw [List.foldl_cons, setItem, absent, if_neg Bool.false_ne_true, ih _ distinct,
      ← List.append_cons]

theorem scanOnce_literal_eq {stack : Nat} {x r : Text} {v : Value N} (literal : x ∈ literals)
    (found : scanLiteral hooks (x ++ r) = some (.ok (v, r))) :
    scanOnce hooks stack (x ++ r) = .ok (v, r) := by
  obtain ⟨c, rest, rfl, begins⟩ := begins_of_literal literal
  have letter : c = .ofChar 'n' ∨ c = .ofChar 't' ∨ c = .ofChar 'f' := by
    rcases mem_literals.mp literal with same | same | same
    · injection same with same
      exact .inl same
    · injection same with same
      exact .inr (.inl same)
    · injection same with same
      exact .inr (.inr same)
  rw [List.cons_append] at found ⊢
  rw [scanOnce_plain begins (.inr letter), found, Option.getD_some]

theorem scanOnce_shows {stack : Nat} {x r : Text} {n : N} (shows : Shows hooks x n) (stop : Stops r) :
    scanOnce hooks stack (x ++ r) = .ok (.number n, r) := by
  have scanned := shows.2 r stop
  have none := scanLiteral_none hooks (shows.1.not_constant (r := r))
  obtain ⟨c, rest, rfl, begins, char⟩ := shows.1.begins
  rw [List.cons_append] at none scanned ⊢
  rw [scanOnce_plain begins (.inl char), none, Option.getD_none, scanned]

/-- A written value is read back, whatever follows it. -/
theorem scanOnce_dumps (spaces : ∀ c ∈ space, isSpace c = true) {k : Nat} {v : Value N}
    (writes : Writes hooks shown k v) {stack : Nat} (room : k ≤ stack) (r : Text) (stop : Stops r) :
    scanOnce hooks stack (dumps space shown v ++ r) = .ok (v, r) := by
  induction writes generalizing stack r with
  | null =>
    rw [dumps]
    exact scanOnce_literal_eq (mem_literals.mpr (.inl rfl)) (by simp [scanLiteral, lit])
  | bool b =>
    have nt : CodePoint.ofChar 'n' ≠ .ofChar 't' := by decide
    have nf : CodePoint.ofChar 'n' ≠ .ofChar 'f' := by decide
    have tf : CodePoint.ofChar 't' ≠ .ofChar 'f' := by decide
    cases b with
    | true =>
      rw [dumps]
      exact scanOnce_literal_eq (mem_literals.mpr (.inr (.inl rfl))) (by simp [scanLiteral, lit, nt])
    | false =>
      rw [dumps]
      exact scanOnce_literal_eq (mem_literals.mpr (.inr (.inr rfl)))
        (by simp [scanLiteral, lit, nf, tf])
  | number shows =>
    rw [dumps]
    exact scanOnce_shows shows stop
  | string unjoined =>
    rw [dumps, dumpsString, List.cons_append, List.append_assoc, List.singleton_append,
      scanOnce_string, scanString_dumpsString unjoined]
  | @array k items writes ih =>
    obtain ⟨stack, rfl⟩ := Nat.exists_eq_add_one.mpr (Nat.lt_of_lt_of_le k.succ_pos room)
    have back : ∀ item ∈ items, ReadBack (scanOnce hooks stack) (dumps space shown) item :=
      fun item member => ⟨(writes item member).begins, fun r stop =>
        ih item member (Nat.le_of_succ_le_succ room) r stop⟩
    cases items with
    | nil =>
      rw [dumps]
      exact scanOnce_container (i := .value)
    | cons item items =>
      have read := scanOnce_written .value spaces back r
      rw [dumps_array_cons, List.cons_append, List.append_assoc, List.append_assoc,
        List.singleton_append, read]
      rfl
  | @object k members distinct unjoined writes ih =>
    obtain ⟨stack, rfl⟩ := Nat.exists_eq_add_one.mpr (Nat.lt_of_lt_of_le k.succ_pos room)
    have back : ∀ member ∈ members,
        ReadBack (scanMember (scanOnce hooks stack)) (dumpsMember space shown) member :=
      fun member inside => scanMember_written spaces (unjoined member inside)
        ⟨(writes member inside).begins, fun r stop =>
          ih member inside (Nat.le_of_succ_le_succ room) r stop⟩
    cases members with
    | nil =>
      rw [dumps]
      exact scanOnce_container (i := .member)
    | cons member members =>
      have read := scanOnce_written .member spaces back r
      rw [dumps_object_cons, List.cons_append, List.append_assoc, List.append_assoc,
        List.singleton_append, read]
      simp only [Item.build, foldl_setItem distinct]

/-- The decoder reads back what the encoder wrote. -/
theorem decode_dumps (spaces : ∀ c ∈ space, isSpace c = true) {k : Nat} {v : Value N}
    (writes : Writes hooks shown k v) {stack : Nat} (room : k ≤ stack) :
    decode hooks stack (dumps space shown v) = .ok v := by
  obtain ⟨c, rest, same, begins⟩ : ∃ c rest, dumps space shown v = c :: rest ∧ Begins c :=
    writes.begins
  have ended : Stops [] := by
    intro c head
    cases head
  have read := scanOnce_dumps spaces writes room [] ended
  have plain : skipSpace (dumps space shown v) = dumps space shown v := by
    rw [same]
    exact List.dropWhile_cons_of_neg (by rw [begins.1]; exact Bool.false_ne_true)
  rw [List.append_nil] at read
  rw [decode, plain, rawDecode, read]
  rfl

/-- An integer is read back when the hook reads its digits back. -/
theorem shows_integer {sign digits : Text} {n : N} (signed : IsSign sign)
    (whole : IsInteger digits) (parsed : hooks.parseInt (sign ++ digits) = .ok n) :
    Shows hooks (sign ++ digits) n := by
  constructor
  · exact ⟨sign, digits, [], [], by simp, signed, whole, .inl rfl, .inl rfl⟩
  · intro r stop
    obtain ⟨d, ds, rfl, digit⟩ := whole.head
    have first : ∀ c ∈ r.head?, isDigit c = false := fun c head =>
      (not_isDigit_of_not_isNumberChar (stop c head)).1
    have second : ∀ c ∈ r.head?, isDigit c = false ∧ c ≠ .ofChar '.' := fun c head =>
      have others := not_isDigit_of_not_isNumberChar (stop c head)
      ⟨others.1, others.2.1⟩
    have third : ∀ c ∈ r.head?, isDigit c = false ∧ c ≠ .ofChar 'e' ∧ c ≠ .ofChar 'E' :=
      fun c head =>
      have others := not_isDigit_of_not_isNumberChar (stop c head)
      ⟨others.1, others.2.2⟩
    have readSign : matchSign (sign ++ (d :: ds ++ r)) = (sign, d :: ds ++ r) :=
      matchSign_complete signed ⟨d, ds ++ r, rfl, digit⟩
    have readFraction : matchFraction r = ([], r) := matchFraction_complete (.inl rfl) second
    have readExponent : matchExponent r = ([], r) := matchExponent_complete (.inl rfl) third
    have found : matchNumber (sign ++ (d :: ds ++ r)) = some ⟨sign ++ d :: ds, false, r⟩ := by
      rw [matchNumber, readSign]
      simp only [Option.bind_eq_bind, matchInteger_complete whole first, Option.bind_some,
        readFraction, readExponent, List.append_nil, ne_eq, not_true_eq_false, or_self, decide_false]
    rw [List.append_assoc, scanNumber, found]
    simp [parsed]

/-- A number with a fraction or an exponent is read back when its hook reads it back. -/
theorem shows_float {x : Text} {n : N} (number : IsNumber x)
    (mark : ∃ c ∈ x, isDigit c = false ∧ c ≠ .ofChar '-') (parsed : hooks.parseFloat x = .ok n) :
    Shows hooks x n := by
  refine ⟨number, fun r stop => ?_⟩
  obtain ⟨m, found, text, rest⟩ := matchNumber_complete number stop
  have float : m.isFloat = true := by
    obtain ⟨sign, integer, fraction, exponent, r₁, r₂, r₃, signed, whole, -, -, parts, isFloat⟩ :=
      matchNumber_parts found
    rw [isFloat, decide_eq_true_eq]
    by_contra neither
    rw [not_or, not_not, not_not] at neither
    obtain ⟨c, member, digit, minus⟩ := mark
    rw [← text, parts, neither.1, neither.2, List.append_nil, List.append_nil] at member
    rcases List.mem_append.mp member with inSign | inInteger
    · rcases (matchSign_sound signed).2 with rfl | rfl
      · exact List.not_mem_nil inSign
      · exact minus (List.mem_singleton.mp inSign)
    · rcases (matchInteger_sound whole).2 with rfl | ⟨d, ds, rfl, -, digits⟩
      · rw [List.mem_singleton.mp inInteger] at digit
        cases digit
      · rw [digits c inInteger] at digit
        cases digit
  rw [scanNumber, found]
  dsimp only
  rw [if_pos float, text, parsed, rest]

/-! ## The text is printable ASCII -/

def Printable (text : Text) : Prop := ∀ c ∈ text, 0x20 ≤ c.val ∧ c.val ≤ 0x7E

theorem printable_of_all {text : Text}
    (all : (text.all fun c => decide (0x20 ≤ c.val ∧ c.val ≤ 0x7E)) = true) : Printable text := by
  intro c member
  exact of_decide_eq_true (List.all_eq_true.mp all c member)

theorem printable_append {first last : Text} :
    Printable (first ++ last) ↔ Printable first ∧ Printable last := by
  simp only [Printable, List.forall_mem_append]

theorem printable_cons {c : CodePoint} {rest : Text} :
    Printable (c :: rest) ↔ (0x20 ≤ c.val ∧ c.val ≤ 0x7E) ∧ Printable rest := by
  simp only [Printable, List.forall_mem_cons]

theorem printable_flatMap {α : Type} {items : List α} {written : α → Text}
    (each : ∀ a ∈ items, Printable (written a)) : Printable (items.flatMap written) := by
  intro c member
  obtain ⟨a, inside, member⟩ := List.mem_flatMap.mp member
  exact each a inside c member

theorem pointOf_small {n : Nat} (small : n < 0x110000) : (pointOf n).val = n :=
  Nat.mod_eq_of_lt small

theorem printable_escapeUnit (n : Nat) : Printable (escapeUnit n) := by
  have hex : ∀ k, 0x20 ≤ (hexChar (k % 16)).val ∧ (hexChar (k % 16)).val ≤ 0x7E := by
    intro k
    have small := Nat.mod_lt k (show 0 < 16 by decide)
    unfold hexChar
    split_ifs
    · rw [pointOf_small (by omega)]
      omega
    · rw [pointOf_small (by omega)]
      omega
  have backslash : 0x20 ≤ (CodePoint.ofChar '\\').val ∧ (CodePoint.ofChar '\\').val ≤ 0x7E := by
    decide
  have letter : 0x20 ≤ (CodePoint.ofChar 'u').val ∧ (CodePoint.ofChar 'u').val ≤ 0x7E := by decide
  simp only [escapeUnit, printable_cons]
  exact ⟨backslash, letter, hex _, hex _, hex _, hex _, List.forall_mem_nil _⟩

theorem printable_shortEscape {c e : CodePoint} (short : shortEscape c = some e) :
    0x20 ≤ e.val ∧ e.val ≤ 0x7E := by
  unfold shortEscape at short
  split_ifs at short with quote
  · cases short
    rcases quote with rfl | rfl
    · decide
    · decide
  all_goals
    cases short
    decide

theorem printable_escapeChar (c : CodePoint) : Printable (escapeChar c) := by
  unfold escapeChar
  cases short : shortEscape c with
  | some e =>
    simp only [printable_cons]
    exact ⟨by decide, printable_shortEscape short, List.forall_mem_nil _⟩
  | none =>
    dsimp only
    split_ifs with printable plane
    · exact printable_cons.mpr ⟨printable, List.forall_mem_nil _⟩
    · exact printable_escapeUnit _
    · exact printable_append.mpr ⟨printable_escapeUnit _, printable_escapeUnit _⟩

theorem printable_dumpsString (text : Text) : Printable (dumpsString text) := by
  rw [dumpsString, printable_cons, printable_append]
  refine ⟨by decide, printable_flatMap fun c _ => printable_escapeChar c, ?_⟩
  exact printable_cons.mpr ⟨by decide, List.forall_mem_nil _⟩

theorem IsNumber.printable {x : Text} (number : IsNumber x) : Printable x := by
  intro c member
  have char := number.numberChars member
  simp only [isNumberChar, isDigit, Bool.or_eq_true, Bool.and_eq_true, decide_eq_true_eq] at char
  rcases char with ((((⟨low, high⟩ | rfl) | rfl) | rfl) | rfl) | rfl
  · have low' : 0x30 ≤ c.val := low
    have high' : c.val ≤ 0x39 := high
    omega
  all_goals decide

theorem printable_next {α : Type} {written : α → Text} {items : List α} (spaces : Printable space)
    (each : ∀ a ∈ items, Printable (written a)) :
    Printable (items.flatMap (dumpsNext space written)) := by
  apply printable_flatMap
  intro a member
  rw [dumpsNext, printable_cons, printable_append]
  exact ⟨by decide, spaces, each a member⟩

/-- The encoder writes printable ASCII. -/
theorem printable_dumps (spaces : Printable space) {k : Nat} {v : Value N}
    (writes : Writes hooks shown k v) : Printable (dumps space shown v) := by
  have bracket : ∀ i : Item, (0x20 ≤ i.opening.val ∧ i.opening.val ≤ 0x7E) ∧
      (0x20 ≤ i.closing.val ∧ i.closing.val ≤ 0x7E) := by
    intro i
    cases i with
    | value => decide
    | member => decide
  induction writes with
  | null =>
    rw [dumps]
    exact printable_of_all rfl
  | bool b =>
    cases b with
    | true =>
      rw [dumps]
      exact printable_of_all rfl
    | false =>
      rw [dumps]
      exact printable_of_all rfl
  | number shows =>
    rw [dumps]
    exact shows.1.printable
  | string _ =>
    rw [dumps]
    exact printable_dumpsString _
  | @array k items _ ih =>
    cases items with
    | nil =>
      rw [dumps]
      exact printable_of_all rfl
    | cons item items =>
      rw [dumps_array_cons, printable_cons, printable_append, printable_append, printable_cons]
      exact ⟨(bracket .value).1, ih item List.mem_cons_self,
        printable_next spaces fun a member => ih a (List.mem_cons_of_mem item member),
        (bracket .value).2, List.forall_mem_nil _⟩
  | @object k members _ _ _ ih =>
    cases members with
    | nil =>
      rw [dumps]
      exact printable_of_all rfl
    | cons member members =>
      have each : ∀ a ∈ member :: members, Printable (dumpsMember space shown a) := by
        intro a inside
        rw [dumpsMember, printable_append, printable_cons, printable_append]
        exact ⟨printable_dumpsString _, by decide, spaces, ih a inside⟩
      rw [dumps_object_cons, printable_cons, printable_append, printable_append, printable_cons]
      exact ⟨(bracket .member).1, each member List.mem_cons_self,
        printable_next spaces fun a inside => each a (List.mem_cons_of_mem member inside),
        (bracket .member).2, List.forall_mem_nil _⟩

/-! ## Surrogate pairs -/

/-- The text with every pair of surrogates joined, as the decoder reads it. -/
def joinPairs : Text → Text
  | [] => []
  | [c] => [c]
  | c :: next :: rest =>
    if isHighSurrogate c.val ∧ isLowSurrogate next.val then
      pointOf (joinSurrogates c.val next.val) :: joinPairs rest
    else c :: joinPairs (next :: rest)

theorem shortEscape_large {c : CodePoint} (large : 0x7F ≤ c.val) : shortEscape c = none := by
  have apart : ∀ d : CodePoint, d.val < 0x7F → c ≠ d := by
    intro d small same
    rw [same] at large
    omega
  unfold shortEscape
  rw [if_neg (not_or.mpr ⟨apart _ (by decide), apart _ (by decide)⟩), if_neg (apart _ (by decide)),
    if_neg (apart _ (by decide)), if_neg (apart _ (by decide)), if_neg (apart _ (by decide)),
    if_neg (apart _ (by decide))]

theorem escapeChar_unit {c : CodePoint} (large : 0x7F ≤ c.val) (plane : c.val < 0x10000) :
    escapeChar c = escapeUnit c.val := by
  unfold escapeChar
  rw [shortEscape_large large]
  dsimp only
  rw [if_neg (by omega), if_pos plane]

theorem escapeChar_pair {c : CodePoint} (large : 0x10000 ≤ c.val) :
    escapeChar c = escapeUnit (0xD800 + (c.val - 0x10000) / 0x400) ++
      escapeUnit (0xDC00 + (c.val - 0x10000) % 0x400) := by
  unfold escapeChar
  rw [shortEscape_large (by omega)]
  dsimp only
  rw [if_neg (by omega), if_neg (by omega)]

theorem val_joined {c next : CodePoint} (high : isHighSurrogate c.val = true)
    (low : isLowSurrogate next.val = true) :
    (pointOf (joinSurrogates c.val next.val)).val = joinSurrogates c.val next.val ∧
      0x10000 ≤ joinSurrogates c.val next.val := by
  simp only [isHighSurrogate, Bool.and_eq_true, decide_eq_true_eq] at high
  simp only [isLowSurrogate, Bool.and_eq_true, decide_eq_true_eq] at low
  unfold joinSurrogates
  exact ⟨pointOf_small (by omega), by omega⟩

/-- A joined pair is escaped as its two halves are. -/
theorem escapeChar_joined {c next : CodePoint} (high : isHighSurrogate c.val = true)
    (low : isLowSurrogate next.val = true) :
    escapeChar (pointOf (joinSurrogates c.val next.val)) = escapeChar c ++ escapeChar next := by
  obtain ⟨value, plane⟩ := val_joined high low
  simp only [isHighSurrogate, Bool.and_eq_true, decide_eq_true_eq] at high
  simp only [isLowSurrogate, Bool.and_eq_true, decide_eq_true_eq] at low
  have upper : 0xD800 + (joinSurrogates c.val next.val - 0x10000) / 0x400 = c.val := by
    unfold joinSurrogates
    omega
  have lower : 0xDC00 + (joinSurrogates c.val next.val - 0x10000) % 0x400 = next.val := by
    unfold joinSurrogates
    omega
  rw [escapeChar_pair (by rw [value]; exact plane), value, upper, lower,
    escapeChar_unit (by omega) (by omega), escapeChar_unit (by omega) (by omega)]

theorem escape_joinPairs (text : Text) :
    (joinPairs text).flatMap escapeChar = text.flatMap escapeChar := by
  induction text using joinPairs.induct with
  | case1 => rfl
  | case2 c => rfl
  | case3 c next rest pair ih =>
    rw [joinPairs, if_pos pair, List.flatMap_cons, ih, escapeChar_joined pair.1 pair.2,
      List.flatMap_cons, List.flatMap_cons, List.append_assoc]
  | case4 c next rest apart ih =>
    rw [joinPairs, if_neg apart, List.flatMap_cons, ih]
    rfl

/-- A text and the one with its pairs joined are written the same. -/
theorem dumpsString_joinPairs (text : Text) : dumpsString (joinPairs text) = dumpsString text := by
  rw [dumpsString, escape_joinPairs]
  rfl

theorem head_joinPairs {c d : CodePoint} {rest : Text} (head : (joinPairs (c :: rest)).head? = some d)
    (low : isLowSurrogate d.val = true) : d = c := by
  cases rest with
  | nil =>
    cases head
    rfl
  | cons next rest =>
    rw [joinPairs] at head
    split_ifs at head with pair
    · obtain ⟨value, plane⟩ := val_joined pair.1 pair.2
      rw [List.head?_cons, Option.some.injEq] at head
      rw [← head, value] at low
      simp only [isLowSurrogate, Bool.and_eq_true, decide_eq_true_eq] at low
      omega
    · rw [List.head?_cons, Option.some.injEq] at head
      exact head.symm

/-- No pair is left. -/
theorem unjoined_joinPairs (text : Text) : Unjoined (joinPairs text) := by
  induction text using joinPairs.induct with
  | case1 => exact .nil
  | case2 c => exact .singleton c
  | case3 c next rest pair ih =>
    rw [joinPairs, if_pos pair]
    obtain ⟨value, plane⟩ := val_joined pair.1 pair.2
    apply List.IsChain.cons ih
    intro d _ high
    rw [value] at high
    simp only [isHighSurrogate, Bool.and_eq_true, decide_eq_true_eq] at high
    omega
  | case4 c next rest apart ih =>
    rw [joinPairs, if_neg apart]
    apply List.IsChain.cons ih
    intro d head high
    cases low : isLowSurrogate d.val with
    | false => rfl
    | true =>
      rw [head_joinPairs head low] at low
      exact absurd ⟨high, low⟩ apart

/-- A text without pairs stays. -/
theorem joinPairs_of_unjoined {text : Text} (unjoined : Unjoined text) : joinPairs text = text := by
  induction text using joinPairs.induct with
  | case1 => rfl
  | case2 c => rfl
  | case3 c next rest pair ih =>
    have low := (List.isChain_cons_cons.mp unjoined).1 pair.1
    rw [pair.2] at low
    cases low
  | case4 c next rest apart ih => rw [joinPairs, if_neg apart, ih unjoined.tail]

mutual

/-- The value with the pairs in its texts joined. -/
def Value.joined : Value N → Value N
  | .null => .null
  | .bool b => .bool b
  | .number n => .number n
  | .string text => .string (joinPairs text)
  | .array items => .array (joinedItems items)
  | .object members => .object (joinedMembers members)

def joinedItems : List (Value N) → List (Value N)
  | [] => []
  | item :: items => item.joined :: joinedItems items

def joinedMembers : List (Text × Value N) → List (Text × Value N)
  | [] => []
  | (key, value) :: members => (joinPairs key, value.joined) :: joinedMembers members

end

/-- Induction over the containers of a value. -/
theorem Value.induct {P : Value N → Prop} (null : P .null) (bool : ∀ b, P (.bool b))
    (number : ∀ n, P (.number n)) (string : ∀ text, P (.string text))
    (array : ∀ items, (∀ item ∈ items, P item) → P (.array items))
    (object : ∀ members, (∀ member ∈ members, P member.2) → P (.object members)) (v : Value N) :
    P v :=
  @Value.rec N P (fun items => ∀ item ∈ items, P item) (fun members => ∀ member ∈ members, P member.2)
    (fun member => P member.2) null bool number string array object (List.forall_mem_nil _)
    (fun _ _ item items => List.forall_mem_cons.mpr ⟨item, items⟩) (List.forall_mem_nil _)
    (fun _ _ member members => List.forall_mem_cons.mpr ⟨member, members⟩) (fun _ _ value => value) v

theorem joinedItems_eq (items : List (Value N)) : joinedItems items = items.map Value.joined := by
  induction items with
  | nil => rfl
  | cons item items ih => rw [joinedItems, ih, List.map_cons]

/-- A member with the pairs in its texts joined. -/
def joinedMember (member : Text × Value N) : Text × Value N := (joinPairs member.1, member.2.joined)

theorem joinedMembers_eq (members : List (Text × Value N)) :
    joinedMembers members = members.map joinedMember := by
  induction members with
  | nil => rfl
  | cons member members ih =>
    obtain ⟨key, value⟩ := member
    rw [joinedMembers, ih, List.map_cons]
    rfl

/-- A value and the one with its pairs joined are written the same. -/
theorem dumps_joined (space : Text) (shown : N → Text) (v : Value N) :
    dumps space shown v.joined = dumps space shown v := by
  induction v using Value.induct with
  | null => rfl
  | bool b => rfl
  | number n => rfl
  | string text => rw [Value.joined, dumps, dumpsString_joinPairs, dumps]
  | array items ih =>
    cases items with
    | nil => rfl
    | cons item items =>
      have later : (items.map Value.joined).flatMap (dumpsNext space (dumps space shown)) =
          items.flatMap (dumpsNext space (dumps space shown)) := by
        rw [List.flatMap_map]
        apply List.flatMap_congr
        intro next member
        rw [dumpsNext, dumpsNext, ih next (List.mem_cons_of_mem item member)]
      rw [Value.joined, joinedItems_eq, List.map_cons, dumps_array_cons, later,
        ih item List.mem_cons_self, dumps_array_cons]
  | object members ih =>
    have each : ∀ member ∈ members,
        dumpsMember space shown (joinedMember member) = dumpsMember space shown member := by
      intro member inside
      rw [dumpsMember, joinedMember, dumpsString_joinPairs, ih member inside, dumpsMember]
    cases members with
    | nil => rfl
    | cons member members =>
      have later : (members.map joinedMember).flatMap (dumpsNext space (dumpsMember space shown)) =
          members.flatMap (dumpsNext space (dumpsMember space shown)) := by
        rw [List.flatMap_map]
        apply List.flatMap_congr
        intro next inside
        rw [dumpsNext, dumpsNext, each next (List.mem_cons_of_mem member inside)]
      rw [Value.joined, joinedMembers_eq, List.map_cons, dumps_object_cons, later,
        each member List.mem_cons_self, dumps_object_cons]

end Dumps

end DataBridge.Json
