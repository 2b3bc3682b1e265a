import DataBridge.Hosts.IPv4
import Mathlib.Data.List.TakeWhile

/-!
# IPv6 addresses

`ipaddress.IPv6Address` and its `str`. An address keeps its number as its eight
hextets. Reading and writing meet at `ends`: both know a compressed address as
the parts before `::` and the parts after it.
-/

namespace DataBridge

abbrev Hextet := Fin 0x10000

/-! ## Reading -/

/-- `_parse_hextet`; `none` is a `ValueError`. Four digits always fit. -/
def parseHextet (text : Text) : Option Hextet :=
  if ¬ text.all (isDigitOf 16) then none
  else if 4 < text.length then none
  else if text = [] then none
  else some (.ofNat _ (intOf 16 text))

/-- The number of an IPv4 address. -/
def IPv4Address.ip (address : IPv4Address) : Nat :=
  address.octets.foldl (fun ip octet => ip * 0x100 + octet.val) 0

/-- An IPv4-style suffix is converted to hexadecimal. -/
def hexadecimalParts (parts : List Text) : Option (List Text) :=
  if dot ∈ parts.getLastD [] then
    (IPv4Address.parse (parts.getLastD [])).map fun address => parts.dropLast ++
      [numeral 16 (address.ip / 0x10000 % 0x10000), numeral 16 (address.ip % 0x10000)]
  else some parts

/-- The loop that looks for an empty part; `none` is an error about a second one. -/
def skipFrom (index : Nat) (skip : Option Nat) : List Text → Option (Option Nat)
  | [] => some skip
  | part :: parts =>
    if part ≠ [] then skipFrom (index + 1) skip parts
    else if skip.isSome then none
    else skipFrom (index + 1) (some index) parts

/-- `parts_hi` or `parts_lo`: an empty end belongs to `::` and stands next to it. -/
def countParts (atEnd : Option Text) (count : Nat) : Option Nat :=
  if atEnd = some [] then
    if count - 1 ≠ 0 then none else some (count - 1)
  else some count

/-- The hextets of an address with `::` at `skip`. -/
def skippedHextets (parts : List Text) (skip : Nat) : Option (List Hextet) := do
  let high ← countParts parts.head? skip
  let low ← countParts parts.getLast? (parts.length - skip - 1)
  if 8 ≤ high + low then none
  else do
    let first ← parseParts parseHextet (parts.take high)
    let last ← parseParts parseHextet (parts.drop (parts.length - low))
    some (first ++ List.replicate (8 - (high + low)) 0 ++ last)

/-- The hextets of an address without `::`. -/
def allHextets (parts : List Text) : Option (List Hextet) :=
  if parts.length ≠ 8 then none
  else if parts.head? = some [] then none
  else if parts.getLast? = some [] then none
  else parseParts parseHextet parts

/-- `_ip_int_from_string` from its parts on. -/
def hextetsOf (parts : List Text) : Option (List Hextet) := do
  match ← skipFrom 1 none parts.tail.dropLast with
  | some skip => skippedHextets parts skip
  | none => allHextets parts

/-- `_ip_int_from_string`. -/
def parseHextets (text : Text) : Option (List Hextet) :=
  if text = [] then none
  else if (text.splitOn colon).length < 3 then none
  else do
    let parts ← hexadecimalParts (text.splitOn colon)
    if 9 < parts.length then none else hextetsOf parts

/-- `_split_scope_id`. -/
def splitScopeId (text : Text) : Option (Text × Option Text) :=
  match text.dropWhile (· != percent) with
  | [] => some (text, none)
  | _ :: scopeId =>
    if scopeId = [] ∨ percent ∈ scopeId then none
    else some (text.takeWhile (· != percent), some scopeId)

theorem skipFrom_bound {index : Nat} {skip : Option Nat} {parts : List Text} {found : Nat}
    (looked : skipFrom index skip parts = some (some found)) :
    skip = some found ∨ index ≤ found ∧ found < index + parts.length := by
  induction parts generalizing index skip with
  | nil => exact .inl (Option.some.inj looked)
  | cons part parts ih =>
    rw [List.length_cons]
    unfold skipFrom at looked
    split at looked
    · rcases ih looked with same | bound
      · exact .inl same
      · exact .inr (by omega)
    · split at looked
      · cases looked
      · rcases ih looked with same | bound
        · have here := Option.some.inj same
          exact .inr (by omega)
        · exact .inr (by omega)

theorem countParts_le {atEnd : Option Text} {count n : Nat} (counted : countParts atEnd count = some n) :
    n ≤ count := by
  unfold countParts at counted
  split at counted
  · split at counted
    · cases counted
    · have same := Option.some.inj counted
      omega
  · have same := Option.some.inj counted
    omega

theorem length_skippedHextets {parts : List Text} {skip : Nat} {hextets : List Hextet}
    (bound : skip < parts.length) (read : skippedHextets parts skip = some hextets) :
    hextets.length = 8 := by
  obtain ⟨high, counted, read⟩ := Option.bind_eq_some_iff.mp read
  obtain ⟨low, counted', read⟩ := Option.bind_eq_some_iff.mp read
  have most := countParts_le counted
  have most' := countParts_le counted'
  split at read
  · cases read
  · obtain ⟨first, parsed, read⟩ := Option.bind_eq_some_iff.mp read
    obtain ⟨last, parsed', read⟩ := Option.bind_eq_some_iff.mp read
    have length := length_parseParts parsed
    have length' := length_parseParts parsed'
    rw [List.length_take] at length
    rw [List.length_drop] at length'
    rw [← Option.some.inj read, List.length_append, List.length_append, List.length_replicate]
    omega

theorem length_hextetsOf {parts : List Text} {hextets : List Hextet}
    (read : hextetsOf parts = some hextets) : hextets.length = 8 := by
  obtain ⟨skip, looked, read⟩ := Option.bind_eq_some_iff.mp read
  cases skip with
  | some skip =>
    rcases skipFrom_bound looked with none | bound
    · cases none
    · rw [List.length_dropLast, List.length_tail] at bound
      exact length_skippedHextets (by omega) read
  | none =>
    change allHextets parts = some hextets at read
    unfold allHextets at read
    split at read
    · cases read
    · rename_i eight
      split at read
      · cases read
      · split at read
        · cases read
        · rw [length_parseParts read]
          exact Decidable.not_not.mp eight

theorem length_parseHextets {text : Text} {hextets : List Hextet}
    (read : parseHextets text = some hextets) : hextets.length = 8 := by
  unfold parseHextets at read
  split at read
  · cases read
  · split at read
    · cases read
    · obtain ⟨parts, _, read⟩ := Option.bind_eq_some_iff.mp read
      split at read
      · cases read
      · exact length_hextetsOf read

/-- `IPv6Address`. -/
structure IPv6Address where
  hextets : List Hextet
  length_hextets : hextets.length = 8
  scopeId : Option Text
  deriving DecidableEq

/-- `IPv6Address(text)`; `none` is an `AddressValueError`. -/
def IPv6Address.parse (text : Text) : Option IPv6Address :=
  if slash ∈ text then none
  else do
    let split ← splitScopeId text
    (parseHextets split.1).pmap (fun hextets length => ⟨hextets, length, split.2⟩)
      fun _ => length_parseHextets

/-! ## Writing -/

/-- The locals of `_compress_hextets`. The first one is read only after a zero. -/
structure ZeroRuns where
  bestStart : Nat := 0
  bestLength : Nat := 0
  start : Option Nat := none
  length : Nat := 0

/-- The body of the loop of `_compress_hextets`. -/
def ZeroRuns.next (runs : ZeroRuns) (index : Nat) (hextet : Text) : ZeroRuns :=
  if hextet = lit "0" then
    let start := runs.start.getD index
    let length := runs.length + 1
    if runs.bestLength < length then ⟨start, length, some start, length⟩
    else { runs with start := some start, length }
  else { runs with length := 0, start := none }

/-- The loop of `_compress_hextets`. -/
def ZeroRuns.run (runs : ZeroRuns) (index : Nat) : List Text → ZeroRuns
  | [] => runs
  | hextet :: hextets => (runs.next index hextet).run (index + 1) hextets

/-- The last lines of `_compress_hextets`: a run becomes `::`. -/
def replaceRun (hextets : List Text) (start stop : Nat) : List Text :=
  let padded := if stop = hextets.length then hextets ++ [[]] else hextets
  let replaced := padded.take start ++ [[]] ++ padded.drop stop
  if start = 0 then [] :: replaced else replaced

/-- `_compress_hextets`. -/
def compressHextets (hextets : List Text) : List Text :=
  let runs := ZeroRuns.run {} 0 hextets
  if 1 < runs.bestLength then
    replaceRun hextets runs.bestStart (runs.bestStart + runs.bestLength)
  else hextets

/-- The hextets of an address as text. -/
def IPv6Address.parts (address : IPv6Address) : List Text :=
  address.hextets.map fun hextet => numeral 16 hextet.val

/-- `_string_from_ip_int`. -/
def IPv6Address.ipText (address : IPv6Address) : Text := joinText colon (compressHextets address.parts)

/-- `str(address)`. -/
def IPv6Address.text (address : IPv6Address) : Text :=
  match address.scopeId with
  | none => address.ipText
  | some scopeId => if scopeId = [] then address.ipText else address.ipText ++ percent :: scopeId

/-! ## Runs of zeros -/

/-- The hextets from `start` to `stop` are zeros. -/
def ZerosAt (hextets : List Text) (start stop : Nat) : Prop :=
  ∀ i, start ≤ i → i < stop → hextets[i]? = some (lit "0")

theorem ZerosAt.append {hextets : List Text} {start stop : Nat} (zeros : ZerosAt hextets start stop)
    (le : stop ≤ hextets.length) (later : List Text) : ZerosAt (hextets ++ later) start stop := by
  intro i from_ upTo
  rw [List.getElem?_append_left (by omega)]
  exact zeros i from_ upTo

/-- A run of zeros that ends with the list grows by one more zero. -/
theorem ZerosAt.concat {hextets : List Text} {start : Nat}
    (zeros : ZerosAt hextets start hextets.length) :
    ZerosAt (hextets ++ [lit "0"]) start (hextets.length + 1) := by
  intro i from_ upTo
  rcases Nat.lt_succ_iff_lt_or_eq.mp upTo with before | rfl
  · exact zeros.append (Nat.le_refl _) _ i from_ before
  · exact List.getElem?_concat_length

/-- The runs found in the hextets so far. -/
structure ZeroRuns.Found (runs : ZeroRuns) (hextets : List Text) : Prop where
  best_le : runs.bestStart + runs.bestLength ≤ hextets.length
  best : ZerosAt hextets runs.bestStart (runs.bestStart + runs.bestLength)
  current : ∀ start ∈ runs.start, start + runs.length = hextets.length ∧
    ZerosAt hextets start hextets.length
  none : runs.start = none → runs.length = 0

theorem ZeroRuns.Found.next {runs : ZeroRuns} {hextets : List Text} (found : runs.Found hextets)
    (hextet : Text) : (runs.next hextets.length hextet).Found (hextets ++ [hextet]) := by
  unfold ZeroRuns.next
  split
  · rename_i zero
    subst zero
    have run : runs.start.getD hextets.length + (runs.length + 1) = hextets.length + 1 ∧
        ZerosAt (hextets ++ [lit "0"]) (runs.start.getD hextets.length) (hextets.length + 1) := by
      cases started : runs.start with
      | none =>
        rw [found.none started]
        refine ⟨rfl, ZerosAt.concat ?_⟩
        intro i from_ upTo
        exact absurd upTo (by simp only [Option.getD_none] at from_; omega)
      | some start =>
        obtain ⟨length, zeros⟩ := found.current start started
        exact ⟨by simp only [Option.getD_some]; omega, zeros.concat⟩
    obtain ⟨length, zeros⟩ := run
    have current : ∀ start ∈ some (runs.start.getD hextets.length),
        start + (runs.length + 1) = (hextets ++ [lit "0"]).length ∧
          ZerosAt (hextets ++ [lit "0"]) start (hextets ++ [lit "0"]).length := by
      intro start same
      cases same
      rw [List.length_append]
      exact ⟨length, zeros⟩
    dsimp only
    split
    · constructor
      · rw [List.length_append]
        exact Nat.le_of_eq length
      · rw [length]
        exact zeros
      · exact current
      · exact nofun
    · constructor
      · rw [List.length_append]
        exact Nat.le_succ_of_le found.best_le
      · exact found.best.append found.best_le _
      · exact current
      · exact nofun
  · constructor
    · rw [List.length_append]
      exact Nat.le_succ_of_le found.best_le
    · exact found.best.append found.best_le _
    · exact nofun
    · exact fun _ => rfl

theorem ZeroRuns.Found.run {runs : ZeroRuns} {before hextets : List Text} (found : runs.Found before) :
    (runs.run before.length hextets).Found (before ++ hextets) := by
  induction hextets generalizing runs before with
  | nil =>
    rw [List.append_nil]
    exact found
  | cons hextet hextets ih =>
    have later := ih (found.next hextet)
    rw [List.length_append, List.append_assoc] at later
    exact later

theorem ZeroRuns.found (hextets : List Text) : (ZeroRuns.run {} 0 hextets).Found hextets := by
  apply @ZeroRuns.Found.run {} []
  constructor
  · exact Nat.le_refl _
  · intro i _ upTo
    exact absurd upTo (Nat.not_lt_zero i)
  · exact nofun
  · exact fun _ => rfl

/-! ## Compressed addresses -/

/-- An end of a compressed address: no part at all is written as an empty one. -/
def ends (parts : List Text) : List Text := if parts = [] then [[]] else parts

theorem replaceRun_eq {hextets : List Text} {start stop : Nat} (le : start ≤ stop)
    (le' : stop ≤ hextets.length) :
    replaceRun hextets start stop =
      ends (hextets.take start) ++ [] :: ends (hextets.drop stop) := by
  have drop : (if stop = hextets.length then hextets ++ [[]] else hextets).drop stop =
      ends (hextets.drop stop) := by
    unfold ends
    split
    · rename_i same
      rw [same, List.drop_left, List.drop_length, if_pos rfl]
    · rename_i other
      rw [if_neg]
      intro none
      have length := List.drop_eq_nil_iff.mp none
      omega
  have take : (if stop = hextets.length then hextets ++ [[]] else hextets).take start =
      hextets.take start := by
    split
    · exact List.take_append_of_le_length (by omega)
    · rfl
  unfold replaceRun
  simp only [drop, take, List.append_assoc, List.singleton_append]
  split
  · rename_i zero
    rw [zero, List.take_zero]
    rfl
  · rename_i positive
    have nonempty : hextets.take start ≠ [] := by
      intro none
      rcases List.take_eq_nil_iff.mp none with zero | empty
      · exact positive zero
      · rw [empty, List.length_nil] at le'
        omega
    have same : ends (hextets.take start) = hextets.take start := if_neg nonempty
    rw [same]

theorem skipFrom_full {index : Nat} {skip : Option Nat} {parts : List Text}
    (full : ∀ part ∈ parts, part ≠ []) : skipFrom index skip parts = some skip := by
  induction parts generalizing index with
  | nil => rfl
  | cons part parts ih =>
    obtain ⟨first, later⟩ := List.forall_mem_cons.mp full
    rw [skipFrom, if_pos first, ih later]

theorem skipFrom_append {index : Nat} {before after : List Text} (full : ∀ part ∈ before, part ≠ [])
    (full' : ∀ part ∈ after, part ≠ []) :
    skipFrom index none (before ++ [] :: after) = some (some (index + before.length)) := by
  induction before generalizing index with
  | nil =>
    have rest := @skipFrom_full (index + 1) (some index) after full'
    rw [List.nil_append, skipFrom, if_neg (by simp), if_neg (by simp), rest]
    rfl
  | cons part before ih =>
    obtain ⟨first, later⟩ := List.forall_mem_cons.mp full
    rw [List.cons_append, skipFrom, if_pos first, ih later, List.length_cons]
    congr 2
    omega

theorem tail_ends_full {parts : List Text} (full : ∀ part ∈ parts, part ≠ []) :
    ∀ part ∈ (ends parts).tail, part ≠ [] := by
  unfold ends
  split
  · exact fun _ member => (List.not_mem_nil member).elim
  · exact fun part member => full part (List.mem_of_mem_tail member)

theorem dropLast_ends_full {parts : List Text} (full : ∀ part ∈ parts, part ≠ []) :
    ∀ part ∈ (ends parts).dropLast, part ≠ [] := by
  unfold ends
  split
  · exact fun _ member => (List.not_mem_nil member).elim
  · exact fun part member => full part (List.mem_of_mem_dropLast member)

theorem ends_ne_nil (parts : List Text) : ends parts ≠ [] := by
  unfold ends
  split
  · exact List.cons_ne_nil _ _
  · assumption

/-- An end that is written as an empty part counts as no part. -/
theorem countParts_head {parts : List Text} (full : ∀ part ∈ parts, part ≠ []) :
    countParts (ends parts).head? (ends parts).length = some parts.length := by
  unfold ends
  split
  · rename_i none
    rw [none]
    rfl
  · rename_i nonempty
    rw [countParts, if_neg]
    intro empty
    exact full _ (List.mem_of_head? empty) rfl

theorem countParts_getLast {parts : List Text} (full : ∀ part ∈ parts, part ≠ []) :
    countParts (ends parts).getLast? (ends parts).length = some parts.length := by
  unfold ends
  split
  · rename_i none
    rw [none]
    rfl
  · rename_i nonempty
    rw [countParts, if_neg]
    intro empty
    exact full _ (List.mem_of_getLast? empty) rfl

theorem take_ends (before : List Text) (later : List Text) :
    (ends before ++ later).take before.length = before := by
  unfold ends
  split
  · rename_i none
    rw [none]
    rfl
  · exact List.take_left

theorem drop_ends (earlier : List Text) (after : List Text) :
    (earlier ++ ends after).drop ((earlier ++ ends after).length - after.length) = after := by
  unfold ends
  split
  · rename_i none
    rw [none, List.length_nil, Nat.sub_zero, List.drop_length]
  · rw [List.length_append, Nat.add_sub_cancel, List.drop_left]

/-- A compressed address is read as what stands before and after `::`. -/
theorem hextetsOf_ends {before after : List Text} {first last : List Hextet}
    (full : ∀ part ∈ before, part ≠ []) (full' : ∀ part ∈ after, part ≠ [])
    (room : before.length + after.length < 8) (parsed : parseParts parseHextet before = some first)
    (parsed' : parseParts parseHextet after = some last) :
    hextetsOf (ends before ++ [] :: ends after) =
      some (first ++ List.replicate (8 - (before.length + after.length)) 0 ++ last) := by
  have positive := List.length_pos_of_ne_nil (ends_ne_nil before)
  have inner : (ends before ++ [] :: ends after).tail.dropLast =
      (ends before).tail ++ [] :: (ends after).dropLast := by
    rw [List.tail_append_of_ne_nil (ends_ne_nil before), List.dropLast_append_of_ne_nil (List.cons_ne_nil _ _),
      List.dropLast_cons_of_ne_nil (ends_ne_nil after)]
  have looked : skipFrom 1 none (ends before ++ [] :: ends after).tail.dropLast =
      some (some (ends before).length) := by
    rw [inner, skipFrom_append (tail_ends_full full) (dropLast_ends_full full'), List.length_tail]
    congr 2
    omega
  have high : countParts (ends before ++ [] :: ends after).head? (ends before).length =
      some before.length := by
    rw [List.head?_append_of_ne_nil _ (ends_ne_nil before), countParts_head full]
  have low : countParts (ends before ++ [] :: ends after).getLast?
      ((ends before ++ [] :: ends after).length - (ends before).length - 1) = some after.length := by
    rw [List.getLast?_append_of_ne_nil _ (List.cons_ne_nil _ _), List.getLast?_cons_of_ne_nil (ends_ne_nil after),
      List.length_append, List.length_cons, Nat.add_sub_cancel_left, Nat.add_sub_cancel,
      countParts_getLast full']
  have drop : (ends before ++ [] :: ends after).drop
      ((ends before ++ [] :: ends after).length - after.length) = after := by
    have same := drop_ends (ends before ++ [[]]) after
    rw [List.append_assoc] at same
    exact same
  simp only [hextetsOf, looked, skippedHextets, high, low, take_ends, drop, parsed, parsed',
    if_neg (Nat.not_le_of_lt room), Option.bind_eq_bind, Option.bind_some]

theorem hextetsOf_full {parts : List Text} {hextets : List Hextet} (full : ∀ part ∈ parts, part ≠ [])
    (eight : parts.length = 8) (parsed : parseParts parseHextet parts = some hextets) :
    hextetsOf parts = some hextets := by
  have looked : skipFrom 1 none parts.tail.dropLast = some none := by
    apply skipFrom_full
    intro part member
    exact full part (List.mem_of_mem_tail (List.mem_of_mem_dropLast member))
  have head : parts.head? ≠ some [] := fun empty => full _ (List.mem_of_head? empty) rfl
  have last : parts.getLast? ≠ some [] := fun empty => full _ (List.mem_of_getLast? empty) rfl
  simp only [hextetsOf, looked, allHextets, eight, if_neg head, if_neg last, parsed,
    Option.bind_eq_bind, Option.bind_some, ne_eq, not_true_eq_false, if_false]

/-! ## The text of an address -/

theorem parseHextet_numeral (hextet : Hextet) : parseHextet (numeral 16 hextet.val) = some hextet := by
  have digits : (numeral 16 hextet.val).all (isDigitOf 16) = true := by
    rw [List.all_eq_true]
    intro c member
    exact isDigitOf_of_mem_numeral (by omega) (by omega) member
  have short : (numeral 16 hextet.val).length ≤ 4 :=
    length_numeral_le (by omega) (by omega) (by omega)
  have value := @intOf_numeral 16 hextet.val (by omega) (by omega)
  unfold parseHextet
  rw [if_neg (by simp only [digits, not_true_eq_false, not_false_eq_true]), if_neg (by omega),
    if_neg (numeral_ne_nil _ _), value]
  congr 1
  exact Fin.ext (Nat.mod_eq_of_lt hextet.isLt)

namespace IPv6Address

variable {address : IPv6Address}

theorem length_parts : address.parts.length = 8 :=
  (List.length_map _).trans address.length_hextets

theorem part_spec {part : Text} (member : part ∈ address.parts) :
    part ≠ [] ∧ part.length ≤ 4 ∧ ∀ c ∈ part, isDigitOf 16 c = true := by
  obtain ⟨hextet, _, rfl⟩ := List.mem_map.mp member
  refine ⟨numeral_ne_nil _ _, length_numeral_le (by omega) (by omega) (by omega), ?_⟩
  intro c inPart
  exact isDigitOf_of_mem_numeral (by omega) (by omega) inPart

/-- `::` stands for two zeros or more, or does not occur. -/
theorem compress_cases (address : IPv6Address) :
    compressHextets address.parts = address.parts ∨
      ∃ start stop, start + 2 ≤ stop ∧ stop ≤ 8 ∧ ZerosAt address.parts start stop ∧
        compressHextets address.parts =
          ends (address.parts.take start) ++ [] :: ends (address.parts.drop stop) := by
  have found := ZeroRuns.found address.parts
  have le := found.best_le
  rw [length_parts] at le
  unfold compressHextets
  dsimp only
  split
  · rename_i long
    refine .inr ⟨_, _, by omega, le, found.best, ?_⟩
    exact replaceRun_eq (Nat.le_add_right _ _) found.best_le
  · exact .inl rfl

/-- A zero is written as one digit. -/
theorem hextet_of_zerosAt {start stop i : Nat} (zeros : ZerosAt address.parts start stop)
    (le : start ≤ i) (lt : i < stop) : address.hextets[i]? = some 0 := by
  have zero := zeros i le lt
  rw [parts, List.getElem?_map] at zero
  obtain ⟨hextet, found, same⟩ := Option.map_eq_some_iff.mp zero
  have value := @intOf_numeral 16 hextet.val (by omega) (by omega)
  rw [same] at value
  have digits : intOf 16 (lit "0") = 0 := rfl
  rw [found]
  congr 1
  exact Fin.ext (value.symm.trans digits)

theorem hextets_eq {start stop : Nat} (zeros : ZerosAt address.parts start stop)
    (le : start ≤ stop) :
    address.hextets.take start ++ List.replicate (stop - start) 0 ++ address.hextets.drop stop =
      address.hextets := by
  have middle : List.replicate (stop - start) 0 = (address.hextets.drop start).take (stop - start) := by
    apply List.ext_getElem?
    intro i
    rw [List.getElem?_take, List.getElem?_drop]
    split
    · rename_i inside
      rw [hextet_of_zerosAt zeros (Nat.le_add_right _ _) (by omega),
        List.getElem?_replicate_of_lt inside]
    · rename_i outside
      exact List.getElem?_eq_none (by rw [List.length_replicate]; omega)
  have rest : address.hextets.drop stop = (address.hextets.drop start).drop (stop - start) := by
    rw [List.drop_drop, Nat.add_sub_cancel' le]
  rw [middle, rest, List.append_assoc, List.take_append_drop, List.take_append_drop]

theorem hextetsOf_compress (address : IPv6Address) :
    hextetsOf (compressHextets address.parts) = some address.hextets := by
  have full : ∀ part ∈ address.parts, part ≠ [] := fun part member => (part_spec member).1
  rcases compress_cases address with same | ⟨start, stop, long, le, zeros, same⟩
  · rw [same]
    exact hextetsOf_full full length_parts (parseParts_map parseHextet_numeral _)
  · have first : parseParts parseHextet (address.parts.take start) =
        some (address.hextets.take start) := by
      rw [parts, ← List.map_take]
      exact parseParts_map parseHextet_numeral _
    have last : parseParts parseHextet (address.parts.drop stop) =
        some (address.hextets.drop stop) := by
      rw [parts, ← List.map_drop]
      exact parseParts_map parseHextet_numeral _
    have length : (address.parts.take start).length = start := by
      rw [List.length_take_of_le]
      rw [length_parts]
      omega
    have length' : (address.parts.drop stop).length = 8 - stop := by
      rw [List.length_drop, length_parts]
    rw [same, hextetsOf_ends (fun part member => full part (List.mem_of_mem_take member))
      (fun part member => full part (List.mem_of_mem_drop member)) (by omega) first last]
    congr 1
    rw [length, length', show 8 - (start + (8 - stop)) = stop - start by omega]
    exact hextets_eq zeros (by omega)

theorem mem_ends {parts : List Text} {part : Text} (member : part ∈ ends parts) :
    part = [] ∨ part ∈ parts := by
  unfold ends at member
  split at member
  · exact .inl (List.mem_singleton.mp member)
  · exact .inr member

theorem mem_compress {part : Text} (member : part ∈ compressHextets address.parts) :
    part.length ≤ 4 ∧ ∀ c ∈ part, isDigitOf 16 c = true := by
  have fits : part = [] ∨ part ∈ address.parts := by
    rcases compress_cases address with same | ⟨start, stop, _, _, _, same⟩
    · rw [same] at member
      exact .inr member
    · rw [same, List.mem_append, List.mem_cons] at member
      rcases member with before | none | after
      · exact (mem_ends before).imp_right List.mem_of_mem_take
      · exact .inl none
      · exact (mem_ends after).imp_right List.mem_of_mem_drop
  rcases fits with rfl | inParts
  · exact ⟨Nat.zero_le _, fun _ member => (List.not_mem_nil member).elim⟩
  · exact (part_spec inParts).2

theorem length_ends (parts : List Text) : (ends parts).length = max 1 parts.length := by
  unfold ends
  split
  · rename_i none
    rw [none]
    rfl
  · rename_i nonempty
    have positive := List.length_pos_of_ne_nil nonempty
    omega

theorem length_compress (address : IPv6Address) :
    3 ≤ (compressHextets address.parts).length ∧ (compressHextets address.parts).length ≤ 9 := by
  have eight := @length_parts address
  rcases compress_cases address with same | ⟨start, stop, long, le, _, same⟩
  · rw [same]
    omega
  · rw [same, List.length_append, List.length_cons, length_ends, length_ends, List.length_take,
      List.length_drop]
    omega

theorem splitOn_ipText (address : IPv6Address) :
    address.ipText.splitOn colon = compressHextets address.parts := by
  apply List.splitOn_intercalate
  · intro part member
    exact not_mem_of_digits (mem_compress member).2 (by decide)
  · intro none
    have length := length_compress address
    rw [none, List.length_nil] at length
    omega

theorem mem_ipText {c : CodePoint} (member : c ∈ address.ipText) :
    c = colon ∨ isDigitOf 16 c = true := by
  rcases mem_joinText member with same | ⟨part, inParts, inPart⟩
  · exact .inl same
  · exact .inr ((mem_compress inParts).2 c inPart)

theorem colon_mem_ipText (address : IPv6Address) : colon ∈ address.ipText := by
  by_contra none
  have single := List.splitOn_eq_singleton none
  have length := length_compress address
  rw [← splitOn_ipText, single, List.length_singleton] at length
  omega

theorem length_ipText_le (address : IPv6Address) : address.ipText.length ≤ 45 := by
  have le := @length_joinText_le colon (compressHextets address.parts) 4
    fun part member => (mem_compress member).1
  have length := length_compress address
  rw [ipText]
  omega

theorem parseHextets_ipText (address : IPv6Address) :
    parseHextets address.ipText = some address.hextets := by
  have split := splitOn_ipText address
  have length := length_compress address
  have some : address.ipText ≠ [] := List.ne_nil_of_mem (colon_mem_ipText address)
  have plain : dot ∉ (compressHextets address.parts).getLastD [] := by
    intro member
    rw [List.getLastD_eq_getLast?] at member
    cases last : (compressHextets address.parts).getLast? with
    | none =>
      rw [last] at member
      cases member
    | some part =>
      rw [last] at member
      exact not_mem_of_digits (mem_compress (List.mem_of_getLast? last)).2 (by decide) member
  rw [parseHextets, if_neg some, split, if_neg (by omega), hexadecimalParts, if_neg plain]
  change (if 9 < (compressHextets address.parts).length then none
    else hextetsOf (compressHextets address.parts)) = _
  rw [if_neg (by omega), hextetsOf_compress]

/-- The zone of an address, if it has one, can be written behind it. -/
def Zoned (address : IPv6Address) : Prop :=
  ∀ scopeId ∈ address.scopeId, scopeId ≠ [] ∧ percent ∉ scopeId ∧ slash ∉ scopeId

theorem splitScopeId_append {first scopeId : Text} (plain : percent ∉ first) (some : scopeId ≠ [])
    (plain' : percent ∉ scopeId) :
    splitScopeId (first ++ percent :: scopeId) = .some (first, .some scopeId) := by
  have before : ∀ c ∈ first, (c != percent) = true := by
    intro c member
    rw [bne_iff_ne]
    intro same
    exact plain (same ▸ member)
  have drop : (first ++ percent :: scopeId).dropWhile (· != percent) = percent :: scopeId := by
    rw [List.dropWhile_append_of_pos before, List.dropWhile_cons_of_neg (by simp)]
  have take : (first ++ percent :: scopeId).takeWhile (· != percent) = first := by
    rw [List.takeWhile_append_of_pos before, List.takeWhile_cons_of_neg (by simp), List.append_nil]
  rw [splitScopeId, drop, take]
  change (if scopeId = [] ∨ percent ∈ scopeId then none else _) = _
  rw [if_neg (not_or.mpr ⟨some, plain'⟩)]

theorem splitScopeId_plain {text : Text} (plain : percent ∉ text) :
    splitScopeId text = some (text, none) := by
  have drop : text.dropWhile (· != percent) = [] := by
    rw [List.dropWhile_eq_nil_iff]
    intro c member
    rw [bne_iff_ne]
    intro same
    exact plain (same ▸ member)
  rw [splitScopeId, drop]

/-- The text of an address is read as the address. -/
theorem parse_text (zoned : address.Zoned) : IPv6Address.parse address.text = some address := by
  have plain : percent ∉ address.ipText := by
    intro member
    rcases mem_ipText member with same | digit
    · exact absurd same (by decide)
    · exact absurd digit (by decide)
  have plain' : slash ∉ address.ipText := by
    intro member
    rcases mem_ipText member with same | digit
    · exact absurd same (by decide)
    · exact absurd digit (by decide)
  have read := parseHextets_ipText address
  cases zone : address.scopeId with
  | none =>
    have text : address.text = address.ipText := by rw [IPv6Address.text, zone]
    rw [IPv6Address.parse, text, if_neg plain', splitScopeId_plain plain]
    simp only [Option.bind_eq_bind, Option.bind_some, read, Option.pmap_some, ← zone]
  | some scopeId =>
    obtain ⟨nonempty, noPercent, noSlash⟩ := zoned scopeId zone
    have text : address.text = address.ipText ++ percent :: scopeId := by
      rw [IPv6Address.text, zone]
      exact if_neg nonempty
    have noSlash' : slash ∉ address.ipText ++ percent :: scopeId := by
      rw [List.mem_append, List.mem_cons]
      intro member
      rcases member with member | same | member
      · exact plain' member
      · exact absurd same (by decide)
      · exact noSlash member
    rw [IPv6Address.parse, text, if_neg noSlash', splitScopeId_append plain nonempty noPercent]
    simp only [Option.bind_eq_bind, Option.bind_some, read, Option.pmap_some, ← zone]

/-- A text is split at its first `%`, or has none. -/
theorem splitScopeId_eq_some {text first : Text} {scopeId : Option Text}
    (split : splitScopeId text = some (first, scopeId)) :
    text = first ∧ scopeId = none ∨ ∃ zone, scopeId = some zone ∧
      text = first ++ percent :: zone ∧ zone ≠ [] ∧ percent ∉ zone := by
  unfold splitScopeId at split
  split at split
  · cases split
    exact .inl ⟨rfl, rfl⟩
  · rename_i c zone rest
    split at split
    · cases split
    · rename_i fits
      cases split
      rw [not_or] at fits
      have found : c = percent := by
        have stop := List.head?_dropWhile_not (· != percent) text
        rw [rest] at stop
        simpa using stop
      subst found
      refine .inr ⟨zone, rfl, ?_, fits.1, fits.2⟩
      rw [← rest, List.takeWhile_append_dropWhile]

theorem parse_eq_some {text : Text} (parsed : IPv6Address.parse text = some address) :
    slash ∉ text ∧ ∃ first, splitScopeId text = some (first, address.scopeId) ∧
      parseHextets first = some address.hextets := by
  unfold IPv6Address.parse at parsed
  split at parsed
  · cases parsed
  · rename_i plain
    obtain ⟨⟨first, scopeId⟩, split, parsed⟩ := Option.bind_eq_some_iff.mp parsed
    obtain ⟨hextets, length, read, same⟩ := Option.pmap_eq_some_iff.mp parsed
    cases same
    exact ⟨plain, first, split, read⟩

/-- What was read can be written. -/
theorem zoned_of_parse {text : Text} (parsed : IPv6Address.parse text = some address) :
    address.Zoned := by
  obtain ⟨plain, first, split, _⟩ := parse_eq_some parsed
  intro scopeId found
  rcases splitScopeId_eq_some split with ⟨_, none⟩ | ⟨zone, same, text, nonempty, noPercent⟩
  · rw [none] at found
    cases found
  · rw [same] at found
    cases found
    refine ⟨nonempty, noPercent, ?_⟩
    intro member
    rw [text] at plain
    exact plain (List.mem_append_right _ (List.mem_cons_of_mem _ member))

/-- An address has colons, and a percent sign in front of its zone. -/
theorem mem_of_parse {text : Text} (parsed : IPv6Address.parse text = some address) :
    colon ∈ text ∧ ∀ scopeId ∈ address.scopeId, percent ∈ text := by
  obtain ⟨_, first, split, read⟩ := parse_eq_some parsed
  have colons : colon ∈ first := by
    by_contra none
    unfold parseHextets at read
    rw [List.splitOn_eq_singleton none] at read
    split at read
    · cases read
    · rw [if_pos (by rw [List.length_singleton]; omega)] at read
      cases read
  rcases splitScopeId_eq_some split with ⟨rfl, none⟩ | ⟨zone, same, rfl, _, _⟩
  · refine ⟨colons, ?_⟩
    intro scopeId found
    rw [none] at found
    cases found
  · refine ⟨List.mem_append_left _ colons, ?_⟩
    intro _ _
    exact List.mem_append_right _ List.mem_cons_self

theorem colon_mem_text (address : IPv6Address) : colon ∈ address.text := by
  have member := colon_mem_ipText address
  unfold IPv6Address.text
  split
  · exact member
  · split
    · exact member
    · exact List.mem_append_left _ member

theorem length_text_le (address : IPv6Address) :
    address.text.length ≤ 46 + (address.scopeId.getD []).length := by
  have le := length_ipText_le address
  unfold IPv6Address.text
  split
  · omega
  · split
    · omega
    · rename_i zone _
      rw [zone, Option.getD_some, List.length_append, List.length_cons]
      omega

end IPv6Address

/-! ## Addresses of either kind -/

/-- The result of `ipaddress.ip_address`. -/
inductive IpAddress
  | v4 (address : IPv4Address)
  | v6 (address : IPv6Address)
  deriving DecidableEq

/-- `ipaddress.ip_address(text)`; `none` is a `ValueError`. -/
def ipAddress (text : Text) : Option IpAddress :=
  match IPv4Address.parse text with
  | some address => some (.v4 address)
  | none => (IPv6Address.parse text).map .v6

/-- `str(address)`. -/
def IpAddress.text : IpAddress → Text
  | .v4 address => address.text
  | .v6 address => address.text

/-- `getattr(address, "scope_id", None)`. -/
def IpAddress.scopeId : IpAddress → Option Text
  | .v4 _ => none
  | .v6 address => address.scopeId

/-- The text of an address that was read is read as the same address. -/
theorem ipAddress_text {text : Text} {address : IpAddress} (read : ipAddress text = some address) :
    ipAddress address.text = some address := by
  unfold ipAddress at read
  cases four : IPv4Address.parse text with
  | some address' =>
    rw [four] at read
    cases read
    rw [ipAddress, IpAddress.text, IPv4Address.parse_text]
  | none =>
    rw [four] at read
    obtain ⟨address', six, same⟩ := Option.map_eq_some_iff.mp read
    cases same
    have parsed := IPv6Address.parse_text (IPv6Address.zoned_of_parse six)
    have other : IPv4Address.parse address'.text = none := by
      cases parsed' : IPv4Address.parse address'.text with
      | none => rfl
      | some impossible =>
        rcases IPv4Address.mem_of_parse parsed' address'.colon_mem_text with same | digit
        · exact absurd same (by decide)
        · exact absurd digit (by decide)
    rw [ipAddress, IpAddress.text, other, parsed]
    rfl

end DataBridge
