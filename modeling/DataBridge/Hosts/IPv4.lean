import DataBridge.Hosts.Numerals

/-!
# IPv4 addresses

`ipaddress.IPv4Address` and its `str`. An address keeps its number as the octets
it is made of. `IPv4Address.parse_text` says that the text of an address is read
as the address. The joining of parts with a separator and the parsing of a list
of parts are here too.
-/

namespace DataBridge

/-- `sep.join(parts)`. -/
def joinText (separator : CodePoint) (parts : List Text) : Text :=
  List.intercalate [separator] parts

def dot : CodePoint := .ofChar '.'

def colon : CodePoint := .ofChar ':'

def slash : CodePoint := .ofChar '/'

def percent : CodePoint := .ofChar '%'

/-! ## IPv4 -/

/-- `IPv4Address`. -/
structure IPv4Address where
  octets : List (Fin 256)
  length_octets : octets.length = 4
  deriving DecidableEq

/-- `_parse_octet`; `none` is a `ValueError`. -/
def parseOctet (text : Text) : Option (Fin 256) :=
  if text = [] then none
  else if ¬ text.all (isDigitOf 10) then none
  else if 3 < text.length then none
  else if text ≠ lit "0" ∧ text.head? = some (.ofChar '0') then none
  else if fits : intOf 10 text < 256 then some ⟨intOf 10 text, fits⟩
  else none

/-- Parse a list of parts; `none` is the `ValueError` of the first bad one. -/
def parseParts {α : Type} (parse : Text → Option α) : List Text → Option (List α)
  | [] => some []
  | part :: parts => do
    let value ← parse part
    let values ← parseParts parse parts
    some (value :: values)

theorem length_parseParts {α : Type} {parse : Text → Option α} {parts : List Text} {values : List α}
    (parsed : parseParts parse parts = some values) : values.length = parts.length := by
  induction parts generalizing values with
  | nil =>
    cases parsed
    rfl
  | cons part parts ih =>
    obtain ⟨value, _, rest⟩ := Option.bind_eq_some_iff.mp parsed
    obtain ⟨later, found, same⟩ := Option.bind_eq_some_iff.mp rest
    cases same
    rw [List.length_cons, List.length_cons, ih found]

/-- Parts that are the texts of values are read as these values. -/
theorem parseParts_map {α : Type} {parse : Text → Option α} {text : α → Text}
    (readBack : ∀ a, parse (text a) = some a) (values : List α) :
    parseParts parse (values.map text) = some values := by
  induction values with
  | nil => rfl
  | cons value values ih => simp only [List.map_cons, parseParts, readBack, ih, Option.bind_eq_bind,
      Option.bind_some]

/-- A text whose every part parses is made of what the parts may be made of. -/
theorem parseParts_forall {α : Type} {parse : Text → Option α} {parts : List Text} {values : List α}
    (parsed : parseParts parse parts = some values) : ∀ part ∈ parts, (parse part).isSome := by
  induction parts generalizing values with
  | nil => exact fun _ member => (List.not_mem_nil member).elim
  | cons part parts ih =>
    obtain ⟨value, first, rest⟩ := Option.bind_eq_some_iff.mp parsed
    obtain ⟨later, found, _⟩ := Option.bind_eq_some_iff.mp rest
    intro other member
    rcases List.mem_cons.mp member with rfl | member
    · rw [first]
      rfl
    · exact ih found other member

/-- `IPv4Address(text)`; `none` is an `AddressValueError`. -/
def IPv4Address.parse (text : Text) : Option IPv4Address :=
  if slash ∈ text then none
  else if text = [] then none
  else if four : (text.splitOn dot).length = 4 then
    (parseParts parseOctet (text.splitOn dot)).pmap (fun octets length => ⟨octets, length⟩)
      fun _ parsed => (length_parseParts parsed).trans four
  else none

/-- The octets of an address as text. -/
def IPv4Address.parts (address : IPv4Address) : List Text :=
  address.octets.map fun octet => numeral 10 octet.val

/-- `str(address)`. -/
def IPv4Address.text (address : IPv4Address) : Text := joinText dot address.parts

theorem isDigitOf_of_parseOctet {text : Text} {octet : Fin 256} (parsed : parseOctet text = some octet) :
    ∀ c ∈ text, isDigitOf 10 c = true := by
  unfold parseOctet at parsed
  split at parsed
  · cases parsed
  · split at parsed
    · cases parsed
    · rename_i digits
      rw [Bool.not_eq_true, Bool.not_eq_false, List.all_eq_true] at digits
      exact digits

theorem parseOctet_numeral (octet : Fin 256) : parseOctet (numeral 10 octet) = some octet := by
  have digits : (numeral 10 octet).all (isDigitOf 10) = true := by
    rw [List.all_eq_true]
    intro c member
    exact isDigitOf_of_mem_numeral (by omega) (by omega) member
  have short : (numeral 10 octet).length ≤ 3 :=
    length_numeral_le (by omega) (by omega) (by omega)
  have leading : ¬ (numeral 10 octet ≠ lit "0" ∧ (numeral 10 octet).head? = some (.ofChar '0')) := by
    intro both
    have zero := numeral_head (by omega) (by omega) both.2
    apply both.1
    rw [zero]
    rfl
  have value := @intOf_numeral 10 octet.val (by omega) (by omega)
  unfold parseOctet
  rw [if_neg (numeral_ne_nil _ _), if_neg (by simp only [digits, not_true_eq_false, not_false_eq_true]),
    if_neg (by omega), if_neg leading]
  simp only [value, octet.isLt, dite_true]

/-- What is made of digits has no other character. -/
theorem not_mem_of_digits {base : Nat} {text : Text} {c : CodePoint}
    (digits : ∀ c ∈ text, isDigitOf base c = true) (other : isDigitOf base c = false) : c ∉ text := by
  intro member
  rw [digits c member] at other
  cases other

theorem joinText_cons_cons (separator : CodePoint) (part next : Text) (parts : List Text) :
    joinText separator (part :: next :: parts) =
      part ++ separator :: joinText separator (next :: parts) := by
  rw [joinText, List.intercalate_cons_cons]
  simp only [List.append_assoc, List.singleton_append]
  rfl

theorem mem_joinText {separator c : CodePoint} {parts : List Text}
    (member : c ∈ joinText separator parts) : c = separator ∨ ∃ part ∈ parts, c ∈ part := by
  induction parts with
  | nil => cases member
  | cons part parts ih =>
    cases parts with
    | nil =>
      rw [joinText, List.intercalate_singleton] at member
      exact .inr ⟨part, List.mem_cons_self, member⟩
    | cons next parts =>
      rw [joinText_cons_cons, List.mem_append, List.mem_cons] at member
      rcases member with inPart | rfl | later
      · exact .inr ⟨part, List.mem_cons_self, inPart⟩
      · exact .inl rfl
      · rcases ih later with same | ⟨other, inParts, inOther⟩
        · exact .inl same
        · exact .inr ⟨other, List.mem_cons_of_mem _ inParts, inOther⟩

theorem mem_joinText_of_mem {separator c : CodePoint} {parts : List Text} {part : Text}
    (inParts : part ∈ parts) (inPart : c ∈ part) : c ∈ joinText separator parts := by
  induction parts with
  | nil => cases inParts
  | cons first parts ih =>
    cases parts with
    | nil =>
      rw [joinText, List.intercalate_singleton, ← List.mem_singleton.mp inParts]
      exact inPart
    | cons next parts =>
      rw [joinText_cons_cons, List.mem_append, List.mem_cons]
      rcases List.mem_cons.mp inParts with rfl | inParts
      · exact .inl inPart
      · exact .inr (.inr (ih inParts))

/-- The parts of a text are made of its characters. -/
theorem mem_of_mem_splitOn {separator c : CodePoint} {text part : Text}
    (inParts : part ∈ text.splitOn separator) (inPart : c ∈ part) : c ∈ text := by
  rw [← @List.intercalate_splitOn _ text _ _ separator]
  exact mem_joinText_of_mem inParts inPart

theorem length_joinText_le {separator : CodePoint} {parts : List Text} {k : Nat}
    (short : ∀ part ∈ parts, part.length ≤ k) :
    (joinText separator parts).length ≤ (k + 1) * parts.length := by
  induction parts with
  | nil => exact Nat.zero_le _
  | cons part parts ih =>
    obtain ⟨first, later⟩ := List.forall_mem_cons.mp short
    cases parts with
    | nil =>
      rw [joinText, List.intercalate_singleton, List.length_singleton]
      omega
    | cons next parts =>
      have rest := ih later
      rw [joinText_cons_cons, List.length_append, List.length_cons, List.length_cons, Nat.mul_succ]
      omega

theorem IPv4Address.digits_of_mem_parts {address : IPv4Address} {part : Text}
    (member : part ∈ address.parts) : ∀ c ∈ part, isDigitOf 10 c = true := by
  obtain ⟨octet, _, rfl⟩ := List.mem_map.mp member
  exact fun c inPart => isDigitOf_of_mem_numeral (by omega) (by omega) inPart

theorem IPv4Address.splitOn_text (address : IPv4Address) :
    address.text.splitOn dot = address.parts := by
  apply List.splitOn_intercalate
  · intro part member
    exact not_mem_of_digits (address.digits_of_mem_parts member) (by decide)
  · intro none
    have length := address.length_octets
    rw [List.map_eq_nil_iff.mp none] at length
    cases length

theorem IPv4Address.mem_text {address : IPv4Address} {c : CodePoint} (member : c ∈ address.text) :
    c = dot ∨ isDigitOf 10 c = true := by
  rcases mem_joinText member with same | ⟨part, inParts, inPart⟩
  · exact .inl same
  · exact .inr (address.digits_of_mem_parts inParts c inPart)

theorem IPv4Address.parse_text (address : IPv4Address) :
    IPv4Address.parse address.text = some address := by
  have plain : slash ∉ address.text := by
    intro member
    rcases IPv4Address.mem_text member with same | digit
    · exact absurd same (by decide)
    · exact absurd digit (by decide)
  have split := address.splitOn_text
  have four : (address.text.splitOn dot).length = 4 := by
    rw [split, IPv4Address.parts, List.length_map, address.length_octets]
  have some : address.text ≠ [] := by
    intro none
    rw [none] at four
    cases four
  have parsed : parseParts parseOctet (address.text.splitOn dot) = .some address.octets := by
    rw [split]
    exact parseParts_map parseOctet_numeral address.octets
  rw [IPv4Address.parse, if_neg plain, if_neg some, dif_pos four]
  simp only [parsed, Option.pmap_some]

/-- An IPv4 address is written with digits and dots. -/
theorem IPv4Address.mem_of_parse {text : Text} {address : IPv4Address}
    (parsed : IPv4Address.parse text = some address) {c : CodePoint} (member : c ∈ text) :
    c = dot ∨ isDigitOf 10 c = true := by
  unfold IPv4Address.parse at parsed
  split at parsed
  · cases parsed
  · split at parsed
    · cases parsed
    · split at parsed
      · obtain ⟨octets, _, found, _⟩ := Option.pmap_eq_some_iff.mp parsed
        rw [← @List.intercalate_splitOn _ text _ _ dot] at member
        rcases mem_joinText member with same | ⟨part, inParts, inPart⟩
        · exact .inl same
        · obtain ⟨octet, first⟩ := Option.isSome_iff_exists.mp (parseParts_forall found part inParts)
          exact .inr (isDigitOf_of_parseOctet first c inPart)
      · cases parsed

end DataBridge
