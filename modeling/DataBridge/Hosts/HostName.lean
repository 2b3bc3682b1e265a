import DataBridge.Hosts.IPv6

/-!
# Host names

`_host` and the type `HostName`. The source compares the lower-case form of a
name with ASCII labels, and the KELVIN SIGN has the lower-case form `k`;
`host_accepts_iff` says what is accepted, and `hostName_of_host` that a value
which was returned is accepted again and not changed.
-/

namespace DataBridge

/-! ## The validator -/

/-- `[a-z0-9]` -/
def isLowerAlnum (c : CodePoint) : Bool :=
  (0x30 ≤ c.val && c.val ≤ 0x39) || (0x61 ≤ c.val && c.val ≤ 0x7A)

def hyphen : CodePoint := .ofChar '-'

/-- `[a-z0-9-]` -/
def isLowerLabelChar (c : CodePoint) : Bool := isLowerAlnum c || c == hyphen

/-- `_HOST_LABEL.fullmatch`: one character, or two of them around at most 61 others. -/
def hostLabel : Text → Bool
  | [] => false
  | first :: rest =>
    isLowerAlnum first && (rest.isEmpty ||
      rest.dropLast.length ≤ 61 && rest.dropLast.all isLowerLabelChar &&
        rest.getLast?.any isLowerAlnum)

/-- `[A-Za-z0-9_.-]` -/
def isScopeIdChar (c : CodePoint) : Bool :=
  isLowerAlnum c || (0x41 ≤ c.val && c.val ≤ 0x5A) || c == .ofChar '_' || c == dot || c == hyphen

/-- `_SCOPE_ID.fullmatch` -/
def scopeIdMatch (scopeId : Text) : Bool :=
  1 ≤ scopeId.length && scopeId.length ≤ 64 && scopeId.all isScopeIdChar

def zoneMessage : Text :=
  lit "must use an IPv6 zone of ASCII letters, digits, '.', '_', or '-'"

def hostMessage : Text :=
  lit "must be an IP address or a host name made of ASCII letters, digits, and hyphens; " ++
    lit "use the punycode form of an internationalized name"

/-- `_host`; an error is a `ValueError`. -/
def host (value : Text) : Except Text Text :=
  match ipAddress value with
  | some address =>
    if address.scopeId.any fun scopeId => !scopeIdMatch scopeId then .error zoneMessage
    else .ok address.text
  | none =>
    let name := value.lower
    if 253 < name.length ∨ ¬ (name.splitOn dot).all hostLabel then .error hostMessage
    else .ok name

/-- `HostName`: the length limits, then `_host`. -/
def hostName (value : Text) : Except Text Text :=
  if value.length < 1 then .error (lit "String should have at least 1 character")
  else if 253 < value.length then .error (lit "String should have at most 253 characters")
  else host value

/-! ## The grammar -/

/-- An ASCII letter or digit. -/
def IsAlnum (c : CodePoint) : Prop :=
  0x30 ≤ c.val ∧ c.val ≤ 0x39 ∨ 0x41 ≤ c.val ∧ c.val ≤ 0x5A ∨ 0x61 ≤ c.val ∧ c.val ≤ 0x7A

instance : DecidablePred IsAlnum := fun _ => inferInstanceAs (Decidable (_ ∨ _))

/-- A label of a DNS name, in any letter case. -/
structure IsLabel (label : Text) : Prop where
  length_pos : 1 ≤ label.length
  length_le : label.length ≤ 63
  chars : ∀ c ∈ label, IsAlnum c ∨ c = hyphen
  head : label.head? ≠ some hyphen
  last : label.getLast? ≠ some hyphen

/-- Labels with dots between them. -/
def IsHostName (name : Text) : Prop := ∀ label ∈ name.splitOn dot, IsLabel label

/-- A zone that may be stored. -/
def IsZone (zone : Text) : Prop :=
  1 ≤ zone.length ∧ zone.length ≤ 64 ∧
    ∀ c ∈ zone, IsAlnum c ∨ c = .ofChar '.' ∨ c = .ofChar '_' ∨ c = hyphen

/-- An IPv4 or IPv6 address, with a zone that may be stored if it has one. -/
def IsHostAddress (value : Text) : Prop :=
  ∃ address, ipAddress value = some address ∧ ∀ zone ∈ address.scopeId, IsZone zone

/-- KELVIN SIGN. -/
def kelvin : CodePoint := 0x212A

/-- The value with `k` in place of each KELVIN SIGN. -/
def plainK (value : Text) : Text := value.map fun c => if c = kelvin then .ofChar 'k' else c

/-! ## Lower case -/

theorem isLowerLabelChar_iff {c : CodePoint} :
    isLowerLabelChar c = true ↔ isLowerAlnum c = true ∨ c = hyphen := by
  rw [isLowerLabelChar, Bool.or_eq_true, beq_iff_eq]

theorem hyphen_not_isLowerAlnum {c : CodePoint} (alnum : isLowerAlnum c = true) : c ≠ hyphen := by
  rintro rfl
  cases alnum

/-- The first or last character of a label. -/
theorem isLowerAlnum_of_ne {c : CodePoint} (char : isLowerLabelChar c = true) (ne : c ≠ hyphen) :
    isLowerAlnum c = true :=
  (isLowerLabelChar_iff.mp char).resolve_right ne

/-- The regular expression in words. -/
theorem hostLabel_iff {label : Text} :
    hostLabel label = true ↔ 1 ≤ label.length ∧ label.length ≤ 63 ∧
      (∀ c ∈ label, isLowerLabelChar c = true) ∧ label.head? ≠ some hyphen ∧
        label.getLast? ≠ some hyphen := by
  cases label with
  | nil => exact ⟨nofun, fun h => absurd h.1 (by decide)⟩
  | cons first rest =>
    rcases List.eq_nil_or_concat' rest with rfl | ⟨middle, last, rfl⟩
    · simp only [hostLabel, List.isEmpty_nil, Bool.true_or, Bool.and_true, List.length_singleton,
        List.mem_singleton, forall_eq, List.head?_cons, List.getLast?_singleton, ne_eq,
        Option.some.injEq]
      constructor
      · intro alnum
        have ne := hyphen_not_isLowerAlnum alnum
        exact ⟨by omega, by omega, isLowerLabelChar_iff.mpr (.inl alnum), ne, ne⟩
      · intro h
        exact isLowerAlnum_of_ne h.2.2.1 h.2.2.2.1
    · have nonempty : (middle ++ [last]).isEmpty = false := by
        rw [List.isEmpty_eq_false_iff]
        exact List.append_ne_nil_of_right_ne_nil _ (List.cons_ne_nil _ _)
      have final : (first :: (middle ++ [last])).getLast? = some last := by
        rw [← List.cons_append, List.getLast?_concat]
      simp only [hostLabel, nonempty, Bool.false_or, List.dropLast_concat, List.getLast?_concat,
        Option.any_some, Bool.and_eq_true, decide_eq_true_eq, List.all_eq_true, final,
        List.length_cons, List.length_append, List.length_nil, List.head?_cons, ne_eq,
        Option.some.injEq]
      constructor
      · intro h
        obtain ⟨alnum, ⟨short, inner⟩, alnum'⟩ := h
        refine ⟨by omega, by omega, ?_, hyphen_not_isLowerAlnum alnum,
          hyphen_not_isLowerAlnum alnum'⟩
        intro c member
        rcases List.mem_cons.mp member with rfl | member
        · exact isLowerLabelChar_iff.mpr (.inl alnum)
        · rcases List.mem_append.mp member with member | member
          · exact inner c member
          · rw [List.mem_singleton.mp member]
            exact isLowerLabelChar_iff.mpr (.inl alnum')
      · intro h
        obtain ⟨_, short, chars, head, tail⟩ := h
        refine ⟨isLowerAlnum_of_ne (chars _ List.mem_cons_self) head, ⟨by omega, ?_⟩, ?_⟩
        · intro c member
          exact chars c (List.mem_cons_of_mem _ (List.mem_append_left _ member))
        · exact isLowerAlnum_of_ne (chars _ (List.mem_cons_of_mem _ List.mem_concat_self)) tail

theorem isLowerAlnum_val {c : CodePoint} :
    isLowerAlnum c = true ↔ 0x30 ≤ c.val ∧ c.val ≤ 0x39 ∨ 0x61 ≤ c.val ∧ c.val ≤ 0x7A := by
  simp only [isLowerAlnum, Bool.or_eq_true, Bool.and_eq_true, decide_eq_true_eq]

/-- The lower-case form of one ASCII character. -/
def asciiLower (c : CodePoint) : CodePoint :=
  if 0x41 ≤ c.val ∧ c.val ≤ 0x5A then c + 0x20 else c

/-- LATIN CAPITAL LETTER I WITH DOT ABOVE. -/
def dottedI : CodePoint := 0x130

/-- Only two other characters have a lower-case form with an ASCII character in it. -/
theorem lower_cases (c : CodePoint) :
    c.lower = [asciiLower c] ∨ c = dottedI ∧ c.lower = [0x69, 0x307] ∨
      c = kelvin ∧ c.lower = [.ofChar 'k'] := by
  unfold CodePoint.lower asciiLower
  split
  · exact .inl rfl
  · split
    · rename_i dotted
      exact .inr (.inl ⟨dotted, rfl⟩)
    · split
      · rename_i sign
        exact .inr (.inr ⟨sign, rfl⟩)
      · exact .inl rfl

theorem asciiLower_val (c : CodePoint) : (asciiLower c).val =
    if 0x41 ≤ c.val ∧ c.val ≤ 0x5A then c.val + 0x20 else c.val := by
  unfold asciiLower
  split
  · rw [Fin.val_add]
    change (c.val + 0x20) % 0x110000 = _
    omega
  · rfl

theorem isLowerLabelChar_asciiLower {c : CodePoint} :
    isLowerLabelChar (asciiLower c) = true ↔ IsAlnum c ∨ c = hyphen := by
  have sign : ∀ d : CodePoint, d = hyphen ↔ d.val = 0x2D := fun d => Fin.ext_iff
  rw [isLowerLabelChar_iff, isLowerAlnum_val, sign, sign, asciiLower_val, IsAlnum]
  split
  · omega
  · omega

theorem asciiLower_eq_hyphen {c : CodePoint} : asciiLower c = hyphen ↔ c = hyphen := by
  have sign : ∀ d : CodePoint, d = hyphen ↔ d.val = 0x2D := fun d => Fin.ext_iff
  rw [sign, sign, asciiLower_val]
  split
  · omega
  · omega

theorem lower_eq_map {text : Text} (plain : kelvin ∉ text) (plain' : dottedI ∉ text) :
    text.lower = text.map asciiLower := by
  have one : ∀ c ∈ text, c.lower = [asciiLower c] := by
    intro c member
    rcases lower_cases c with ascii | ⟨rfl, _⟩ | ⟨rfl, _⟩
    · exact ascii
    · exact absurd member plain'
    · exact absurd member plain
  rw [Text.lower, List.flatMap_congr one, ← List.map_eq_flatMap]

theorem lower_cons (c : CodePoint) (text : Text) :
    Text.lower (c :: text) = c.lower ++ text.lower := List.flatMap_cons

/-- The KELVIN SIGN and `k` have one lower-case form. -/
theorem lower_plainK (value : Text) : (plainK value).lower = value.lower := by
  induction value with
  | nil => rfl
  | cons c value ih =>
    have same : CodePoint.lower (if c = kelvin then .ofChar 'k' else c) = c.lower := by
      split
      · rename_i sign
        rw [sign]
        rfl
      · rfl
    rw [plainK, List.map_cons, lower_cons, lower_cons, same]
    exact congrArg (c.lower ++ ·) ih

theorem dot_not_mem_lower {c : CodePoint} (ne : c ≠ dot) : dot ∉ c.lower := by
  rcases lower_cases c with ascii | ⟨_, dotted⟩ | ⟨_, sign⟩
  · have stop : ∀ d : CodePoint, d = dot ↔ d.val = 0x2E := fun d => Fin.ext_iff
    rw [ascii, List.mem_singleton, eq_comm, stop, asciiLower_val]
    rw [ne_eq, stop] at ne
    split
    · omega
    · exact ne
  · rw [dotted]
    decide
  · rw [sign]
    decide

/-- What has no separator stays with the first part. -/
theorem splitOn_append_left {separator : CodePoint} {first : Text} (plain : separator ∉ first)
    (last : Text) : (first ++ last).splitOn separator =
      (last.splitOn separator).modifyHead (first ++ ·) := by
  induction first with
  | nil =>
    cases split : last.splitOn separator with
    | nil => exact absurd split (List.splitOn_ne_nil _ _)
    | cons _ _ => exact split
  | cons c first ih =>
    have ne : ¬ (c == separator) = true := by
      rw [beq_iff_eq]
      intro same
      exact plain (same ▸ List.mem_cons_self)
    rw [List.cons_append, List.splitOn_cons_eq_if_modifyHead, if_neg ne,
      ih fun member => plain (List.mem_cons_of_mem _ member)]
    cases last.splitOn separator with
    | nil => rfl
    | cons _ _ => rfl

/-- Splitting at dots and lower case commute. -/
theorem splitOn_lower (value : Text) :
    value.lower.splitOn dot = (value.splitOn dot).map Text.lower := by
  induction value with
  | nil => rfl
  | cons c value ih =>
    rw [List.splitOn_cons_eq_if_modifyHead]
    split
    · rename_i same
      have stop : c.lower = [dot] := by
        rw [beq_iff_eq.mp same]
        rfl
      rw [lower_cons, stop, List.singleton_append, List.splitOn_cons_eq_if_modifyHead,
        if_pos (beq_self_eq_true dot), ih]
      rfl
    · rename_i other
      have plain := dot_not_mem_lower (fun same => other (beq_iff_eq.mpr same))
      rw [lower_cons, splitOn_append_left plain, ih]
      cases value.splitOn dot with
      | nil => rfl
      | cons first _ =>
        rw [List.modifyHead_cons, List.map_cons, List.map_cons, List.modifyHead_cons, lower_cons]

/-- Apart from the KELVIN SIGN, lower-case labels come from labels in any letter case. -/
theorem hostLabel_lower {label : Text} (plain : kelvin ∉ label) :
    hostLabel label.lower = true ↔ IsLabel label := by
  by_cases dotted : dottedI ∈ label
  · have bad : ¬ (IsAlnum dottedI ∨ dottedI = hyphen) := by decide
    constructor
    · intro accepted
      have combining : (0x307 : CodePoint) ∈ label.lower :=
        List.mem_flatMap.mpr ⟨dottedI, dotted, by decide⟩
      have char := (hostLabel_iff.mp accepted).2.2.1 _ combining
      exact absurd char (by decide)
    · intro isLabel
      exact absurd (isLabel.chars _ dotted) bad
  · have none (t : Option CodePoint) : t.map asciiLower ≠ some hyphen ↔ t ≠ some hyphen := by
      cases t with
      | none => exact ⟨fun _ => nofun, fun _ => nofun⟩
      | some c => simp only [Option.map_some, ne_eq, Option.some.injEq, asciiLower_eq_hyphen]
    rw [lower_eq_map plain dotted, hostLabel_iff, List.length_map, List.forall_mem_map,
      List.head?_map, List.getLast?_map, none, none]
    constructor
    · intro h
      exact ⟨h.1, h.2.1, fun c member => isLowerLabelChar_asciiLower.mp (h.2.2.1 c member),
        h.2.2.2.1, h.2.2.2.2⟩
    · intro h
      exact ⟨h.length_pos, h.length_le,
        fun c member => isLowerLabelChar_asciiLower.mpr (h.chars c member), h.head, h.last⟩

/-! ## What is accepted -/

theorem mem_plainK {value : Text} {c : CodePoint} (member : c ∈ value) (ne : c ≠ kelvin) :
    c ∈ plainK value :=
  List.mem_map.mpr ⟨c, member, if_neg ne⟩

theorem kelvin_not_mem_plainK (value : Text) : kelvin ∉ plainK value := by
  intro member
  obtain ⟨c, _, same⟩ := List.mem_map.mp member
  split at same
  · exact absurd same (by decide)
  · rename_i other
    exact other same

theorem plainK_eq_self {value : Text} (plain : kelvin ∉ value) : plainK value = value := by
  have same : ∀ c ∈ value, (if c = kelvin then .ofChar 'k' else c) = c := by
    intro c member
    exact if_neg fun sign : c = kelvin => plain (sign ▸ member)
  rw [plainK, List.map_congr_left same, List.map_id']

/-- A host name is written with the characters of its labels and dots. -/
theorem IsHostName.mem {name : Text} (isName : IsHostName name) {c : CodePoint} (member : c ∈ name) :
    IsAlnum c ∨ c = hyphen ∨ c = dot := by
  rw [← @List.intercalate_splitOn _ name _ _ dot] at member
  rcases mem_joinText member with same | ⟨label, inLabels, inLabel⟩
  · exact .inr (.inr same)
  · exact ((isName label inLabels).chars c inLabel).imp_right .inl

theorem all_hostLabel_iff {value : Text} :
    (value.lower.splitOn dot).all hostLabel = true ↔ IsHostName (plainK value) := by
  rw [← lower_plainK, splitOn_lower, List.all_map, List.all_eq_true]
  apply forall₂_congr
  intro label inLabels
  apply hostLabel_lower
  intro inLabel
  exact kelvin_not_mem_plainK value (mem_of_mem_splitOn inLabels inLabel)

theorem length_lower {value : Text} (isName : IsHostName (plainK value)) :
    value.lower.length = value.length := by
  have plain : dottedI ∉ plainK value := by
    intro member
    exact absurd (isName.mem member) (by decide)
  rw [← lower_plainK, lower_eq_map (kelvin_not_mem_plainK value) plain, List.length_map, plainK,
    List.length_map]

theorem isScopeIdChar_iff {c : CodePoint} :
    isScopeIdChar c = true ↔
      IsAlnum c ∨ c = .ofChar '.' ∨ c = .ofChar '_' ∨ c = hyphen := by
  simp only [isScopeIdChar, Bool.or_eq_true, Bool.and_eq_true, decide_eq_true_eq, beq_iff_eq,
    isLowerAlnum_val, IsAlnum, dot]
  tauto

theorem scopeIdMatch_iff {zone : Text} : scopeIdMatch zone = true ↔ IsZone zone := by
  simp only [scopeIdMatch, Bool.and_eq_true, decide_eq_true_eq, List.all_eq_true,
    isScopeIdChar_iff, IsZone, and_assoc]

theorem not_isHostName_of_colon {value : Text} (member : colon ∈ value) :
    ¬ IsHostName (plainK value) := by
  intro isName
  exact absurd (isName.mem (mem_plainK member (by decide))) (by decide)

/-- An address is an IPv4 address, or has colons. -/
theorem ipAddress_cases {value : Text} {address : IpAddress} (read : ipAddress value = some address) :
    (∃ four, IPv4Address.parse value = some four ∧ address = .v4 four) ∨
      ∃ six, IPv6Address.parse value = some six ∧ address = .v6 six := by
  unfold ipAddress at read
  cases parsed : IPv4Address.parse value with
  | some four =>
    rw [parsed] at read
    exact .inl ⟨four, rfl, (Option.some.inj read).symm⟩
  | none =>
    rw [parsed] at read
    obtain ⟨six, parsed', same⟩ := Option.map_eq_some_iff.mp read
    exact .inr ⟨six, parsed', same.symm⟩

/-- A name with a KELVIN SIGN, or with a zone, is no host name and address at once. -/
theorem not_isHostName_of_ipAddress {value : Text} {address : IpAddress}
    (read : ipAddress value = some address)
    (other : (∃ zone, zone ∈ address.scopeId) ∨ kelvin ∈ value) : ¬ IsHostName (plainK value) := by
  rcases ipAddress_cases read with ⟨four, parsed, rfl⟩ | ⟨six, parsed, rfl⟩
  · rcases other with ⟨_, found⟩ | sign
    · cases found
    · exact absurd (IPv4Address.mem_of_parse parsed sign) (by decide)
  · exact not_isHostName_of_colon (IPv6Address.mem_of_parse parsed).1

theorem host_accepts_iff {value : Text} (short : value.length ≤ 253) :
    (∃ name, host value = .ok name) ↔ IsHostAddress value ∨ IsHostName (plainK value) := by
  unfold host IsHostAddress
  cases read : ipAddress value with
  | some address =>
    dsimp only
    have zoned : (¬ (address.scopeId.any fun scopeId => !scopeIdMatch scopeId) = true) ↔
        ∀ zone ∈ address.scopeId, IsZone zone := by
      cases address.scopeId with
      | none => exact ⟨fun _ => nofun, fun _ => nofun⟩
      | some zone =>
        simp only [Option.any_some, Bool.not_eq_true', Bool.not_eq_false, scopeIdMatch_iff,
          Option.mem_some_iff, forall_eq']
    split
    · rename_i bad
      constructor
      · intro accepted
        obtain ⟨_, impossible⟩ := accepted
        cases impossible
      · intro accepted
        rcases accepted with ⟨_, same, zones⟩ | isName
        · cases same
          exact absurd bad (zoned.mpr zones)
        · obtain ⟨zone, found, _⟩ := Option.any_eq_true _ _ |>.mp bad
          exact absurd isName (not_isHostName_of_ipAddress read (.inl ⟨zone, found⟩))
    · rename_i fine
      exact ⟨fun _ => .inl ⟨address, rfl, zoned.mp fine⟩, fun _ => ⟨_, rfl⟩⟩
  | none =>
    dsimp only
    split
    · rename_i bad
      constructor
      · intro accepted
        obtain ⟨_, impossible⟩ := accepted
        cases impossible
      · intro accepted
        rcases accepted with ⟨_, impossible, _⟩ | isName
        · cases impossible
        · rw [length_lower isName] at bad
          rcases bad with long | not
          · omega
          · exact absurd (all_hostLabel_iff.mpr isName) not
    · rename_i fine
      rw [not_or, Decidable.not_not] at fine
      exact ⟨fun _ => .inr (all_hostLabel_iff.mp fine.2), fun _ => ⟨_, rfl⟩⟩

/-! ## Values that were returned -/

/-- The characters of a lower-case host name. -/
theorem mem_lower {value : Text} (accepted : (value.lower.splitOn dot).all hostLabel = true)
    {c : CodePoint} (member : c ∈ value.lower) : isLowerLabelChar c = true ∨ c = dot := by
  rw [← @List.intercalate_splitOn _ value.lower _ _ dot] at member
  rcases mem_joinText member with same | ⟨label, inLabels, inLabel⟩
  · exact .inr same
  · exact .inl ((hostLabel_iff.mp (List.all_eq_true.mp accepted label inLabels)).2.2.1 c inLabel)

theorem asciiLower_eq_self {c : CodePoint} (small : ¬ (0x41 ≤ c.val ∧ c.val ≤ 0x5A)) :
    asciiLower c = c := if_neg small

theorem lower_eq_self {text : Text} (lower : ∀ c ∈ text, isLowerLabelChar c = true ∨ c = dot) :
    text.lower = text := by
  have plain : kelvin ∉ text := fun member => absurd (lower _ member) (by decide)
  have plain' : dottedI ∉ text := fun member => absurd (lower _ member) (by decide)
  have same : ∀ c ∈ text, asciiLower c = c := by
    intro c member
    apply asciiLower_eq_self
    rcases lower c member with char | rfl
    · rcases isLowerLabelChar_iff.mp char with alnum | rfl
      · have values := isLowerAlnum_val.mp alnum
        omega
      · decide
    · decide
  rw [lower_eq_map plain plain', List.map_congr_left same, List.map_id']

theorem isDigitOf_ten_val {c : CodePoint} (digit : isDigitOf 10 c = true) :
    0x30 ≤ c.val ∧ c.val ≤ 0x39 := by
  unfold isDigitOf digitValue at digit
  split at digit
  · assumption
  · split at digit
    · simp only [Option.any_some, decide_eq_true_eq] at digit
      omega
    · split at digit
      · simp only [Option.any_some, decide_eq_true_eq] at digit
        omega
      · cases digit

/-- Digits and dots are the lower-case form of nothing else. -/
theorem eq_of_lower_digits {value : Text}
    (digits : ∀ c ∈ value.lower, c = dot ∨ isDigitOf 10 c = true) : value.lower = value := by
  have one : ∀ c ∈ value, c.lower = [c] := by
    intro c member
    have inLower : ∀ d ∈ c.lower, d = dot ∨ isDigitOf 10 d = true :=
      fun d inChar => digits d (List.mem_flatMap.mpr ⟨c, member, inChar⟩)
    rcases lower_cases c with ascii | ⟨_, dotted⟩ | ⟨_, sign⟩
    · rw [ascii] at inLower ⊢
      congr 1
      apply asciiLower_eq_self
      have value := asciiLower_val c
      rcases inLower _ List.mem_cons_self with same | digit
      · have stop : (asciiLower c).val = 0x2E := congrArg Fin.val same
        split at value
        · omega
        · assumption
      · have values := isDigitOf_ten_val digit
        split at value
        · omega
        · assumption
    · rw [dotted] at inLower
      exact absurd (inLower _ List.mem_cons_self) (by decide)
    · rw [sign] at inLower
      exact absurd (inLower _ List.mem_cons_self) (by decide)
  rw [Text.lower, List.flatMap_congr one, ← List.map_eq_flatMap, List.map_id']

theorem length_ipv4Text_le (address : IPv4Address) : address.text.length ≤ 16 := by
  have le := @length_joinText_le dot address.parts 3 (by
    intro part member
    obtain ⟨octet, _, rfl⟩ := List.mem_map.mp member
    exact length_numeral_le (by omega) (by omega) (by omega))
  rw [IPv4Address.parts, List.length_map, address.length_octets] at le
  exact le

theorem ipv4Text_ne_nil (address : IPv4Address) : address.text ≠ [] := by
  intro none
  have read := address.parse_text
  rw [none] at read
  cases read

/-- The text of an accepted address is as long as a host may be. -/
theorem length_addressText {address : IpAddress} (zones : ∀ zone ∈ address.scopeId, IsZone zone) :
    1 ≤ address.text.length ∧ address.text.length ≤ 253 := by
  cases address with
  | v4 four =>
    have le := length_ipv4Text_le four
    have positive := List.length_pos_of_ne_nil (ipv4Text_ne_nil four)
    exact ⟨positive, Nat.le_trans le (by omega)⟩
  | v6 six =>
    have le := six.length_text_le
    have positive := List.length_pos_of_mem six.colon_mem_text
    have zone : (six.scopeId.getD []).length ≤ 64 := by
      cases found : six.scopeId with
      | none => exact Nat.zero_le _
      | some zone => exact (zones zone found).2.1
    exact ⟨positive, show six.text.length ≤ 253 by omega⟩

/-- A returned value is accepted again and returned unchanged. -/
theorem hostName_of_host {value name : Text} (returned : host value = .ok name) :
    hostName name = .ok name := by
  unfold host at returned
  cases read : ipAddress value with
  | some address =>
    rw [read] at returned
    dsimp only at returned
    split at returned
    · cases returned
    · rename_i fine
      cases returned
      have zones : ∀ zone ∈ address.scopeId, IsZone zone := by
        intro zone found
        rw [Option.mem_def.mp found, Option.any_some, Bool.not_eq_true', Bool.not_eq_false]
          at fine
        exact scopeIdMatch_iff.mp fine
      have length := length_addressText zones
      rw [hostName, if_neg (by omega), if_neg (by omega), host, ipAddress_text read]
      exact if_neg fine
  | none =>
    rw [read] at returned
    dsimp only at returned
    split at returned
    · cases returned
    · rename_i fine
      rw [not_or, Decidable.not_not] at fine
      obtain ⟨short, accepted⟩ := fine
      cases returned
      have nonempty : value.lower ≠ [] := by
        intro none
        rw [none] at accepted
        cases accepted
      have positive := List.length_pos_of_ne_nil nonempty
      have same := lower_eq_self fun c member => mem_lower accepted member
      have again : ipAddress value.lower = none := by
        cases read' : ipAddress value.lower with
        | none => rfl
        | some address =>
          rcases ipAddress_cases read' with ⟨four, parsed, _⟩ | ⟨six, parsed, _⟩
          · rw [eq_of_lower_digits fun c member => IPv4Address.mem_of_parse parsed member, read]
              at read'
            cases read'
          · exact absurd (mem_lower accepted (IPv6Address.mem_of_parse parsed).1) (by decide)
      rw [hostName, if_neg (by omega), if_neg short, host, again, same]
      dsimp only
      exact if_neg (not_or.mpr ⟨short, not_not.mpr accepted⟩)

/-! ## The two results -/

/-- `_host` keeps its promise about a value. -/
def HostContract (value : Text) : Prop :=
  ((∃ name, host value = .ok name) ↔ IsHostAddress value ∨ IsHostName value) ∧
    ∀ name, host value = .ok name → hostName name = .ok name

/-- `_host` accepts exactly the addresses and the host names of ASCII characters, and what
it returned unchanged, except for a host name that has KELVIN SIGNs in place of `k`. -/
theorem host_contract_iff (value : Text) (short : value.length ≤ 253) :
    HostContract value ↔ (kelvin ∈ value → ¬ IsHostName (plainK value)) := by
  have accepts := host_accepts_iff short
  have again : ∀ name, host value = .ok name → hostName name = .ok name :=
    fun _ returned => hostName_of_host returned
  by_cases sign : kelvin ∈ value
  · have foreign : ¬ IsHostName value := by
      intro isName
      exact absurd (isName.mem sign) (by decide)
    constructor
    · intro contract _ isName
      rcases contract.1.mp (accepts.mpr (.inr isName)) with ⟨address, read, _⟩ | impossible
      · exact not_isHostName_of_ipAddress read (.inr sign) isName
      · exact foreign impossible
    · intro other
      refine ⟨?_, again⟩
      rw [accepts]
      exact or_congr_right ⟨fun isName => absurd isName (other sign), fun isName => absurd isName foreign⟩
  · rw [plainK_eq_self sign] at accepts
    exact ⟨fun _ impossible => absurd impossible sign, fun _ => ⟨accepts, again⟩⟩

/-- A name in mixed case. -/
theorem host_contract_localhost : HostContract (lit "LocalHost") :=
  (host_contract_iff (lit "LocalHost") (by decide)).mpr fun sign => absurd sign (by decide)

/-- The KELVIN SIGN is accepted as a host name. -/
theorem host_kelvin : host [kelvin] = .ok (lit "k") ∧ ¬ IsHostAddress [kelvin] ∧
    ¬ IsHostName [kelvin] ∧ ¬ HostContract [kelvin] := by
  have accepted : host [kelvin] = .ok (lit "k") := by decide
  have none : ipAddress [kelvin] = none := by decide
  have address : ¬ IsHostAddress [kelvin] := by
    intro found
    obtain ⟨_, read, _⟩ := found
    rw [none] at read
    cases read
  have name : ¬ IsHostName [kelvin] := by
    intro isName
    exact absurd (isName.mem List.mem_cons_self) (by decide)
  refine ⟨accepted, address, name, ?_⟩
  intro contract
  rcases contract.1.mp ⟨_, accepted⟩ with impossible | impossible
  · exact address impossible
  · exact name impossible

end DataBridge
