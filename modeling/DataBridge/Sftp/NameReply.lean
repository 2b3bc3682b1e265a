import DataBridge.Sftp.Listing

/-!
# NAME replies on the wire

What a version 3 server encodes when it answers READDIR, as types whose values
all have an encoding, and what `_names` makes of a payload: it gives back the
entries of an encoded page whatever comes after it, refuses every other payload,
and asks for few fields whatever the counts in the payload claim.

`Reader` parses what remains of a payload, so it says nothing about a read that
fails. The last part follows the `_Reader` object itself, with its payload and
offset, and ties it to the parser.
-/

namespace DataBridge

/-! ## Numbers -/

theorem foldl_bigEndian (bytes : Bytes) (n : Nat) :
    bytes.foldl (fun n b => n * 256 + b.toNat) n =
      n * 256 ^ bytes.length + fromBigEndian bytes := by
  induction bytes generalizing n with
  | nil => simp [fromBigEndian]
  | cons b bytes ih =>
    have front := ih (n * 256 + b.toNat)
    have alone := ih b.toNat
    simp only [fromBigEndian, List.foldl_cons, Nat.zero_mul, Nat.zero_add] at front alone ⊢
    rw [front, alone, List.length_cons, Nat.pow_succ]
    ring

theorem fromBigEndian_lt (bytes : Bytes) : fromBigEndian bytes < 256 ^ bytes.length := by
  induction bytes with
  | nil => simp [fromBigEndian]
  | cons b bytes ih =>
    have digit : b.toNat < 256 := b.toNat_lt
    have split := foldl_bigEndian bytes b.toNat
    simp only [fromBigEndian, List.foldl_cons, Nat.zero_mul, Nat.zero_add] at split ih ⊢
    rw [split, List.length_cons, Nat.pow_succ]
    have high : (b.toNat + 1) * 256 ^ bytes.length ≤ 256 * 256 ^ bytes.length :=
      Nat.mul_le_mul_right _ (by omega)
    rw [Nat.add_mul, Nat.one_mul] at high
    omega

theorem fromBigEndian_snoc (bytes : Bytes) (b : UInt8) :
    fromBigEndian (bytes ++ [b]) = fromBigEndian bytes * 256 + b.toNat := by
  simp [fromBigEndian]

/-- Bytes are the digits of the number they encode. -/
theorem bigEndian_fromBigEndian (bytes : Bytes) :
    bigEndian bytes.length (fromBigEndian bytes) = bytes := by
  induction bytes using List.reverseRecOn with
  | nil => rfl
  | append_singleton bytes b ih =>
    have digit : b.toNat < 256 := b.toNat_lt
    have high : (fromBigEndian bytes * 256 + b.toNat) / 256 = fromBigEndian bytes := by omega
    have low : (fromBigEndian bytes * 256 + b.toNat) % 256 = b.toNat := by omega
    rw [fromBigEndian_snoc, List.length_append, List.length_singleton, bigEndian, high, low, ih]
    simp

/-! ## Entries on the wire -/

/-- A string that has an encoding. -/
abbrev WireString : Type := { text : Bytes // text.length < 2 ^ 32 }

/-- The extended pairs of an attribute block. -/
abbrev WirePairs : Type := { pairs : List (WireString × WireString) // pairs.length < 2 ^ 32 }

def WireString.field (s : WireString) : Bytes := stringField s.val

def WirePairs.field (pairs : List (WireString × WireString)) : Bytes :=
  pairs.flatMap fun pair => WireString.field pair.1 ++ WireString.field pair.2

/-- The attributes of an entry: any of the optional fields of version 3, and any
of the flags to which it gives no meaning. -/
structure WireAttributes where
  size : Option UInt64
  owner : Option (UInt32 × UInt32)
  mode : Option UInt32
  times : Option (UInt32 × UInt32)
  extended : Option WirePairs
  unassigned : Nat
  unassigned_bits : ∀ bit, unassigned.testBit bit = true → 4 ≤ bit ∧ bit < 31

def flagBit (bit : Nat) (set : Bool) : Nat := if set then 2 ^ bit else 0

/-- A field of two integers. -/
def pairField (pair : UInt32 × UInt32) : Bytes :=
  bigEndian 4 pair.1.toNat ++ bigEndian 4 pair.2.toNat

namespace WireAttributes

/-- The flags word: FLAG_SIZE, FLAG_UIDGID, FLAG_PERMISSIONS, FLAG_AMTIME and
FLAG_EXTENDED for the fields that are there. -/
def flags (a : WireAttributes) : Nat :=
  a.unassigned ||| flagBit 0 a.size.isSome ||| flagBit 1 a.owner.isSome |||
    flagBit 2 a.mode.isSome ||| flagBit 3 a.times.isSome ||| flagBit 31 a.extended.isSome

def field (a : WireAttributes) : Bytes :=
  bigEndian 4 a.flags ++
    (a.size.elim [] (fun n => bigEndian 8 n.toNat) ++
      (a.owner.elim [] pairField ++
        (a.mode.elim [] (fun n => bigEndian 4 n.toNat) ++
          (a.times.elim [] pairField ++
            a.extended.elim [] (fun pairs =>
              bigEndian 4 pairs.val.length ++ WirePairs.field pairs.val)))))

/-- The fields that DataBridge reads. -/
def read (a : WireAttributes) : Attributes :=
  ⟨a.size.map UInt64.toNat, a.mode.map UInt32.toNat⟩

end WireAttributes

/-- One entry of a page. -/
structure WireEntry where
  name : WireString
  longName : WireString
  attributes : WireAttributes

def WireEntry.field (e : WireEntry) : Bytes :=
  e.name.field ++ (e.longName.field ++ e.attributes.field)

/-- The entry as `_names` returns it. -/
def WireEntry.read (e : WireEntry) : RawEntry :=
  (addressableName e.name.val, e.attributes.read)

/-- A page of a directory, which has at least one entry. -/
structure WirePage where
  entries : List WireEntry
  nonempty : entries ≠ []
  count : entries.length < 2 ^ 32

/-- The payload of a NAME reply. -/
def WirePage.payload (page : WirePage) : Bytes :=
  bigEndian 4 page.entries.length ++ page.entries.flatMap WireEntry.field

/-! ## The flags -/

theorem testBit_flagBit (i j : Nat) (set : Bool) :
    (flagBit i set).testBit j = (set && decide (i = j)) := by
  cases set with
  | false => simp [flagBit]
  | true => simp [flagBit, Nat.testBit_two_pow]

theorem flagBit_lt {bit : Nat} {set : Bool} (small : bit < 32) : flagBit bit set < 2 ^ 32 := by
  cases set with
  | false => exact Nat.two_pow_pos 32
  | true => exact Nat.pow_lt_pow_right (by decide) small

namespace WireAttributes

variable (a : WireAttributes)

theorem unassigned_lt : a.unassigned < 2 ^ 32 := by
  refine Nat.lt_pow_two_of_testBit _ fun bit large => ?_
  cases set : a.unassigned.testBit bit with
  | false => rfl
  | true =>
    have := a.unassigned_bits bit set
    omega

theorem flags_lt : a.flags < 2 ^ 32 := by
  have bit : ∀ {i set}, i < 32 → flagBit i set < 2 ^ 32 := flagBit_lt
  unfold flags
  exact Nat.or_lt_two_pow (Nat.or_lt_two_pow (Nat.or_lt_two_pow (Nat.or_lt_two_pow
    (Nat.or_lt_two_pow a.unassigned_lt (bit (by decide))) (bit (by decide))) (bit (by decide)))
    (bit (by decide))) (bit (by decide))

/-- A flag with a meaning is set exactly with its field. -/
theorem testBit_flags (bit : Nat) : a.flags.testBit bit =
    (a.unassigned.testBit bit || (a.size.isSome && decide (0 = bit)) ||
      (a.owner.isSome && decide (1 = bit)) || (a.mode.isSome && decide (2 = bit)) ||
      (a.times.isSome && decide (3 = bit)) || (a.extended.isSome && decide (31 = bit))) := by
  simp only [flags, Nat.testBit_or, testBit_flagBit]

theorem unassigned_assigned {bit : Nat} (assigned : bit < 4 ∨ 31 ≤ bit) :
    a.unassigned.testBit bit = false := by
  cases set : a.unassigned.testBit bit with
  | false => rfl
  | true =>
    have := a.unassigned_bits bit set
    omega

theorem testBit_size : a.flags.testBit 0 = a.size.isSome := by
  rw [testBit_flags, unassigned_assigned a (.inl (by decide))]
  simp

theorem testBit_owner : a.flags.testBit 1 = a.owner.isSome := by
  simp [testBit_flags, unassigned_assigned]

theorem testBit_mode : a.flags.testBit 2 = a.mode.isSome := by
  simp [testBit_flags, unassigned_assigned]

theorem testBit_times : a.flags.testBit 3 = a.times.isSome := by
  simp [testBit_flags, unassigned_assigned]

theorem testBit_extended : a.flags.testBit 31 = a.extended.isSome := by
  simp [testBit_flags, unassigned_assigned]

end WireAttributes

/-- The flags of a word to which version 3 gives no meaning. -/
def unassignedFlags (word : Nat) : Nat := word &&& ((2 ^ 27 - 1) <<< 4)

theorem testBit_unassignedFlags (word bit : Nat) :
    (unassignedFlags word).testBit bit = (word.testBit bit && decide (4 ≤ bit ∧ bit < 31)) := by
  rw [unassignedFlags, Nat.testBit_and, Nat.testBit_shiftLeft, Nat.testBit_two_pow_sub_one]
  congr 1
  by_cases low : 4 ≤ bit
  · have top : bit - 4 < 27 ↔ bit < 31 := by omega
    simp [low, top]
  · simp [low]

/-- A flags word is the one of the fields it announces. -/
theorem flags_of_word {a : WireAttributes} {word : Nat} (fits : word < 2 ^ 32)
    (rest : a.unassigned = unassignedFlags word) (size : a.size.isSome = word.testBit 0)
    (owner : a.owner.isSome = word.testBit 1) (mode : a.mode.isSome = word.testBit 2)
    (times : a.times.isSome = word.testBit 3) (extended : a.extended.isSome = word.testBit 31) :
    a.flags = word := by
  refine Nat.eq_of_testBit_eq fun bit => ?_
  rw [a.testBit_flags, rest, testBit_unassignedFlags, size, owner, mode, times, extended]
  have cases : bit = 0 ∨ bit = 1 ∨ bit = 2 ∨ bit = 3 ∨ bit = 31 ∨ (4 ≤ bit ∧ bit < 31) ∨
      32 ≤ bit := by
    omega
  rcases cases with rfl | rfl | rfl | rfl | rfl | inside | beyond
  · simp
  · simp
  · simp
  · simp
  · simp
  · have apart : 0 ≠ bit ∧ 1 ≠ bit ∧ 2 ≠ bit ∧ 3 ≠ bit ∧ 31 ≠ bit := by omega
    simp [inside, apart]
  · have apart : 0 ≠ bit ∧ 1 ≠ bit ∧ 2 ≠ bit ∧ 3 ≠ bit ∧ 31 ≠ bit := by omega
    have clear : word.testBit bit = false :=
      Nat.testBit_lt_two_pow (fits.trans_le (Nat.pow_le_pow_right (by decide) beyond))
    simp [clear, apart]

/-! ## Payloads that a reader accepts -/

namespace Reader

variable {α β γ : Type}

/-- A reader accepts the encodings of some values, with anything after them. -/
def Codes (reader : Reader α) (encode : β → Bytes) (value : β → α) : Prop :=
  ∀ payload a rest, reader payload = .ok (a, rest) ↔
    ∃ b, value b = a ∧ payload = encode b ++ rest

theorem bind_ok_iff {reader : Reader α} {f : α → Reader γ} {payload : Bytes} {p : γ × Bytes} :
    (reader >>= f) payload = .ok p ↔
      ∃ a rest, reader payload = .ok (a, rest) ∧ f a rest = .ok p := by
  constructor
  · exact ok_of_bind
  · rintro ⟨a, rest, first, next⟩
    exact (bind_ok first).trans next

theorem pure_ok_iff {a c : α} {payload rest : Bytes} :
    (pure a : Reader α) payload = .ok (c, rest) ↔ a = c ∧ payload = rest := by
  constructor
  · intro read
    cases read
    exact ⟨rfl, rfl⟩
  · rintro ⟨rfl, rfl⟩
    rfl

theorem Codes.map {reader : Reader α} {encode : β → Bytes} {value : β → α} (g : α → γ)
    (codes : Codes reader encode value) : Codes (g <$> reader) encode (g ∘ value) := by
  intro payload c rest
  change (reader >>= fun a => pure (g a)) payload = _ ↔ _
  rw [bind_ok_iff]
  constructor
  · rintro ⟨a, mid, first, last⟩
    obtain ⟨rfl, rfl⟩ := pure_ok_iff.mp last
    obtain ⟨b, rfl, split⟩ := (codes _ _ _).mp first
    exact ⟨b, rfl, split⟩
  · rintro ⟨b, rfl, split⟩
    exact ⟨value b, rest, (codes _ _ _).mpr ⟨b, rfl, split⟩, rfl⟩

/-- A field behind a flag. -/
def optional (flag : Bool) (reader : Reader α) : Reader (Option α) :=
  if flag then some <$> reader else pure none

theorem Codes.optional {reader : Reader α} {encode : β → Bytes} {value : β → α} {flag : Bool}
    {payload rest : Bytes} {o : Option α} (codes : Codes reader encode value) :
    optional flag reader payload = .ok (o, rest) ↔
      ∃ b : Option β, b.isSome = flag ∧ b.map value = o ∧ payload = b.elim [] encode ++ rest := by
  cases flag with
  | false =>
    refine pure_ok_iff.trans ?_
    constructor
    · rintro ⟨rfl, rfl⟩
      exact ⟨none, rfl, rfl, rfl⟩
    · rintro ⟨b, absent, rfl, split⟩
      rw [Option.isSome_eq_false_iff, Option.isNone_iff_eq_none] at absent
      subst absent
      exact ⟨rfl, split⟩
  | true =>
    refine (codes.map some payload o rest).trans ?_
    constructor
    · rintro ⟨b, rfl, split⟩
      exact ⟨some b, rfl, rfl, split⟩
    · rintro ⟨b, present, rfl, split⟩
      obtain ⟨b, rfl⟩ := Option.isSome_iff_exists.mp present
      exact ⟨b, rfl, split⟩

/-! ### Fields -/

theorem take_ok_iff {size : Nat} {payload field rest : Bytes} :
    take size payload = .ok (field, rest) ↔ field.length = size ∧ payload = field ++ rest := by
  constructor
  · intro read
    unfold take at read
    split at read
    · cases read
    · cases read
      refine ⟨?_, (List.take_append_drop size payload).symm⟩
      rw [List.length_take]
      omega
  · rintro ⟨length, rfl⟩
    exact take_append length

theorem exists_word {field : Bytes} (length : field.length = 4) :
    ∃ n : UInt32, n.toNat = fromBigEndian field ∧ bigEndian 4 n.toNat = field := by
  have fits : fromBigEndian field < 2 ^ 32 := by
    have := fromBigEndian_lt field
    rw [length] at this
    omega
  have same : (UInt32.ofNat (fromBigEndian field)).toNat = fromBigEndian field :=
    UInt32.toNat_ofNat_of_lt fits
  refine ⟨.ofNat (fromBigEndian field), same, ?_⟩
  rw [same, ← length]
  exact bigEndian_fromBigEndian field

theorem exists_long {field : Bytes} (length : field.length = 8) :
    ∃ n : UInt64, n.toNat = fromBigEndian field ∧ bigEndian 8 n.toNat = field := by
  have fits : fromBigEndian field < 2 ^ 64 := by
    have := fromBigEndian_lt field
    rw [length] at this
    omega
  have same : (UInt64.ofNat (fromBigEndian field)).toNat = fromBigEndian field :=
    UInt64.toNat_ofNat_of_lt fits
  refine ⟨.ofNat (fromBigEndian field), same, ?_⟩
  rw [same, ← length]
  exact bigEndian_fromBigEndian field

theorem codes_uint32 : Codes uint32 (fun n : UInt32 => bigEndian 4 n.toNat) UInt32.toNat := by
  intro payload n rest
  constructor
  · intro read
    obtain ⟨field, mid, taken, last⟩ := bind_ok_iff.mp read
    obtain ⟨rfl, rfl⟩ := pure_ok_iff.mp last
    obtain ⟨length, rfl⟩ := take_ok_iff.mp taken
    obtain ⟨n, value, digits⟩ := exists_word length
    exact ⟨n, value, congrArg (· ++ mid) digits.symm⟩
  · rintro ⟨n, rfl, rfl⟩
    exact uint32_append n.toNat_lt

theorem codes_uint64 : Codes uint64 (fun n : UInt64 => bigEndian 8 n.toNat) UInt64.toNat := by
  intro payload n rest
  constructor
  · intro read
    obtain ⟨field, mid, taken, last⟩ := bind_ok_iff.mp read
    obtain ⟨rfl, rfl⟩ := pure_ok_iff.mp last
    obtain ⟨length, rfl⟩ := take_ok_iff.mp taken
    obtain ⟨n, value, digits⟩ := exists_long length
    exact ⟨n, value, congrArg (· ++ mid) digits.symm⟩
  · rintro ⟨n, rfl, rfl⟩
    exact uint64_append n.toNat_lt

/-- A skipped block of 8 bytes is a field of two integers. -/
theorem codes_block : Codes (take 8) pairField pairField := by
  intro payload block rest
  rw [take_ok_iff]
  constructor
  · rintro ⟨length, rfl⟩
    obtain ⟨n, -, high⟩ : ∃ n : UInt32, _ ∧ bigEndian 4 n.toNat = block.take 4 :=
      exists_word (by rw [List.length_take, length]; rfl)
    obtain ⟨m, -, low⟩ : ∃ n : UInt32, _ ∧ bigEndian 4 n.toNat = block.drop 4 :=
      exists_word (by rw [List.length_drop, length])
    have same : pairField (n, m) = block := by
      rw [pairField, high, low, List.take_append_drop]
    exact ⟨(n, m), same, by rw [same]⟩
  · rintro ⟨pair, rfl, rfl⟩
    exact ⟨by simp [pairField], rfl⟩

theorem codes_string : Codes string WireString.field Subtype.val := by
  intro payload text rest
  constructor
  · intro read
    obtain ⟨n, mid, first, taken⟩ := bind_ok_iff.mp read
    obtain ⟨n, rfl, rfl⟩ := (codes_uint32 _ _ _).mp first
    obtain ⟨length, rfl⟩ := take_ok_iff.mp taken
    refine ⟨⟨text, length ▸ n.toNat_lt⟩, rfl, ?_⟩
    simp only [WireString.field, stringField, length, List.append_assoc]
  · rintro ⟨s, rfl, rfl⟩
    exact string_append s.property

theorem skipPairs_ok_iff {count : Nat} {payload rest : Bytes} :
    skipPairs count payload = .ok ((), rest) ↔
      ∃ pairs, pairs.length = count ∧ payload = WirePairs.field pairs ++ rest := by
  induction count generalizing payload with
  | zero =>
    refine pure_ok_iff.trans ?_
    constructor
    · rintro ⟨-, rfl⟩
      exact ⟨[], rfl, rfl⟩
    · rintro ⟨pairs, none, rfl⟩
      rw [List.length_eq_zero_iff.mp none]
      exact ⟨rfl, rfl⟩
  | succ count ih =>
    unfold skipPairs
    simp only [bind_ok_iff, ih]
    constructor
    · rintro ⟨_, _, first, _, _, second, pairs, rfl, rfl⟩
      obtain ⟨name, -, rfl⟩ := (codes_string _ _ _).mp first
      obtain ⟨data, -, rfl⟩ := (codes_string _ _ _).mp second
      refine ⟨(name, data) :: pairs, rfl, ?_⟩
      simp [WirePairs.field]
    · rintro ⟨pairs, counted, rfl⟩
      obtain ⟨⟨name, data⟩, pairs, rfl⟩ := List.exists_cons_of_length_eq_add_one counted
      refine ⟨name.val, WireString.field data ++ (WirePairs.field pairs ++ rest), ?_,
        data.val, WirePairs.field pairs ++ rest, ?_, pairs, Nat.succ.inj counted, rfl⟩
      · refine (codes_string _ _ _).mpr ⟨name, rfl, ?_⟩
        simp [WirePairs.field]
      · exact (codes_string _ _ _).mpr ⟨data, rfl, rfl⟩

/-- The extended pairs of an attribute block, with their count. -/
def pairs : Reader Unit := do skipPairs (← uint32)

theorem codes_pairs : Codes pairs
    (fun pairs : WirePairs => bigEndian 4 pairs.val.length ++ WirePairs.field pairs.val)
    (fun _ => ()) := by
  intro payload _ rest
  unfold pairs
  rw [bind_ok_iff]
  constructor
  · rintro ⟨n, mid, first, skipped⟩
    obtain ⟨list, counted, rfl⟩ := skipPairs_ok_iff.mp skipped
    obtain ⟨n, rfl, rfl⟩ := (codes_uint32 _ _ _).mp first
    refine ⟨⟨list, counted ▸ n.toNat_lt⟩, rfl, ?_⟩
    simp only [counted, List.append_assoc]
  · rintro ⟨list, -, rfl⟩
    rw [List.append_assoc]
    exact ⟨_, _, uint32_append list.property, skipPairs_ok_iff.mpr ⟨list.val, rfl, rfl⟩⟩

/-! ### Attributes and entries -/

/-- The attribute block, one optional field after another. -/
theorem attributes_eq : attributes = do
    let flags ← uint32
    let size ← optional (flags.testBit 0) uint64
    let _ ← optional (flags.testBit 1) (take 8)
    let mode ← optional (flags.testBit 2) uint32
    let _ ← optional (flags.testBit 3) (take 8)
    let _ ← optional (flags.testBit 31) pairs
    return { size, mode } := by
  refine congrArg (uint32 >>= ·) (funext fun flags => ?_)
  cases flags.testBit 0 <;> cases flags.testBit 1 <;> cases flags.testBit 2 <;>
    cases flags.testBit 3 <;> cases flags.testBit 31 <;> simp [optional, pairs]

theorem codes_attributes : Codes attributes WireAttributes.field WireAttributes.read := by
  intro payload a rest
  rw [attributes_eq]
  simp only [bind_ok_iff, pure_ok_iff, codes_uint64.optional, codes_block.optional,
    codes_uint32.optional, codes_pairs.optional]
  constructor
  · rintro ⟨n, _, first, _, _, ⟨size, hasSize, rfl, rfl⟩, _, _, ⟨owner, hasOwner, rfl, rfl⟩, _, _,
      ⟨mode, hasMode, rfl, rfl⟩, _, _, ⟨times, hasTimes, rfl, rfl⟩, _, _,
      ⟨extended, hasExtended, rfl, rfl⟩, rfl, rfl⟩
    obtain ⟨word, rfl, rfl⟩ := (codes_uint32 _ _ _).mp first
    let a : WireAttributes :=
      { size, owner, mode, times, extended
        unassigned := unassignedFlags word.toNat
        unassigned_bits := fun bit set => by
          rw [testBit_unassignedFlags, Bool.and_eq_true] at set
          exact of_decide_eq_true set.2 }
    have flags : a.flags = word.toNat :=
      flags_of_word word.toNat_lt rfl hasSize hasOwner hasMode hasTimes hasExtended
    refine ⟨a, rfl, ?_⟩
    simp [WireAttributes.field, flags, a]
  · rintro ⟨a, rfl, rfl⟩
    simp only [WireAttributes.field, List.append_assoc]
    exact ⟨a.flags, _, uint32_append a.flags_lt,
      _, _, ⟨a.size, a.testBit_size.symm, rfl, rfl⟩,
      _, _, ⟨a.owner, a.testBit_owner.symm, rfl, rfl⟩,
      _, _, ⟨a.mode, a.testBit_mode.symm, rfl, rfl⟩,
      _, _, ⟨a.times, a.testBit_times.symm, rfl, rfl⟩,
      _, _, ⟨a.extended, a.testBit_extended.symm, rfl, rfl⟩, rfl, rfl⟩

theorem entries_ok_iff {count : Nat} {payload rest : Bytes} {raw : List RawEntry} :
    entries count payload = .ok (raw, rest) ↔
      ∃ wire : List WireEntry, wire.length = count ∧ wire.map WireEntry.read = raw ∧
        payload = wire.flatMap WireEntry.field ++ rest := by
  induction count generalizing payload rest raw with
  | zero =>
    refine pure_ok_iff.trans ?_
    constructor
    · rintro ⟨rfl, rfl⟩
      exact ⟨[], rfl, rfl, rfl⟩
    · rintro ⟨wire, none, rfl, rfl⟩
      rw [List.length_eq_zero_iff.mp none]
      exact ⟨rfl, rfl⟩
  | succ count ih =>
    unfold entries
    simp only [bind_ok_iff, pure_ok_iff, ih]
    constructor
    · rintro ⟨_, _, first, _, _, second, _, _, third, _, _, ⟨wire, rfl, rfl, rfl⟩, rfl, rfl⟩
      obtain ⟨name, rfl, rfl⟩ := (codes_string _ _ _).mp first
      obtain ⟨longName, -, rfl⟩ := (codes_string _ _ _).mp second
      obtain ⟨attributes, rfl, rfl⟩ := (codes_attributes _ _ _).mp third
      refine ⟨⟨name, longName, attributes⟩ :: wire, rfl, rfl, ?_⟩
      simp [WireEntry.field]
    · rintro ⟨wire, counted, rfl, rfl⟩
      obtain ⟨entry, wire, rfl⟩ := List.exists_cons_of_length_eq_add_one counted
      rw [List.flatMap_cons, WireEntry.field]
      simp only [List.append_assoc]
      exact ⟨_, _, (codes_string _ _ _).mpr ⟨entry.name, rfl, rfl⟩,
        _, _, (codes_string _ _ _).mpr ⟨entry.longName, rfl, rfl⟩,
        _, _, (codes_attributes _ _ _).mpr ⟨entry.attributes, rfl, rfl⟩,
        _, _, ⟨wire, Nat.succ.inj counted, rfl, rfl⟩, rfl, rfl⟩

/-- `_names` accepts the pages that have entries. -/
theorem codes_names : Codes names WirePage.payload fun page => page.entries.map WireEntry.read := by
  intro payload raw rest
  unfold names
  rw [bind_ok_iff]
  constructor
  · rintro ⟨_, _, first, listed⟩
    obtain ⟨count, rfl, rfl⟩ := (codes_uint32 _ _ _).mp first
    unfold someEntries at listed
    split at listed
    · cases listed
    · rename_i some
      obtain ⟨wire, counted, rfl, rfl⟩ := entries_ok_iff.mp listed
      have nonempty : wire ≠ [] := by
        intro none
        rw [none] at counted
        exact some counted.symm
      refine ⟨⟨wire, nonempty, counted ▸ count.toNat_lt⟩, rfl, ?_⟩
      simp only [WirePage.payload, counted, List.append_assoc]
  · rintro ⟨page, rfl, rfl⟩
    rw [WirePage.payload, List.append_assoc]
    refine ⟨_, _, uint32_append page.count, ?_⟩
    rw [someEntries, if_neg fun none => page.nonempty (List.length_eq_zero_iff.mp none)]
    exact entries_ok_iff.mpr ⟨page.entries, rfl, rfl, rfl⟩

theorem strict_entries (count : Nat) : Strict (entries count) := by
  induction count with
  | zero => exact strict_pure []
  | succ count ih =>
    refine strict_string.bind fun raw => strict_string.bind fun _ => ?_
    exact strict_attributes.bind fun attributes => ih.bind fun rest => strict_pure _

theorem strict_names : Strict names := by
  refine strict_uint32.bind fun count => ?_
  unfold someEntries
  split
  · intro payload e failed
    exact (Except.error.inj failed).symm
  · exact strict_entries count

end Reader

/-! ## The reader object -/

/-- `_Reader`, with a record of what it was asked: how many fields, and the
slices that it took of its payload. -/
structure Cursor where
  payload : Bytes
  offset : Nat
  fields : Nat
  slices : List (Nat × Nat)

/-- A method of `_Reader`; the object outlives an error. -/
def CursorRead (α : Type) : Type := Cursor → Except Exc α × Cursor

instance : Monad CursorRead where
  pure a := fun c => (.ok a, c)
  bind x f := fun c =>
    match x c with
    | (.ok a, c) => f a c
    | (.error e, c) => (.error e, c)

namespace Cursor

variable {α β : Type}

def start (payload : Bytes) : Cursor := ⟨payload, 0, 0, []⟩

def raise (e : Exc) : CursorRead α := fun c => (.error e, c)

/-- `_take`. -/
def take (size : Nat) : CursorRead Bytes := fun c =>
  let stop := c.offset + size
  if stop > c.payload.length then raise (.status sftpBadMessage) c
  else
    (.ok ((c.payload.take stop).drop c.offset),
      { c with offset := stop, slices := c.slices ++ [(c.offset, stop)] })

/-- An integer of some bytes. -/
def integer (size : Nat) : CursorRead Nat := do return fromBigEndian (← take size)

/-- Count one field read. -/
def field (read : CursorRead α) : CursorRead α := fun c =>
  read { c with fields := c.fields + 1 }

def uint32 : CursorRead Nat := field (integer 4)

def uint64 : CursorRead Nat := field (integer 8)

/-- A skipped block. -/
def block (size : Nat) : CursorRead Bytes := field (take size)

def string : CursorRead Bytes := field do take (← integer 4)

/-- A field behind a flag. -/
def optional (flag : Bool) (read : CursorRead α) : CursorRead (Option α) :=
  if flag then do return some (← read) else pure none

/-- The pairs of an extended attribute block. -/
def skipPairs : Nat → CursorRead Unit
  | 0 => pure ()
  | count + 1 => do
    let _ ← string
    let _ ← string
    skipPairs count

def attributes : CursorRead Attributes := do
  let flags ← uint32
  let size ← optional (flags.testBit 0) uint64
  let _ ← optional (flags.testBit 1) (block 8)
  let mode ← optional (flags.testBit 2) uint32
  let _ ← optional (flags.testBit 3) (block 8)
  let _ ← optional (flags.testBit 31) do skipPairs (← uint32)
  return { size, mode }

/-- The loop of `_names`. -/
def entries : Nat → CursorRead (List RawEntry)
  | 0 => pure []
  | count + 1 => do
    let raw ← string
    let _ ← string
    let attributes ← attributes
    let rest ← entries count
    return (addressableName raw, attributes) :: rest

/-- The entries of a page that says it has `count`. -/
def someEntries (count : Nat) : CursorRead (List RawEntry) :=
  if count = 0 then raise (.status sftpBadMessage) else entries count

/-- `_names`, of a `_Reader`. -/
def names : CursorRead (List RawEntry) := do
  let count ← uint32
  someEntries count

/-! ### What a field read costs -/

/-- What the payload still holds. -/
def rest (c : Cursor) : Bytes := c.payload.drop c.offset

/-- No slice passes the end of the payload. -/
structure Inside (c : Cursor) : Prop where
  offset : c.offset ≤ c.payload.length
  slices : ∀ slice ∈ c.slices, slice.2 ≤ c.payload.length

/-- Every field so far was paid for with 4 bytes. -/
structure Within (c : Cursor) : Prop extends Inside c where
  paid : 4 * c.fields ≤ c.offset

/-- Every field but one was. -/
structure Stopped (c : Cursor) : Prop where
  slices : ∀ slice ∈ c.slices, slice.2 ≤ c.payload.length
  fields : c.fields ≤ c.payload.length / 4 + 1

theorem Within.stopped {c : Cursor} (within : c.Within) : c.Stopped := by
  have offset := within.offset
  have paid := within.paid
  exact ⟨within.slices, by omega⟩

/-- The slices of `read` are what `reader` parses, and take at least `least` bytes. -/
def Slices (read : CursorRead α) (reader : Reader α) (least : Nat) : Prop :=
  ∀ c, c.Inside →
    (∃ a c', read c = (.ok a, c') ∧ reader c.rest = .ok (a, c'.rest) ∧ c'.Inside ∧
      c'.payload = c.payload ∧ c'.fields = c.fields ∧ c.offset + least ≤ c'.offset) ∨
    ∃ e c', read c = (.error e, c') ∧ reader c.rest = .error e ∧ c'.Inside ∧
      c'.payload = c.payload ∧ c'.fields = c.fields

/-- The fields of `read` are what `reader` parses, and all but the one that fails
are paid for. -/
def Tracks (read : CursorRead α) (reader : Reader α) : Prop :=
  ∀ c, c.Within →
    (∃ a c', read c = (.ok a, c') ∧ reader c.rest = .ok (a, c'.rest) ∧ c'.Within ∧
      c'.payload = c.payload) ∨
    ∃ e c', read c = (.error e, c') ∧ reader c.rest = .error e ∧ c'.Stopped ∧
      c'.payload = c.payload

theorem bind_ok {read : CursorRead α} {f : α → CursorRead β} {c c' : Cursor} {a : α}
    (first : read c = (.ok a, c')) : (read >>= f) c = f a c' := by
  change (match read c with | (.ok a, c) => f a c | (.error e, c) => (.error e, c)) = _
  rw [first]

theorem bind_error {read : CursorRead α} {f : α → CursorRead β} {c c' : Cursor} {e : Exc}
    (first : read c = (.error e, c')) : (read >>= f) c = (.error e, c') := by
  change (match read c with | (.ok a, c) => f a c | (.error e, c) => (.error e, c)) = _
  rw [first]

end Cursor

theorem Reader.bind_error {α β : Type} {reader : Reader α} {f : α → Reader β} {payload : Bytes}
    {e : Exc} (first : reader payload = .error e) : (reader >>= f) payload = .error e := by
  change (reader payload >>= fun p => f p.1 p.2) = _
  rw [first]
  rfl

namespace Cursor

variable {α β : Type}

theorem slices_take (size : Nat) : Slices (take size) (Reader.take size) size := by
  intro c inside
  have offset := inside.offset
  have length : c.rest.length = c.payload.length - c.offset := List.length_drop
  by_cases past : c.payload.length < c.offset + size
  · right
    refine ⟨_, c, if_pos past, if_pos ?_, inside, rfl, rfl⟩
    omega
  · left
    refine ⟨_, _, if_neg past, ?_, ⟨Nat.le_of_not_lt past, ?_⟩, rfl, rfl, Nat.le_refl _⟩
    · have same : (c.payload.take (c.offset + size)).drop c.offset = c.rest.take size := by
        rw [List.drop_take, Nat.add_sub_cancel_left]
        rfl
      have left : c.payload.drop (c.offset + size) = c.rest.drop size := by
        rw [rest, List.drop_drop]
      rw [same]
      unfold Reader.take
      rw [if_neg (by omega)]
      exact congrArg (fun left => Except.ok (c.rest.take size, left)) left.symm
    · intro slice member
      rcases List.mem_append.mp member with old | new
      · exact inside.slices slice old
      · rw [List.mem_singleton.mp new]
        exact Nat.le_of_not_lt past

theorem Slices.bind {read : CursorRead α} {reader : Reader α} {f : α → CursorRead β}
    {g : α → Reader β} {least : Nat} (first : Slices read reader least)
    (next : ∀ a, Slices (f a) (g a) 0) : Slices (read >>= f) (reader >>= g) least := by
  intro c inside
  rcases first c inside with ⟨a, c₁, ran, parsed, inside₁, payload₁, fields₁, spent⟩ |
    ⟨e, c₁, ran, parsed, inside₁, payload₁, fields₁⟩
  · rw [bind_ok ran, Reader.bind_ok parsed]
    rcases next a c₁ inside₁ with ⟨b, c₂, ran₂, parsed₂, inside₂, payload₂, fields₂, on⟩ |
      ⟨e, c₂, ran₂, parsed₂, inside₂, payload₂, fields₂⟩
    · exact .inl ⟨b, c₂, ran₂, parsed₂, inside₂, payload₂.trans payload₁,
        fields₂.trans fields₁, spent.trans on⟩
    · exact .inr ⟨e, c₂, ran₂, parsed₂, inside₂, payload₂.trans payload₁,
        fields₂.trans fields₁⟩
  · exact .inr ⟨e, c₁, bind_error ran, Reader.bind_error parsed, inside₁, payload₁, fields₁⟩

theorem slices_pure (a : α) : Slices (pure a) (pure a) 0 :=
  fun c inside => .inl ⟨a, c, rfl, rfl, inside, rfl, rfl, Nat.le_refl _⟩

theorem Slices.weaken {read : CursorRead α} {reader : Reader α} {least less : Nat}
    (h : Slices read reader least) (weaker : less ≤ least) : Slices read reader less := by
  intro c inside
  rcases h c inside with ⟨a, c', ran, parsed, inside', payload, fields, spent⟩ | failed
  · exact .inl ⟨a, c', ran, parsed, inside', payload, fields, by omega⟩
  · exact .inr failed

theorem slices_integer (size : Nat) : Slices (integer size)
    (do return fromBigEndian (← Reader.take size)) size :=
  (slices_take size).bind fun _ => slices_pure _

/-- A field of at least 4 bytes pays for itself. -/
theorem Slices.tracks {read : CursorRead α} {reader : Reader α} (h : Slices read reader 4) :
    Tracks (field read) reader := by
  intro c within
  have offset := within.offset
  have paid := within.paid
  rcases h { c with fields := c.fields + 1 } ⟨within.offset, within.slices⟩ with
    ⟨a, c', ran, parsed, inside, payload, fields, spent⟩ |
    ⟨e, c', ran, parsed, inside, payload, fields⟩
  · have more : c'.fields = c.fields + 1 := fields
    have on : c.offset + 4 ≤ c'.offset := spent
    exact .inl ⟨a, c', ran, parsed, { toInside := inside, paid := by omega }, payload⟩
  · have more : c'.fields = c.fields + 1 := fields
    have same : c'.payload.length = c.payload.length := congrArg List.length payload
    exact .inr ⟨e, c', ran, parsed, ⟨inside.slices, by omega⟩, payload⟩

/-! ### The rules, and `_names` -/

theorem tracks_pure (a : α) : Tracks (pure a) (pure a) :=
  fun c within => .inl ⟨a, c, rfl, rfl, within, rfl⟩

theorem Tracks.bind {read : CursorRead α} {reader : Reader α} {f : α → CursorRead β}
    {g : α → Reader β} (first : Tracks read reader) (next : ∀ a, Tracks (f a) (g a)) :
    Tracks (read >>= f) (reader >>= g) := by
  intro c within
  rcases first c within with ⟨a, c₁, ran, parsed, within₁, payload₁⟩ |
    ⟨e, c₁, ran, parsed, stopped, payload₁⟩
  · rw [bind_ok ran, Reader.bind_ok parsed]
    rcases next a c₁ within₁ with ⟨b, c₂, ran₂, parsed₂, within₂, payload₂⟩ |
      ⟨e, c₂, ran₂, parsed₂, stopped, payload₂⟩
    · exact .inl ⟨b, c₂, ran₂, parsed₂, within₂, payload₂.trans payload₁⟩
    · exact .inr ⟨e, c₂, ran₂, parsed₂, stopped, payload₂.trans payload₁⟩
  · exact .inr ⟨e, c₁, bind_error ran, Reader.bind_error parsed, stopped, payload₁⟩

theorem Tracks.optional {read : CursorRead α} {reader : Reader α} (h : Tracks read reader)
    (flag : Bool) : Tracks (optional flag read) (Reader.optional flag reader) := by
  cases flag with
  | false => exact tracks_pure none
  | true => exact h.bind fun a => tracks_pure (some a)

theorem tracks_uint32 : Tracks uint32 Reader.uint32 := (slices_integer 4).tracks

theorem tracks_uint64 : Tracks uint64 Reader.uint64 :=
  ((slices_integer 8).weaken (by decide)).tracks

theorem tracks_block : Tracks (block 8) (Reader.take 8) :=
  ((slices_take 8).weaken (by decide)).tracks

theorem tracks_string : Tracks string Reader.string :=
  ((slices_integer 4).bind fun size => (slices_take size).weaken (Nat.zero_le _)).tracks

theorem tracks_skipPairs (count : Nat) : Tracks (skipPairs count) (Reader.skipPairs count) := by
  induction count with
  | zero => exact tracks_pure ()
  | succ count ih => exact tracks_string.bind fun _ => tracks_string.bind fun _ => ih

theorem tracks_attributes : Tracks attributes Reader.attributes := by
  rw [Reader.attributes_eq]
  refine tracks_uint32.bind fun flags => ?_
  refine (tracks_uint64.optional _).bind fun size => ?_
  refine (tracks_block.optional _).bind fun _ => ?_
  refine (tracks_uint32.optional _).bind fun mode => ?_
  refine (tracks_block.optional _).bind fun _ => ?_
  refine ((tracks_uint32.bind tracks_skipPairs).optional _).bind fun _ => ?_
  exact tracks_pure _

theorem tracks_entries (count : Nat) : Tracks (entries count) (Reader.entries count) := by
  induction count with
  | zero => exact tracks_pure []
  | succ count ih =>
    refine tracks_string.bind fun raw => tracks_string.bind fun _ => ?_
    exact tracks_attributes.bind fun attributes => ih.bind fun rest => tracks_pure _

theorem tracks_names : Tracks names Reader.names := by
  refine tracks_uint32.bind fun count => ?_
  by_cases none : count = 0
  · subst none
    exact fun c within => .inr ⟨_, c, rfl, rfl, within.stopped, rfl⟩
  · rw [someEntries, Reader.someEntries, if_neg none, if_neg none]
    exact tracks_entries count

end Cursor

/-! ## The codec -/

/-- A payload begins with the encoding of the count it claims. -/
def BeginsWithPage (payload : Bytes) : Prop :=
  ∃ (page : WirePage) (rest : Bytes), payload = page.payload ++ rest

/-- `_names` undoes the encoding of every page, whatever comes after it, and
refuses every payload that does not begin with one. Its reads stay inside the
payload, and there are few of them whatever the payload claims. -/
theorem names_codec :
    (∀ (page : WirePage) (rest : Bytes), ∃ c,
      Cursor.names (.start (page.payload ++ rest)) = (.ok (page.entries.map WireEntry.read), c) ∧
      c.rest = rest) ∧
    (∀ payload, ¬ BeginsWithPage payload →
      (Cursor.names (.start payload)).1 = .error (.status sftpBadMessage)) ∧
    (∀ payload,
      (∀ slice ∈ (Cursor.names (.start payload)).2.slices, slice.2 ≤ payload.length) ∧
      (Cursor.names (.start payload)).2.fields ≤ payload.length / 4 + 1) ∧
    ∀ payload, (Cursor.names (.start payload)).1 = Reader.parse Reader.names payload := by
  have within : ∀ payload, (Cursor.start payload).Within := fun payload =>
    { offset := Nat.zero_le _
      slices := fun _ none => (List.not_mem_nil none).elim
      paid := Nat.le_refl _ }
  refine ⟨fun page rest => ?_, fun payload foreign => ?_, fun payload => ?_, fun payload => ?_⟩
  · have accepted : Reader.names (page.payload ++ rest) = _ :=
      (Reader.codes_names _ _ _).mpr ⟨page, rfl, rfl⟩
    rcases Cursor.tracks_names _ (within (page.payload ++ rest)) with
      ⟨raw, c, ran, parsed, -, -⟩ | ⟨e, c, ran, parsed, -, -⟩
    · cases accepted.symm.trans parsed
      exact ⟨c, ran, rfl⟩
    · cases accepted.symm.trans parsed
  · rcases Cursor.tracks_names _ (within payload) with
      ⟨raw, c, ran, parsed, -, -⟩ | ⟨e, c, ran, parsed, -, -⟩
    · obtain ⟨page, -, split⟩ := (Reader.codes_names _ _ _).mp parsed
      exact absurd ⟨page, c.rest, split⟩ foreign
    · rw [ran, Reader.strict_names _ _ parsed]
  · rcases Cursor.tracks_names _ (within payload) with
      ⟨raw, c, ran, -, left, same⟩ | ⟨e, c, ran, -, stopped, same⟩
    · have same : c.payload = payload := same
      rw [ran, ← same]
      exact ⟨left.stopped.slices, left.stopped.fields⟩
    · have same : c.payload = payload := same
      rw [ran, ← same]
      exact ⟨stopped.slices, stopped.fields⟩
  · rcases Cursor.tracks_names _ (within payload) with
      ⟨raw, c, ran, parsed, -, -⟩ | ⟨e, c, ran, parsed, -, -⟩
    · rw [ran, Reader.parse]
      exact congrArg (Except.map (·.1)) parsed.symm
    · rw [ran, Reader.parse]
      exact congrArg (Except.map (·.1)) parsed.symm

/-- A page that claims two entries and ends. -/
def inflatedPage : Bytes := bigEndian 4 2

theorem names_codec_inflated :
    ¬ BeginsWithPage inflatedPage ∧
    (Cursor.names (.start inflatedPage)).1 = .error (.status sftpBadMessage) := by
  have foreign : ¬ BeginsWithPage inflatedPage := by
    rintro ⟨page, rest, split⟩
    have accepted := (Reader.codes_names inflatedPage _ _).mpr ⟨page, rfl, split⟩
    have refused : Reader.names (bigEndian 4 2 ++ []) = .error (.status sftpBadMessage) :=
      Reader.bind_ok (Reader.uint32_append (by decide))
    cases refused.symm.trans accepted
  exact ⟨foreign, names_codec.2.1 inflatedPage foreign⟩

end DataBridge
