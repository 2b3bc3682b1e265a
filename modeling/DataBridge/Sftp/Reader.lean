import DataBridge.Errors

/-!
# SFTP replies and their fields

The status codes and reply types of the protocol, and `_Reader`: the fields of
one reply, read in order. A field that would pass the end of the payload is a
protocol error. The encoders at the end state what a well-formed reply is.
-/

namespace DataBridge

/-- The SFTP status codes. -/
def sftpOk : Nat := 0
def sftpEof : Nat := 1
def sftpNoSuchFile : Nat := 2
def sftpPermissionDenied : Nat := 3
def sftpFailure : Nat := 4
def sftpBadMessage : Nat := 5
def sftpNoConnection : Nat := 6
def sftpConnectionLost : Nat := 7
def sftpOpUnsupported : Nat := 8

/-- The packet types of replies. -/
inductive ReplyKind
  | status | handle | data | name | attrs
  | other (number : Nat)
  deriving DecidableEq, Repr

/-- One reply, without its request number. -/
structure Reply where
  kind : ReplyKind
  payload : Bytes
  deriving DecidableEq

/-- `MAX_REPLY`. -/
def maxReply : Nat := 262144

/-- `_Attributes`. -/
structure Attributes where
  size : Option Nat
  mode : Option Nat
  deriving DecidableEq, Repr

/-- `_Reader`, as a parser of the rest of a payload. -/
abbrev Reader (α : Type) : Type := StateT Bytes (Except Exc) α

/-- `int.from_bytes(_, "big")`. -/
def fromBigEndian (bytes : Bytes) : Nat := bytes.foldl (fun n b => n * 256 + b.toNat) 0

namespace Reader

/-- `_take`. -/
def take (size : Nat) : Reader Bytes := fun payload =>
  if payload.length < size then .error (.status sftpBadMessage)
  else .ok (payload.take size, payload.drop size)

def uint32 : Reader Nat := do return fromBigEndian (← take 4)

def uint64 : Reader Nat := do return fromBigEndian (← take 8)

def string : Reader Bytes := do take (← uint32)

/-- The pairs of an extended attribute block. -/
def skipPairs : Nat → Reader Unit
  | 0 => pure ()
  | count + 1 => do
    let _ ← string
    let _ ← string
    skipPairs count

def attributes : Reader Attributes := do
  let flags ← uint32
  let size ← if flags.testBit 0 then some <$> uint64 else pure none
  if flags.testBit 1 then let _ ← take 8
  let mode ← if flags.testBit 2 then some <$> uint32 else pure none
  if flags.testBit 3 then let _ ← take 8
  if flags.testBit 31 then skipPairs (← uint32)
  return { size, mode }

/-- Read one reply; what is left of it is not looked at. -/
def parse {α : Type} (reader : Reader α) (payload : Bytes) : Except Exc α :=
  (reader payload).map (·.1)

end Reader

/-! ## Every failed read is a protocol error -/

namespace Reader

variable {α β : Type}

/-- A field that is not there is the only failure. -/
def Strict (reader : Reader α) : Prop :=
  ∀ payload e, reader payload = .error e → e = .status sftpBadMessage

theorem strict_pure (a : α) : Strict (pure a : Reader α) := by
  intro payload e failed
  cases failed

theorem Strict.bind {reader : Reader α} {f : α → Reader β} (first : Strict reader)
    (next : ∀ a, Strict (f a)) : Strict (reader >>= f) := by
  intro payload e failed
  change (reader payload >>= fun p => f p.1 p.2) = _ at failed
  cases read : reader payload with
  | error e' =>
    rw [read] at failed
    cases failed
    exact first _ _ read
  | ok p =>
    rw [read] at failed
    exact next _ _ _ failed

theorem Strict.map {reader : Reader α} (g : α → β) (first : Strict reader) :
    Strict (g <$> reader) :=
  first.bind fun a => strict_pure (g a)

theorem strict_take (size : Nat) : Strict (take size) := by
  intro payload e failed
  unfold take at failed
  split at failed
  · exact (Except.error.inj failed).symm
  · cases failed

theorem strict_uint32 : Strict uint32 := (strict_take 4).bind fun _ => strict_pure _

theorem strict_uint64 : Strict uint64 := (strict_take 8).bind fun _ => strict_pure _

theorem strict_string : Strict string := strict_uint32.bind strict_take

theorem strict_skipPairs (count : Nat) : Strict (skipPairs count) := by
  induction count with
  | zero => exact strict_pure ()
  | succ count ih => exact strict_string.bind fun _ => strict_string.bind fun _ => ih

/-- A field behind a flag. -/
theorem Strict.ite {flag : Prop} [Decidable flag] {reader other : Reader α} (h : Strict reader)
    (h' : Strict other) : Strict (if flag then reader else other) := by
  split
  · exact h
  · exact h'

theorem strict_attributes : Strict attributes := by
  refine strict_uint32.bind fun flags => ?_
  have mode : ∀ size, Strict (do
      let mode ← if flags.testBit 2 then some <$> uint32 else pure none
      if flags.testBit 3 then let _ ← take 8
      if flags.testBit 31 then skipPairs (← uint32)
      return ({ size, mode } : Attributes)) := by
    intro size
    have rest : ∀ mode, Strict (do
        if flags.testBit 3 then let _ ← take 8
        if flags.testBit 31 then skipPairs (← uint32)
        return ({ size, mode } : Attributes)) := by
      intro mode
      have last : Strict (do
          if flags.testBit 31 then skipPairs (← uint32)
          return ({ size, mode } : Attributes)) :=
        .ite (strict_uint32.bind fun count => (strict_skipPairs count).bind fun _ => strict_pure _)
          (strict_pure _)
      exact .ite ((strict_take 8).bind fun _ => last) last
    exact .ite ((strict_uint32.map some).bind rest) ((strict_pure none).bind rest)
  have owner : ∀ size, Strict (do
      if flags.testBit 1 then let _ ← take 8
      let mode ← if flags.testBit 2 then some <$> uint32 else pure none
      if flags.testBit 3 then let _ ← take 8
      if flags.testBit 31 then skipPairs (← uint32)
      return ({ size, mode } : Attributes)) := by
    intro size
    exact .ite ((strict_take 8).bind fun _ => mode size) (mode size)
  exact .ite ((strict_uint64.map some).bind owner) ((strict_pure none).bind owner)

theorem Strict.parse {reader : Reader α} (h : Strict reader) {payload : Bytes} {e : Exc}
    (failed : Reader.parse reader payload = .error e) : e = .status sftpBadMessage := by
  unfold Reader.parse at failed
  cases read : reader payload with
  | error e' =>
    rw [read] at failed
    cases failed
    exact h _ _ read
  | ok p =>
    rw [read] at failed
    cases failed

end Reader

/-! ## Well-formed fields -/

/-- The last `size` base-256 digits of a number. -/
def bigEndian : Nat → Nat → Bytes
  | 0, _ => []
  | size + 1, n => bigEndian size (n / 256) ++ [UInt8.ofNat (n % 256)]

@[simp] theorem length_bigEndian (size n : Nat) : (bigEndian size n).length = size := by
  induction size generalizing n with
  | zero => rfl
  | succ size ih => rw [bigEndian, List.length_append, ih, List.length_singleton]

theorem fromBigEndian_bigEndian {size n : Nat} (fits : n < 256 ^ size) :
    fromBigEndian (bigEndian size n) = n := by
  induction size generalizing n with
  | zero =>
    rw [Nat.pow_zero, Nat.lt_one_iff] at fits
    subst fits
    rfl
  | succ size ih =>
    have high : n / 256 < 256 ^ size := by
      rw [Nat.pow_succ] at fits
      exact Nat.div_lt_of_lt_mul (by omega)
    have unfolded : fromBigEndian (bigEndian (size + 1) n) =
        fromBigEndian (bigEndian size (n / 256)) * 256 + (UInt8.ofNat (n % 256)).toNat := by
      simp [fromBigEndian, bigEndian]
    rw [unfolded, ih high]
    simp
    omega

/-- A `string` field. -/
def stringField (text : Bytes) : Bytes := bigEndian 4 text.length ++ text

theorem Reader.take_append {field rest : Bytes} {size : Nat} (length : field.length = size) :
    Reader.take size (field ++ rest) = .ok (field, rest) := by
  subst length
  simp [Reader.take]

theorem Reader.uint32_append {n : Nat} {rest : Bytes} (fits : n < 2 ^ 32) :
    Reader.uint32 (bigEndian 4 n ++ rest) = .ok (n, rest) := by
  change (do let (b, s) ← Reader.take 4 (bigEndian 4 n ++ rest); pure (fromBigEndian b, s)) = _
  rw [Reader.take_append (length_bigEndian 4 n)]
  exact congrArg (fun m => Except.ok (m, rest)) (fromBigEndian_bigEndian (by omega))

theorem Reader.string_append {text rest : Bytes} (fits : text.length < 2 ^ 32) :
    Reader.string (stringField text ++ rest) = .ok (text, rest) := by
  change (do
    let (n, s) ← Reader.uint32 (stringField text ++ rest)
    Reader.take n s) = _
  rw [stringField, List.append_assoc, Reader.uint32_append fits]
  exact Reader.take_append rfl

/-- An attribute block with the fields of `_Attributes`. -/
def attributesField (a : Attributes) : Bytes :=
  bigEndian 4 ((if a.size.isSome then 1 else 0) + if a.mode.isSome then 4 else 0) ++
    (a.size.elim [] (bigEndian 8) ++ a.mode.elim [] (bigEndian 4))

theorem attributesField_le (a : Attributes) :
    (attributesField a).length + 4 ≤ maxReply := by
  have small : 20 ≤ maxReply := by decide
  obtain ⟨_ | n, _ | m⟩ := a <;> simp [attributesField] <;> omega

theorem Reader.uint64_append {n : Nat} {rest : Bytes} (fits : n < 2 ^ 64) :
    Reader.uint64 (bigEndian 8 n ++ rest) = .ok (n, rest) := by
  change (do let (b, s) ← Reader.take 8 (bigEndian 8 n ++ rest); pure (fromBigEndian b, s)) = _
  rw [Reader.take_append (length_bigEndian 8 n)]
  exact congrArg (fun m => Except.ok (m, rest)) (fromBigEndian_bigEndian (by omega))

theorem Reader.bind_ok {α β : Type} {reader : Reader α} {f : α → Reader β} {payload rest : Bytes}
    {a : α} (h : reader payload = .ok (a, rest)) : (reader >>= f) payload = f a rest := by
  change (reader payload >>= fun p => f p.1 p.2) = _
  rw [h]
  rfl

/-- What is read by two readers in order. -/
theorem Reader.ok_of_bind {α β : Type} {reader : Reader α} {f : α → Reader β} {payload : Bytes}
    {p : β × Bytes} (read : (reader >>= f) payload = .ok p) :
    ∃ a rest, reader payload = .ok (a, rest) ∧ f a rest = .ok p := by
  change (reader payload >>= fun q => f q.1 q.2) = _ at read
  cases first : reader payload with
  | error e =>
    rw [first] at read
    cases read
  | ok q =>
    rw [first] at read
    exact ⟨q.1, q.2, rfl, read⟩

theorem Reader.map_ok {α β : Type} {reader : Reader α} {g : α → β} {payload rest : Bytes}
    {a : α} (h : reader payload = .ok (a, rest)) : (g <$> reader) payload = .ok (g a, rest) := by
  change (reader payload >>= fun p => pure (g p.1, p.2)) = _
  rw [h]
  rfl

/-- An attribute block reads back as its fields. -/
theorem Reader.parse_attributesField {a : Attributes} (size : ∀ n ∈ a.size, n < 2 ^ 64)
    (mode : ∀ n ∈ a.mode, n < 2 ^ 32) :
    Reader.parse Reader.attributes (attributesField a) = .ok a := by
  suffices parsed : Reader.attributes (attributesField a) = .ok (a, []) by
    rw [Reader.parse, parsed]
    rfl
  -- The flags are known in each case, so only the fields they name are read.
  obtain ⟨_ | n, _ | m⟩ := a
  · exact (Reader.bind_ok (Reader.uint32_append (n := 0) (by decide))).trans rfl
  · have mode : Reader.uint32 (bigEndian 4 m ++ []) = .ok (m, []) :=
      Reader.uint32_append (mode m rfl)
    rw [List.append_nil] at mode
    refine (Reader.bind_ok (Reader.uint32_append (n := 4) (by decide))).trans ?_
    exact (Reader.bind_ok (f := fun mode => (pure { size := none, mode } : Reader Attributes))
      (Reader.map_ok (g := some) mode)).trans rfl
  · have size : Reader.uint64 (bigEndian 8 n ++ []) = .ok (n, []) :=
      Reader.uint64_append (size n rfl)
    refine (Reader.bind_ok (Reader.uint32_append (n := 1) (by decide))).trans ?_
    exact (Reader.bind_ok (f := fun size => (pure { size, mode := none } : Reader Attributes))
      (Reader.map_ok (g := some) size)).trans rfl
  · have size : Reader.uint64 (bigEndian 8 n ++ bigEndian 4 m) = .ok (n, bigEndian 4 m) :=
      Reader.uint64_append (size n rfl)
    have mode : Reader.uint32 (bigEndian 4 m ++ []) = .ok (m, []) :=
      Reader.uint32_append (mode m rfl)
    rw [List.append_nil] at mode
    refine (Reader.bind_ok (Reader.uint32_append (n := 5) (by decide))).trans ?_
    refine (Reader.bind_ok (f := fun size => (some <$> Reader.uint32) >>= fun mode =>
      (pure { size, mode } : Reader Attributes)) (Reader.map_ok (g := some) size)).trans ?_
    exact (Reader.bind_ok (f := fun mode => (pure { size := some n, mode } : Reader Attributes))
      (Reader.map_ok (g := some) mode)).trans rfl

end DataBridge
