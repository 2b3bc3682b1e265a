import DataBridge.Dict
import DataBridge.Hosts.HostName
import DataBridge.Json.Loads
import DataBridge.Models

/-!
# Validation of connections

The input models and the views of `models.py`, as `model_validate` builds them from a
`dict`. A connection that was accepted is `Valid`, and the fields of a connection are
accepted, and give the same connection, exactly when it is valid
(`validateInput_fields`). A view of the public fields is always built
(`validateView_public`).
-/

namespace DataBridge

open Json

/-! ## Fields -/

/-- A `dict` with the fields of a model. -/
abbrev Fields (Φ : Type) : Type := Dict Text (Value (JsonNumber Φ))

/-- pydantic's conversion to `int`; it leaves an `int` alone. -/
structure LaxInt (Φ : Type) where
  read : Value (JsonNumber Φ) → Option Int
  read_int : ∀ n, read (.number (.int n)) = some n

/-- `[A-Za-z]` -/
def isLetter (c : CodePoint) : Bool :=
  (0x41 ≤ c.val && c.val ≤ 0x5A) || (0x61 ≤ c.val && c.val ≤ 0x7A)

/-- `[A-Za-z0-9_-]` -/
def isNameChar (c : CodePoint) : Bool :=
  isLetter c || (0x30 ≤ c.val && c.val ≤ 0x39) || c = .ofChar '_' || c = .ofChar '-'

/-- The pattern of `ConnectionName`. -/
def isConnectionName : Text → Bool
  | [] => false
  | c :: rest => isLetter c && rest.length ≤ 63 && rest.all isNameChar

def connectionName (value : Text) : Except Text Text :=
  if isConnectionName value then .ok value
  else .error (lit "String should match pattern '^[A-Za-z][A-Za-z0-9_-]\x7b0,63\x7d$'")

/-- `unicodedata.category(character) == "Cc"`. -/
def isControl (c : CodePoint) : Bool := c.val ≤ 0x1F || (0x7F ≤ c.val && c.val ≤ 0x9F)

/-- `_plain_text`. -/
def plainText (value : Text) : Except Text Text :=
  if value.any isControl then .error (lit "must not contain control characters")
  else if value.encodable then .ok value
  else .error (lit "must be valid Unicode text")

/-- `MAX_SETTING_LENGTH`. -/
def maxSettingLength : Nat := 4096

/-- `SettingText`: the length limits, then `_plain_text`. -/
def settingText (value : Text) : Except Text Text :=
  if value.length < 1 then .error (lit "String should have at least 1 character")
  else if maxSettingLength < value.length then
    .error (lit "String should have at most 4096 characters")
  else plainText value

/-- `_encodable_secret`. -/
def encodableSecret (value : Text) : Except Text Text :=
  if value.encodable then .ok value else .error (lit "must be valid Unicode text")

/-- `Secret` with `min_length=1`. -/
def secret (value : Text) : Except Text Text :=
  if value.length < 1 then
    .error (lit "Value should have at least 1 item after validation, not 0")
  else encodableSecret value

/-- `port: int = Field(gt=0, le=65535)`. -/
def port (n : Int) : Option Nat := if 0 < n ∧ n ≤ 65535 then some n.toNat else none

section Values

variable {Φ : Type}

/-- A field that is a text and passes its check. -/
def checked (check : Text → Except Text Text) : Value (JsonNumber Φ) → Option Text
  | .string text => (check text).toOption
  | _ => none

/-- `str` without constraints. -/
def anyText : Text → Except Text Text := .ok

/-- `Literal[kind]`. -/
def literal (kind : Text) (value : Text) : Except Text Text :=
  if value = kind then .ok value else .error (lit "Input should be '" ++ kind ++ lit "'")

/-- `AliasChoices`: the first name that is there. -/
def aliasChoices (names : List Text) (fields : Fields Φ) : Option (Text × Value (JsonNumber Φ)) :=
  names.findSome? fun name => (Dict.get? name fields).map (name, ·)

/-- `extra="forbid"`. -/
def noExtra (names : List Text) (fields : Fields Φ) : Bool := fields.all fun field => field.1 ∈ names

end Values

/-! ## Models -/

/-- The keys of `CONNECTION_MODELS`. -/
inductive ConnectionType
  | local | sftp
  deriving DecidableEq, Repr

def ConnectionType.text : ConnectionType → Text
  | .local => lit "local"
  | .sftp => lit "sftp"

structure LocalConnectionView where
  name : Text
  path : Text
  deriving DecidableEq, Repr

structure SFTPConnectionView where
  name : Text
  host : Text
  port : Int
  username : Text
  root : Text
  deriving DecidableEq, Repr

inductive ConnectionView
  | local (view : LocalConnectionView)
  | sftp (view : SFTPConnectionView)
  deriving DecidableEq, Repr

/-- `_connection_models`. -/
def connectionModels (kind : Text) : Except Exc ConnectionType :=
  if kind = lit "local" then .ok .local
  else if kind = lit "sftp" then .ok .sftp
  else .error .runtimeError

namespace Connection

def name : Connection → Text
  | .local c => c.name
  | .sftp c => c.name

/-- The type, as the input and the row name it. -/
def kind : Connection → ConnectionType
  | .local _ => .local
  | .sftp _ => .sftp

/-- What callers may see of a connection. -/
def view : Connection → ConnectionView
  | .local c => .local { name := c.name, path := c.path }
  | .sftp c => .sftp { name := c.name, host := c.host, port := c.port, username := c.username, root := c.root }

/-- The fields that are no secrets, without `name` and `type`. -/
def settings {Φ : Type} : Connection → Fields Φ
  | .local c => [(lit "path", .string c.path)]
  | .sftp c =>
    [(lit "host", .string c.host), (lit "port", .number (.int c.port)),
      (lit "username", .string c.username), (lit "root", .string c.root)]

/-- The fields with the annotation `SecretStr`. -/
def secrets {Φ : Type} : Connection → Fields Φ
  | .local _ => []
  | .sftp c => [(lit "password", .string c.password)]

/-- `name` and `type`. -/
def head {Φ : Type} (c : Connection) : Fields Φ :=
  [(lit "name", .string c.name), (lit "type", .string c.kind.text)]

/-- What every field of a stored connection has to pass when it is read. -/
def Valid : Connection → Prop
  | .local c => connectionName c.name = .ok c.name ∧ settingText c.path = .ok c.path
  | .sftp c => connectionName c.name = .ok c.name ∧ hostName c.host = .ok c.host ∧
      (0 < c.port ∧ c.port ≤ 65535) ∧ settingText c.username = .ok c.username ∧
      secret c.password = .ok c.password ∧ settingText c.root = .ok c.root

instance : (c : Connection) → Decidable c.Valid
  | .local _ => inferInstanceAs (Decidable (_ ∧ _))
  | .sftp _ => inferInstanceAs (Decidable (_ ∧ _ ∧ (_ ∧ _) ∧ _ ∧ _ ∧ _))

end Connection

section Validation

variable {Φ : Type} (int : LaxInt Φ)

/-- `LocalConnection.model_validate`; `none` is a `ValidationError`. -/
def validateLocal (fields : Fields Φ) : Option LocalConnection := do
  let name ← (Dict.get? (lit "name") fields).bind (checked connectionName)
  let _ ← (Dict.get? (lit "type") fields).bind (checked (literal (lit "local")))
  let path ← (Dict.get? (lit "path") fields).bind (checked settingText)
  if noExtra [lit "name", lit "type", lit "path"] fields then some { name, path } else none

/-- `SFTPConnection.model_validate`; `none` is a `ValidationError`. -/
def validateSFTP (fields : Fields Φ) : Option SFTPConnection := do
  let name ← (Dict.get? (lit "name") fields).bind (checked connectionName)
  let _ ← (Dict.get? (lit "type") fields).bind (checked (literal (lit "sftp")))
  let host ← (Dict.get? (lit "host") fields).bind (checked hostName)
  let port ← ((Dict.get? (lit "port") fields).bind int.read).bind port
  let (chosen, user) ← aliasChoices [lit "username", lit "user"] fields
  let username ← checked settingText user
  let password ← (Dict.get? (lit "password") fields).bind (checked secret)
  let root ← (Dict.get? (lit "root") fields).bind (checked settingText)
  if noExtra [lit "name", lit "type", lit "host", lit "port", chosen, lit "password", lit "root"] fields then
    some { name, host, port, username, password, root }
  else none

/-- `input_model.model_validate`. -/
def validateInput (kind : ConnectionType) (fields : Fields Φ) : Except Exc Connection :=
  match kind with
  | .local => ((validateLocal fields).map Connection.local).elim (.error .validation) .ok
  | .sftp => ((validateSFTP int fields).map Connection.sftp).elim (.error .validation) .ok

def validateLocalView (fields : Fields Φ) : Option LocalConnectionView := do
  let name ← (Dict.get? (lit "name") fields).bind (checked anyText)
  let _ ← (Dict.get? (lit "type") fields).bind (checked (literal (lit "local")))
  let path ← (Dict.get? (lit "path") fields).bind (checked anyText)
  some { name, path }

def validateSFTPView (fields : Fields Φ) : Option SFTPConnectionView := do
  let name ← (Dict.get? (lit "name") fields).bind (checked anyText)
  let _ ← (Dict.get? (lit "type") fields).bind (checked (literal (lit "sftp")))
  let host ← (Dict.get? (lit "host") fields).bind (checked anyText)
  let port ← (Dict.get? (lit "port") fields).bind int.read
  let username ← (Dict.get? (lit "username") fields).bind (checked anyText)
  let root ← (Dict.get? (lit "root") fields).bind (checked anyText)
  some { name, host, port, username, root }

/-- `view_model.model_validate`. -/
def validateView (kind : ConnectionType) (fields : Fields Φ) : Except Exc ConnectionView :=
  match kind with
  | .local => ((validateLocalView fields).map ConnectionView.local).elim (.error .validation) .ok
  | .sftp => ((validateSFTPView int fields).map ConnectionView.sftp).elim (.error .validation) .ok

end Validation

/-! ## What a check returns -/

theorem connectionName_ok {value name : Text} (accepted : connectionName value = .ok name) :
    connectionName name = .ok name := by
  have same := accepted
  unfold connectionName at same
  split at same
  · cases same
    exact accepted
  · cases same

theorem plainText_eq {value text : Text} (accepted : plainText value = .ok text) : value = text := by
  unfold plainText at accepted
  split_ifs at accepted
  cases accepted
  rfl

theorem settingText_eq {value text : Text} (accepted : settingText value = .ok text) :
    value = text := by
  unfold settingText at accepted
  split_ifs at accepted
  exact plainText_eq accepted

theorem settingText_ok {value text : Text} (accepted : settingText value = .ok text) :
    settingText text = .ok text := by
  rw [settingText_eq accepted] at accepted
  exact accepted

theorem secret_ok {value text : Text} (accepted : secret value = .ok text) :
    secret text = .ok text := by
  have same := accepted
  unfold secret encodableSecret at same
  split_ifs at same
  cases same
  exact accepted

theorem hostName_ok {value name : Text} (accepted : hostName value = .ok name) :
    hostName name = .ok name := by
  unfold hostName at accepted
  split_ifs at accepted
  exact hostName_of_host accepted

/-! ## Accepted text is Unicode -/

theorem plain_of_encodable {text : Text} (encodable : text.encodable = true) : text.Plain :=
  plain_of_isSome encodable

theorem not_isSurrogate_of_lt {c : CodePoint} (small : c.val < 0xD800) : c.isSurrogate = false := by
  rw [CodePoint.isSurrogate, Bool.and_eq_false_iff, decide_eq_false_iff_not]
  omega

/-- A key that is an ASCII literal. -/
theorem unjoined_key {key : Text} (ascii : (key.all fun c => decide (c.val < 0x80)) = true) :
    Unjoined key := by
  apply unjoined_of_plain
  intro c member
  have small := of_decide_eq_true (List.all_eq_true.mp ascii c member)
  exact not_isSurrogate_of_lt (by omega)

theorem small_of_isDigitOf {base : Nat} {c : CodePoint} (digit : isDigitOf base c = true) :
    c.val < 0xD800 := by
  unfold isDigitOf digitValue at digit
  split_ifs at digit
  · omega
  · omega
  · omega
  · cases digit

theorem small_of_isLowerLabelChar {c : CodePoint} (char : isLowerLabelChar c = true) :
    c.val < 0xD800 := by
  rcases isLowerLabelChar_iff.mp char with alnum | rfl
  · have values := isLowerAlnum_val.mp alnum
    omega
  · decide

/-- The characters of an address that has a zone with such characters, or none. -/
theorem small_of_mem_text {six : IPv6Address} (zones : ∀ zone ∈ six.scopeId, IsZone zone)
    {c : CodePoint} (member : c ∈ six.text) : c.val < 0xD800 := by
  have inAddress : c ∈ six.ipText → c.val < 0xD800 := by
    intro member
    rcases mem_joinText member with rfl | ⟨part, inParts, inPart⟩
    · decide
    · exact small_of_isDigitOf ((IPv6Address.mem_compress inParts).2 c inPart)
  unfold IPv6Address.text at member
  split at member
  · exact inAddress member
  · rename_i zone found
    split_ifs at member
    · exact inAddress member
    · rcases List.mem_append.mp member with member | member
      · exact inAddress member
      · rcases List.mem_cons.mp member with rfl | member
        · decide
        · rcases (zones zone found).2.2 c member with alnum | rfl | rfl | rfl
          · unfold IsAlnum at alnum
            omega
          · decide
          · decide
          · decide

/-- A host that was returned has no surrogates. -/
theorem plain_of_host {value name : Text} (returned : host value = .ok name) : name.Plain := by
  intro c member
  apply not_isSurrogate_of_lt
  unfold host at returned
  cases read : ipAddress value with
  | some address =>
    rw [read] at returned
    dsimp only at returned
    split_ifs at returned with foreign
    cases returned
    cases address with
    | v4 four =>
      rcases IPv4Address.mem_text member with rfl | digit
      · decide
      · exact small_of_isDigitOf digit
    | v6 six =>
      apply small_of_mem_text _ member
      intro zone found
      rw [IpAddress.scopeId, Option.mem_def.mp found, Option.any_some, Bool.not_eq_true',
        Bool.not_eq_false] at foreign
      exact scopeIdMatch_iff.mp foreign
  | none =>
    rw [read] at returned
    dsimp only at returned
    split_ifs at returned with refused
    cases returned
    rw [not_or, Decidable.not_not] at refused
    rcases mem_lower refused.2 member with char | rfl
    · exact small_of_isLowerLabelChar char
    · decide

theorem plain_of_hostName {value name : Text} (accepted : hostName value = .ok name) :
    name.Plain := by
  unfold hostName at accepted
  split_ifs at accepted
  exact plain_of_host accepted

theorem plain_of_plainText {value text : Text} (accepted : plainText value = .ok text) :
    text.Plain := by
  unfold plainText at accepted
  split_ifs at accepted with _ encodable
  cases accepted
  exact plain_of_encodable encodable

theorem plain_of_settingText {value text : Text} (accepted : settingText value = .ok text) :
    text.Plain := by
  unfold settingText at accepted
  split_ifs at accepted
  exact plain_of_plainText accepted

theorem plain_of_secret {value text : Text} (accepted : secret value = .ok text) : text.Plain := by
  unfold secret encodableSecret at accepted
  split_ifs at accepted with _ encodable
  cases accepted
  exact plain_of_encodable encodable

theorem small_of_isNameChar {c : CodePoint} (char : isNameChar c = true) : c.val < 0x80 := by
  simp only [isNameChar, isLetter, Bool.or_eq_true, Bool.and_eq_true, decide_eq_true_eq] at char
  rcases char with ((letter | digit) | rfl) | rfl
  · omega
  · omega
  · decide
  · decide

/-- A connection name is ASCII. -/
theorem small_of_connectionName {value name : Text} (accepted : connectionName value = .ok name)
    {c : CodePoint} (member : c ∈ name) : c.val < 0x80 := by
  unfold connectionName at accepted
  split_ifs at accepted with named
  cases accepted
  cases value with
  | nil => cases named
  | cons first rest =>
    simp only [isConnectionName, Bool.and_eq_true, List.all_eq_true] at named
    rcases List.mem_cons.mp member with rfl | member
    · apply small_of_isNameChar
      simp [isNameChar, named.1.1]
    · exact small_of_isNameChar (named.2 c member)

section Checks

variable {Φ : Type} {check : Text → Except Text Text}

/-- A field that passed its check is a text that the check returned. -/
theorem checked_eq_some {value : Value (JsonNumber Φ)} {text : Text}
    (passed : checked check value = some text) :
    ∃ given, value = .string given ∧ check given = .ok text := by
  cases value with
  | string given =>
    refine ⟨given, rfl, ?_⟩
    cases result : check given with
    | ok returned =>
      rw [checked, result] at passed
      cases passed
      rfl
    | error e =>
      rw [checked, result] at passed
      cases passed
  | null | bool _ | number _ | array _ | object _ => cases passed

theorem checked_string {text returned : Text} (passed : check text = .ok returned) :
    checked (Φ := Φ) check (.string text) = some returned := by
  rw [checked, passed]
  rfl

/-- A field that is there and passes its check, or there is none. -/
theorem bind_checked_eq_some {value : Option (Value (JsonNumber Φ))} {text : Text}
    (passed : value.bind (checked check) = some text) : ∃ given, check given = .ok text := by
  obtain ⟨v, -, passed⟩ := Option.bind_eq_some_iff.mp passed
  obtain ⟨given, -, accepted⟩ := checked_eq_some passed
  exact ⟨given, accepted⟩

end Checks

/-! ## What is accepted -/

section Accepted

variable {Φ : Type} {int : LaxInt Φ} {fields : Fields Φ}

theorem valid_of_validateLocal {c : LocalConnection} (accepted : validateLocal fields = some c) :
    (Connection.local c).Valid := by
  simp only [validateLocal, Option.bind_eq_bind, Option.bind_eq_some_iff] at accepted
  obtain ⟨name, ⟨v, -, named⟩, -, -, path, ⟨w, -, placed⟩, last⟩ := accepted
  obtain ⟨given, -, named⟩ := checked_eq_some named
  obtain ⟨given', -, placed⟩ := checked_eq_some placed
  split_ifs at last
  cases last
  exact ⟨connectionName_ok named, settingText_ok placed⟩

theorem port_eq_some {n : Int} {p : Nat} (accepted : port n = some p) : 0 < p ∧ p ≤ 65535 := by
  unfold port at accepted
  split_ifs at accepted with range
  cases accepted
  omega

theorem valid_of_validateSFTP {c : SFTPConnection} (accepted : validateSFTP int fields = some c) :
    (Connection.sftp c).Valid := by
  simp only [validateSFTP, Option.bind_eq_bind, Option.bind_eq_some_iff] at accepted
  obtain ⟨name, ⟨_, -, named⟩, -, -, host, ⟨_, -, hosted⟩, port, ⟨_, -, numbered⟩, user, -,
    username, used, password, ⟨_, -, hidden⟩, root, ⟨_, -, rooted⟩, last⟩ := accepted
  obtain ⟨_, -, named⟩ := checked_eq_some named
  obtain ⟨_, -, hosted⟩ := checked_eq_some hosted
  obtain ⟨_, -, used⟩ := checked_eq_some used
  obtain ⟨_, -, hidden⟩ := checked_eq_some hidden
  obtain ⟨_, -, rooted⟩ := checked_eq_some rooted
  split_ifs at last
  cases last
  exact ⟨connectionName_ok named, hostName_ok hosted, port_eq_some numbered, settingText_ok used,
    secret_ok hidden, settingText_ok rooted⟩

/-- An accepted connection is valid and has the type that was asked for. -/
theorem valid_of_validateInput {kind : ConnectionType} {c : Connection}
    (accepted : validateInput int kind fields = .ok c) : c.Valid ∧ c.kind = kind := by
  cases kind with
  | «local» =>
    rw [validateInput] at accepted
    cases found : validateLocal fields with
    | none =>
      rw [found] at accepted
      cases accepted
    | some l =>
      rw [found] at accepted
      cases accepted
      exact ⟨valid_of_validateLocal found, rfl⟩
  | sftp =>
    rw [validateInput] at accepted
    cases found : validateSFTP int fields with
    | none =>
      rw [found] at accepted
      cases accepted
    | some s =>
      rw [found] at accepted
      cases accepted
      exact ⟨valid_of_validateSFTP found, rfl⟩

end Accepted

/-! ## The fields of a connection -/

section Stored

variable {Φ : Type}

/-- All fields of a connection, as the store puts them together. -/
def Connection.fields (c : Connection) : Fields Φ := c.head ++ (c.settings ++ c.secrets)

theorem validateLocal_fields (c : LocalConnection) :
    validateLocal (Φ := Φ) (Connection.local c).fields =
      (checked (Φ := Φ) connectionName (.string c.name)).bind fun name =>
        (checked (Φ := Φ) settingText (.string c.path)).bind fun path => some ⟨name, path⟩ := by
  rfl

theorem validateSFTP_fields (int : LaxInt Φ) (c : SFTPConnection) :
    validateSFTP int (Connection.sftp c).fields =
      (checked (Φ := Φ) connectionName (.string c.name)).bind fun name =>
        (checked (Φ := Φ) hostName (.string c.host)).bind fun host =>
        ((int.read (.number (.int c.port))).bind port).bind fun port =>
        (checked (Φ := Φ) settingText (.string c.username)).bind fun username =>
        (checked (Φ := Φ) secret (.string c.password)).bind fun password =>
        (checked (Φ := Φ) settingText (.string c.root)).bind fun root =>
        some ⟨name, host, port, username, password, root⟩ := by
  rfl

variable (int : LaxInt Φ)

theorem port_natCast {n : Nat} (range : 0 < n ∧ n ≤ 65535) : port n = some n := by
  have range' : (0 : Int) < n ∧ (n : Int) ≤ 65535 := by omega
  rw [port, if_pos range', Int.toNat_natCast]

/-- A valid connection is read back from its fields. -/
theorem validateInput_fields {c : Connection} (valid : c.Valid) :
    validateInput int c.kind c.fields = .ok c := by
  cases c with
  | «local» c =>
    obtain ⟨named, placed⟩ := valid
    rw [Connection.kind, validateInput, validateLocal_fields, checked_string named,
      Option.bind_some, checked_string placed]
    rfl
  | sftp c =>
    obtain ⟨named, hosted, range, used, hidden, rooted⟩ := valid
    rw [Connection.kind, validateInput, validateSFTP_fields, checked_string named,
      Option.bind_some, checked_string hosted, Option.bind_some, int.read_int, Option.bind_some,
      port_natCast range, Option.bind_some, checked_string used, Option.bind_some,
      checked_string hidden, Option.bind_some, checked_string rooted]
    rfl

/-- A local connection whose path is not valid is refused. -/
theorem validateInput_refused {c : LocalConnection} (invalid : ¬ (Connection.local c).Valid) :
    validateInput int .local (Connection.local c).fields = .error .validation := by
  rw [validateInput, validateLocal_fields]
  cases named : checked (Φ := Φ) connectionName (.string c.name) with
  | none => rfl
  | some name =>
    cases placed : checked (Φ := Φ) settingText (.string c.path) with
    | none => rfl
    | some path =>
      obtain ⟨_, same, named⟩ := checked_eq_some named
      obtain ⟨_, same', placed⟩ := checked_eq_some placed
      cases same
      cases same'
      have accepted := named
      unfold connectionName at accepted
      split_ifs at accepted
      cases accepted
      have path := settingText_eq placed
      subst path
      exact absurd ⟨named, placed⟩ invalid

/-- The view is always built from the public fields. -/
theorem validateView_public (c : Connection) :
    validateView int c.kind (c.head ++ c.settings) = .ok c.view := by
  cases c with
  | «local» c => rfl
  | sftp c =>
    have shown : validateSFTPView int ((Connection.sftp c).head ++ (Connection.sftp c).settings) =
        (int.read (.number (.int c.port))).bind fun port =>
          some ⟨c.name, c.host, port, c.username, c.root⟩ := rfl
    rw [Connection.kind, validateView, shown, int.read_int]
    rfl

/-- Validation is a projection: what it accepts, with its fields in their accepted form,
it accepts unchanged, and the view of it is built. -/
theorem validateInput_idempotent {kind : ConnectionType} {fields : Fields Φ} {c : Connection}
    (accepted : validateInput int kind fields = .ok c) :
    validateInput int kind c.fields = .ok c ∧
      validateView int kind (c.head ++ c.settings) = .ok c.view := by
  obtain ⟨valid, same⟩ := valid_of_validateInput accepted
  rw [← same]
  exact ⟨validateInput_fields int valid, validateView_public int c⟩

/-- `int` without the conversions. -/
def strictInt : LaxInt Φ where
  read
    | .number (.int n) => some n
    | _ => none
  read_int := fun _ => rfl

/-- The fields of a client: a host name in mixed case, and `user` for `username`. -/
def clientFields : Fields Φ :=
  [(lit "type", .string (lit "sftp")), (lit "name", .string (lit "remote")),
    (lit "host", .string (lit "LocalHost")), (lit "port", .number (.int 2222)),
    (lit "user", .string (lit "u")), (lit "password", .string (lit "p")),
    (lit "root", .string (lit "data"))]

def clientConnection : Connection := .sftp {
  name := lit "remote", host := lit "localhost", port := 2222, username := lit "u"
  password := lit "p", root := lit "data" }

theorem validateInput_idempotent_client :
    validateInput (Φ := Unit) strictInt .sftp clientConnection.fields = .ok clientConnection ∧
      validateView (Φ := Unit) strictInt .sftp (clientConnection.head ++ clientConnection.settings) =
        .ok clientConnection.view := by
  have accepted : validateInput (Φ := Unit) strictInt .sftp clientFields = .ok clientConnection := by
    rfl
  exact validateInput_idempotent strictInt accepted

end Stored

end DataBridge
