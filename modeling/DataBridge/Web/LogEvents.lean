import DataBridge.Connections.Models
import DataBridge.Effect.Runs
import DataBridge.Effect.Simulation
import DataBridge.RequestLog.Rotation
import DataBridge.Store.Isoformat

/-!
# What a request logs

`log_fields`, `body_log_fields` and the event that `_log` of `web.py` gives to the
request log, down to the bytes of its line. Whatever texts a request holds, the line
is ASCII without a line feed, and `json.loads` reads the event back from it
(`LoggedEvent.read_line`); so the log files of any number of services, started one
after the other, are lines that are read back as the newest events.
-/

namespace DataBridge

open Effect Routine Files Json

/-! ## Fields -/

section Fields

variable {Φ : Type}

/-- What is logged of one value: a scalar, and at most 512 characters of a text. -/
def loggedValue : Value (JsonNumber Φ) → Option (Value (JsonNumber Φ))
  | .string text => some (.string (text.take 512))
  | .number (.int n) => some (.number (.int n))
  | .bool b => some (.bool b)
  | _ => none

/-- One pass of the loop of `log_fields`. -/
def logField (values : Fields Φ) (result : Fields Φ) (key : Text) : Fields Φ :=
  match (Dict.get? key values).bind loggedValue with
  | some value => Dict.set key value result
  | none => result

/-- `log_fields`. -/
def logFields (values : Fields Φ) (allowed : List Text) : Fields Φ :=
  allowed.foldl (logField values) []

/-- `value == text` for a value that may be missing. -/
def isText (value : Option (Value (JsonNumber Φ))) (text : Text) : Bool :=
  match value with
  | some (.string found) => found = text
  | _ => false

/-- `body_log_fields`. -/
def bodyLogFields (body : Value (JsonNumber Φ)) (route : Text) : Fields Φ :=
  match body with
  | .object body =>
    if lit "/connections" <+: route then
      let common := [lit "name", lit "type"]
      if isText (Dict.get? (lit "type") body) (lit "local") then
        logFields body (common ++ [lit "path"])
      else if isText (Dict.get? (lit "type") body) (lit "sftp") then
        logFields body (common ++ [lit "host", lit "port", lit "username", lit "root"])
      else logFields body common
    else if route = lit "/transfers" then
      logFields body [lit "source", lit "source_file", lit "destination", lit "destination_file",
        lit "overwrite"]
    else []
  | _ => []

theorem get?_logField (values result : Fields Φ) (key other : Text) :
    Dict.get? other (logField values result key) =
      if key = other then ((Dict.get? key values).bind loggedValue).or (Dict.get? other result)
      else Dict.get? other result := by
  unfold logField
  cases found : (Dict.get? key values).bind loggedValue with
  | none => simp
  | some value =>
    dsimp only
    rw [Dict.get?_set]
    rfl

/-- Only the allowed keys are logged, each with what is logged of its own value. -/
theorem get?_logFields (values : Fields Φ) (allowed : List Text) (key : Text) :
    Dict.get? key (logFields values allowed) =
      if key ∈ allowed then (Dict.get? key values).bind loggedValue else none := by
  suffices go : ∀ result : Fields Φ, (Dict.get? key result = none ∨
        Dict.get? key result = (Dict.get? key values).bind loggedValue) →
      Dict.get? key (allowed.foldl (logField values) result) =
        if key ∈ allowed then (Dict.get? key values).bind loggedValue else Dict.get? key result from
    go [] (.inl rfl)
  induction allowed with
  | nil =>
    intro result _
    rfl
  | cons first allowed ih =>
    intro result known
    have step := get?_logField values result first key
    have next : Dict.get? key (logField values result first) = none ∨
        Dict.get? key (logField values result first) = (Dict.get? key values).bind loggedValue := by
      rw [step]
      split_ifs with same
      · rw [same]
        rcases known with absent | present
        · rw [absent, Option.or_none]
          exact .inr rfl
        · rw [present, Option.or_self]
          exact .inr rfl
      · exact known
    rw [List.foldl_cons, ih _ next, step]
    by_cases same : first = key
    · subst same
      rw [if_pos List.mem_cons_self, if_pos rfl]
      split_ifs
      · rfl
      · rcases known with absent | present
        · rw [absent, Option.or_none]
        · rw [present, Option.or_self]
    · rw [if_neg same]
      simp only [List.mem_cons, Ne.symm same, false_or]

/-- The fields that agree on the allowed keys are logged alike. -/
theorem logFields_congr {values others : Fields Φ} {allowed : List Text}
    (same : ∀ key ∈ allowed, Dict.get? key others = Dict.get? key values) :
    logFields others allowed = logFields values allowed := by
  unfold logFields
  apply List.foldl_ext
  intro result key member
  rw [logField, logField, same key member]

/-- The names of the fields that are ever logged of a body. -/
def loggable : List Text :=
  [lit "name", lit "type", lit "path", lit "host", lit "port", lit "username", lit "root",
    lit "source", lit "source_file", lit "destination", lit "destination_file", lit "overwrite"]

/-- The names of the fields that are logged of a body. -/
def bodyAllowed (body : Fields Φ) (route : Text) : List Text :=
  if lit "/connections" <+: route then
    if isText (Dict.get? (lit "type") body) (lit "local") then
      [lit "name", lit "type", lit "path"]
    else if isText (Dict.get? (lit "type") body) (lit "sftp") then
      [lit "name", lit "type", lit "host", lit "port", lit "username", lit "root"]
    else [lit "name", lit "type"]
  else if route = lit "/transfers" then
    [lit "source", lit "source_file", lit "destination", lit "destination_file", lit "overwrite"]
  else []

theorem bodyLogFields_object (body : Fields Φ) (route : Text) :
    bodyLogFields (.object body) route = logFields body (bodyAllowed body route) := by
  unfold bodyLogFields bodyAllowed
  dsimp only
  split_ifs
  all_goals rfl

theorem bodyAllowed_subset (body : Fields Φ) (route : Text) : bodyAllowed body route ⊆ loggable := by
  unfold bodyAllowed
  split_ifs
  all_goals simp [loggable]

/-- Two bodies are logged alike when they agree on the loggable fields, whatever else
they hold. -/
theorem bodyLogFields_congr {body other : Fields Φ} (route : Text)
    (same : ∀ key ∈ loggable, Dict.get? key other = Dict.get? key body) :
    bodyLogFields (.object other) route = bodyLogFields (.object body) route := by
  have kind := same (lit "type") (by simp [loggable])
  have allowed : bodyAllowed other route = bodyAllowed body route := by
    unfold bodyAllowed
    rw [kind]
  rw [bodyLogFields_object, bodyLogFields_object, allowed]
  exact logFields_congr fun key member => same key (bodyAllowed_subset body route member)

end Fields

/-! ## Events -/

/-- The `state` of a request, as far as it is logged. -/
structure RequestState (Φ : Type) where
  bodyParams : Fields Φ := []
  errorCode : Option ErrorCode := none
  errorType : Option Text := none
  transferId : Option Text := none

/-- What `_log` makes an event from. `query` is what `parse_qsl` gives. -/
structure LogEvent (Φ : Type) where
  time : Instant
  requestId : Text
  method : Text
  route : Option Text
  status : Nat
  duration : Φ
  pathParams : Fields Φ
  query : List (Text × Text)
  state : RequestState Φ

section Events

variable {Φ : Type}

/-- `_LOGGED_PATH_PARAMS`. -/
def loggedPathParams : List Text := [lit "name", lit "filename", lit "transfer_id"]

/-- `_LOGGED_QUERY_PARAMS`. -/
def loggedQueryParams : List Text := [lit "limit", lit "status"]

/-- A `dict`, if it is not empty. -/
def nonEmptyDict : Fields Φ → Option (Value (JsonNumber Φ))
  | [] => none
  | field :: fields => some (.object (field :: fields))

/-- A text, if there is one and it is not empty. -/
def nonEmptyText : Option Text → Option (Value (JsonNumber Φ))
  | some (c :: text) => some (.string (c :: text))
  | _ => none

/-- `if value: event[key] = value`. -/
def addField (event : Fields Φ) (key : String) (value : Option (Value (JsonNumber Φ))) : Fields Φ :=
  match value with
  | some value => Dict.set (lit key) value event
  | none => event

/-- The event of `_log`. -/
def LogEvent.fields (e : LogEvent Φ) : Fields Φ :=
  let event : Fields Φ := [
    (lit "timestamp", .string (isoformat e.time)),
    (lit "request_id", .string e.requestId),
    (lit "method", .string e.method),
    (lit "route", e.route.elim .null .string),
    (lit "status_code", .number (.int e.status)),
    (lit "duration_ms", .number (.float e.duration))]
  let query : Fields Φ := (Dict.ofItems e.query).map fun item => (item.1, .string item.2)
  let event := addField event "path_params" (nonEmptyDict (logFields e.pathParams loggedPathParams))
  let event := addField event "query_params" (nonEmptyDict (logFields query loggedQueryParams))
  let event := addField event "body_params" (nonEmptyDict e.state.bodyParams)
  let event := addField event "error_code" (nonEmptyText (e.state.errorCode.map ErrorCode.value))
  let event := addField event "error_type" (nonEmptyText e.state.errorType)
  addField event "transfer_id" (nonEmptyText e.state.transferId)

/-! ## What is read back -/

variable (float : PythonFloat Φ)

/-- Fields that are read back with the pairs in their texts joined. -/
structure Entries (k : Nat) (fields : Fields Φ) : Prop where
  distinct : (Dict.keys fields).Nodup
  plain : ∀ key ∈ Dict.keys fields, Unjoined key
  storable : ∀ item ∈ fields, Storable float k item.2.joined

variable {float} {k : Nat} {fields : Fields Φ}

theorem Entries.nil : Entries float k ([] : Fields Φ) :=
  ⟨List.nodup_nil, List.forall_mem_nil _, List.forall_mem_nil _⟩

theorem Entries.set {key : Text} {value : Value (JsonNumber Φ)} (entries : Entries float k fields)
    (unjoined : Unjoined key) (storable : Storable float k value.joined) :
    Entries float k (Dict.set key value fields) where
  distinct := Dict.nodup_keys_set entries.distinct
  plain := by
    intro other member
    rw [Dict.keys_set] at member
    split_ifs at member with present
    · exact entries.plain other member
    · rcases List.mem_append.mp member with before | last
      · exact entries.plain other before
      · rw [List.mem_singleton.mp last]
        exact unjoined
  storable := by
    intro item member
    rcases Dict.mem_of_mem_set member with rfl | before
    · exact storable
    · exact entries.storable item before

/-- An object of such fields is written as one that is read back. -/
theorem Entries.object (entries : Entries float k fields) :
    Storable float (k + 1) (Value.object fields).joined := by
  have same : ∀ item ∈ fields, joinPairs item.1 = item.1 := fun item member =>
    joinPairs_of_unjoined (entries.plain item.1 (List.mem_map_of_mem member))
  have keys : (fields.map joinedMember).map Prod.fst = Dict.keys fields := by
    rw [List.map_map]
    exact List.map_congr_left same
  rw [Value.joined, joinedMembers_eq]
  apply Writes.object
  · rw [keys]
    exact entries.distinct
  · intro member inside
    obtain ⟨item, before, rfl⟩ := List.mem_map.mp inside
    rw [joinedMember, same item before]
    exact entries.plain item.1 (List.mem_map_of_mem before)
  · intro member inside
    obtain ⟨item, before, rfl⟩ := List.mem_map.mp inside
    exact entries.storable item before

theorem storable_string (text : Text) :
    Storable float k (Value.string text : Value (JsonNumber Φ)).joined := by
  rw [Value.joined]
  exact .string (unjoined_joinPairs text)

theorem Entries.addField {key : String} {value : Option (Value (JsonNumber Φ))}
    (entries : Entries float k fields) (unjoined : Unjoined (lit key))
    (storable : ∀ found ∈ value, Storable float k found.joined) :
    Entries float k (DataBridge.addField fields key value) := by
  cases value with
  | none => exact entries
  | some found => exact entries.set unjoined (storable found rfl)

theorem Entries.nonEmpty (entries : Entries float k fields) :
    ∀ found ∈ nonEmptyDict fields, Storable float (k + 1) found.joined := by
  intro found member
  cases fields with
  | nil => cases member
  | cons field fields =>
    cases member
    exact entries.object

theorem storable_nonEmptyText {text : Option Text} :
    ∀ found ∈ (nonEmptyText text : Option (Value (JsonNumber Φ))), Storable float k found.joined := by
  intro found member
  cases text with
  | none => cases member
  | some text =>
    cases text with
    | nil => cases member
    | cons c text =>
      cases member
      exact storable_string _

/-- Every `int` of the fields has at most 4300 digits, as those that `json.loads` reads. -/
def ShortInts (values : Fields Φ) : Prop :=
  ∀ key n, Dict.get? key values = some (.number (.int n)) → (decimal n.natAbs).length ≤ intMaxDigits

theorem storable_loggedValue {value found : Value (JsonNumber Φ)}
    (short : ∀ n, value = .number (.int n) → (decimal n.natAbs).length ≤ intMaxDigits)
    (logged : loggedValue value = some found) : Storable float k found.joined := by
  cases value with
  | string text =>
    cases logged
    exact storable_string _
  | number n =>
    cases n with
    | int n =>
      cases logged
      exact storable_int float (short n rfl)
    | float x => cases logged
  | bool b =>
    cases logged
    exact .bool b
  | null => cases logged
  | array items => cases logged
  | object members => cases logged

/-- Logged fields are read back. -/
theorem entries_logFields {values : Fields Φ} (short : ShortInts values) {allowed : List Text}
    (plain : ∀ key ∈ allowed, Unjoined key) : Entries float k (logFields values allowed) := by
  suffices go : ∀ result : Fields Φ, Entries float k result →
      Entries float k (allowed.foldl (logField values) result) from go [] .nil
  induction allowed with
  | nil =>
    intro result entries
    exact entries
  | cons key allowed ih =>
    intro result entries
    obtain ⟨unjoined, later⟩ := List.forall_mem_cons.mp plain
    rw [List.foldl_cons]
    apply ih later
    unfold logField
    cases found : (Dict.get? key values).bind loggedValue with
    | none => exact entries
    | some value =>
      obtain ⟨original, held, logged⟩ := Option.bind_eq_some_iff.mp found
      apply entries.set unjoined (storable_loggedValue (fun n same => ?_) logged)
      rw [same] at held
      exact short key n held

theorem unjoined_names {names : List Text}
    (ascii : (names.all fun name => name.all fun c => decide (c.val < 0x80)) = true) :
    ∀ name ∈ names, Unjoined name := by
  intro name member
  exact unjoined_key (List.all_eq_true.mp ascii name member)

theorem unjoined_loggable : ∀ key ∈ loggable, Unjoined key := unjoined_names rfl

/-- What is logged of a body is read back. -/
theorem entries_bodyLogFields {body : Fields Φ} (short : ShortInts body) (route : Text) :
    Entries float k (bodyLogFields (.object body) route) := by
  rw [bodyLogFields_object]
  exact entries_logFields short fun key member =>
    unjoined_loggable key (bodyAllowed_subset body route member)

/-- The event is read back when its numbers are. -/
theorem LogEvent.entries (e : LogEvent Φ) (shown : Storable float 1 (.number (.float e.duration)))
    (status : (decimal e.status).length ≤ intMaxDigits) (path : ShortInts e.pathParams)
    (body : Entries float 0 e.state.bodyParams) : Entries float 1 e.fields := by
  have query : ShortInts ((Dict.ofItems e.query).map fun item =>
      (item.1, (.string item.2 : Value (JsonNumber Φ)))) := by
    generalize Dict.ofItems e.query = items
    intro key n found
    induction items with
    | nil => cases found
    | cons item items ih =>
      rw [List.map_cons, Dict.get?] at found
      split_ifs at found
      · cases found
      · exact ih found
  have paths : Entries float 0 (logFields e.pathParams loggedPathParams) :=
    entries_logFields path (unjoined_names rfl)
  have queries : Entries float 0 (logFields _ loggedQueryParams) :=
    entries_logFields query (unjoined_names rfl)
  unfold LogEvent.fields
  refine .addField (.addField (.addField (.addField (.addField (.addField ⟨?_, ?_, ?_⟩
    (unjoined_key rfl) paths.nonEmpty) (unjoined_key rfl) queries.nonEmpty) (unjoined_key rfl)
    body.nonEmpty) (unjoined_key rfl) storable_nonEmptyText) (unjoined_key rfl)
    storable_nonEmptyText) (unjoined_key rfl) storable_nonEmptyText
  · change [lit "timestamp", lit "request_id", lit "method", lit "route", lit "status_code",
      lit "duration_ms"].Nodup
    decide
  · exact unjoined_names rfl
  · intro item member
    simp only [List.mem_cons, List.not_mem_nil, or_false] at member
    rcases member with rfl | rfl | rfl | rfl | rfl | rfl
    · exact storable_string _
    · exact storable_string _
    · exact storable_string _
    · cases e.route with
      | none => exact .null
      | some route => exact storable_string route
    · exact storable_nat float status
    · exact shown

end Events

/-! ## Lines -/

section Lines

variable {Φ : Type}

/-- An event whose numbers are read back. -/
structure LoggedEvent (float : PythonFloat Φ) where
  event : LogEvent Φ
  entries : Entries float 1 event.fields

variable {float : PythonFloat Φ}

namespace LoggedEvent

/-- `json.dumps(event, separators=(",", ":"))`. -/
def text (e : LoggedEvent float) : Text := jsonDumpsCompact float (.object e.event.fields)

/-- The event as it is read back. -/
def value (e : LoggedEvent float) : Value (JsonNumber Φ) := (Value.object e.event.fields).joined

theorem text_eq (e : LoggedEvent float) : e.text = dumps [] (numberText float) e.value :=
  (dumps_joined [] (numberText float) (.object e.event.fields)).symm

theorem printable (e : LoggedEvent float) : Printable e.text := by
  rw [text_eq]
  exact printable_dumps (List.forall_mem_nil _) e.entries.object

theorem ascii (e : LoggedEvent float) : ∀ c ∈ e.text, c.val < 128 := by
  intro c member
  have range := e.printable c member
  omega

theorem plain (e : LoggedEvent float) : 10 ∉ asciiBytes e.text := by
  intro member
  obtain ⟨c, inside, same⟩ := mem_asciiBytes e.ascii member
  have range := e.printable c inside
  have ten : (10 : UInt8).toNat = 10 := rfl
  omega

/-- The line that is written for an event. -/
def line (e : LoggedEvent float) : LogLine := ⟨asciiBytes e.text, e.plain⟩

/-- `line.encode("utf-8")` without its line feed. -/
theorem encode_text (e : LoggedEvent float) : e.text.encode = .ok e.line.body :=
  encode_ascii e.ascii

end LoggedEvent

/-- ASCII is read as it stands. -/
theorem decodeUtf8_ascii {data : Bytes} (ascii : ∀ b ∈ data, b.toNat < 128) :
    decodeUtf8 data = some (byteText data) := by
  induction data with
  | nil => rfl
  | cons b rest ih =>
    obtain ⟨small, later⟩ := List.forall_mem_cons.mp ascii
    have point : decodedPoint 0 b.toNat = some (pointOf b.toNat) := by
      have bound : b.toNat < 0x110000 := by omega
      have same : (⟨b.toNat, bound⟩ : CodePoint) = pointOf b.toNat :=
        Fin.ext (pointOf_small bound).symm
      have plain : CodePoint.isSurrogate ⟨b.toNat, bound⟩ = false :=
        not_isSurrogate_of_lt (show b.toNat < 0xD800 by omega)
      rw [decodedPoint, dif_pos bound, if_pos ⟨Nat.zero_le _, plain⟩, same]
    rw [decodeUtf8.eq_def]
    dsimp only
    rw [if_pos small, point, ih later]
    rfl

variable (float) in
/-- `json.loads(line)` for a line of a file that is opened as UTF-8. -/
def readLine (stack : Nat) (line : Bytes) : Except Exc (Value (JsonNumber Φ)) :=
  match decodeUtf8 line with
  | some text => jsonLoads float stack text
  | none => .error .unicodeDecode

/-- The line of an event is read back. -/
theorem LoggedEvent.read_line (e : LoggedEvent float) {stack : Nat} (room : 2 ≤ stack) :
    readLine float stack e.line.body = .ok e.value := by
  have small : ∀ b ∈ asciiBytes e.text, b.toNat < 128 := by
    intro b member
    obtain ⟨c, inside, same⟩ := mem_asciiBytes e.ascii member
    rw [same]
    exact e.ascii c inside
  have decoded := decodeUtf8_ascii small
  rw [byteText_asciiBytes e.ascii, e.text_eq] at decoded
  have spaces : ∀ c ∈ ([] : Text), isSpace c = true := List.forall_mem_nil _
  have storable : Storable float 2 e.value := e.entries.object
  rw [readLine, LoggedEvent.line]
  dsimp only
  rw [e.text_eq, decoded]
  dsimp only
  rw [jsonLoads, decode_dumps spaces storable room]
  rfl

end Lines

/-! ## Files -/

/-- The lines of a file, each without its line feed. -/
def splitLines : Bytes → List Bytes
  | [] => []
  | b :: rest =>
    if b = 10 then [] :: splitLines rest
    else
      match splitLines rest with
      | [] => [[b]]
      | line :: lines => (b :: line) :: lines

theorem splitLines_line {body : Bytes} (plain : 10 ∉ body) (rest : Bytes) :
    splitLines (body ++ 10 :: rest) = body :: splitLines rest := by
  induction body with
  | nil => rw [List.nil_append, splitLines, if_pos rfl]
  | cons b body ih =>
    rw [List.mem_cons, not_or] at plain
    rw [List.cons_append, splitLines, if_neg (Ne.symm plain.1), ih plain.2]

/-- The lines that were written are those that are read. -/
theorem splitLines_linesText (lines : List LogLine) :
    splitLines (linesText lines) = lines.map LogLine.body := by
  induction lines with
  | nil => rfl
  | cons line lines ih =>
    have split := splitLines_line line.plain (linesText lines)
    rw [linesText, List.flatMap_cons, LogLine.text, List.append_assoc, List.singleton_append]
    rw [linesText] at split ih
    rw [split, ih, List.map_cons]

/-- The lines of the log file or of a backup. -/
def fileLines (d : Directory Nat) (name : Nat) : List Bytes :=
  match d.entries name with
  | some (.file file) => splitLines (d.nodes file).content
  | _ => []

/-- The lines from a backup down to the log file, so the oldest first. -/
def storedLines (d : Directory Nat) : Nat → List Bytes
  | 0 => fileLines d 0
  | number + 1 => fileLines d (number + 1) ++ storedLines d number

theorem fileLines_of_shows {d : Directory Nat} {name : Nat} {blocks : LogBlocks}
    (shown : LogShows d name (blocks name)) :
    fileLines d name = (blocks.lines name).map LogLine.body := by
  rw [LogBlocks.lines]
  cases block : blocks name with
  | none =>
    rw [block] at shown
    have absent : d.entries name = none := shown
    rw [fileLines, absent]
    rfl
  | some lines =>
    rw [block] at shown
    obtain ⟨file, entry, content⟩ := shown
    rw [fileLines, entry]
    dsimp only
    rw [content, splitLines_linesText]
    rfl

theorem storedLines_of_holds {backups : Nat} {d : Directory Nat} {blocks : LogBlocks}
    (holds : Holds backups d blocks) {level : Nat} (within : level ≤ backups) :
    storedLines d level = (blocks.held level).map LogLine.body := by
  induction level with
  | zero => exact fileLines_of_shows (holds.shown 0 within)
  | succ level ih =>
    rw [storedLines, fileLines_of_shows (holds.shown _ within), ih (by omega), LogBlocks.held,
      List.map_append]

/-! ## Services one after the other -/

namespace RequestLog

variable {c : RequestLog} {blocks now later : LogBlocks} {all : List LogLine}

variable (c) in
/-- What the files keep of all lines: the newest ones, and more bytes than one file may
have once some were lost, if there are backups. -/
def Retains (all : List LogLine) (now : LogBlocks) : Prop :=
  ∃ lost, all = lost ++ now.held c.backups ∧
    (lost = [] ∨ c.backups = 0 ∨ c.maxBytes < (linesText (now.held c.backups)).length)

theorem length_lines_zero (number : Nat) :
    (linesText (now.lines 0)).length ≤ (linesText (now.held number)).length := by
  induction number with
  | zero => exact Nat.le_refl _
  | succ number ih =>
    have split : linesText (now.held (number + 1)) =
        linesText (now.lines (number + 1)) ++ linesText (now.held number) := List.flatMap_append
    rw [split, List.length_append]
    exact ih.trans (Nat.le_add_left _ _)

/-- One write keeps what must be kept. -/
theorem Retains.write {log : RequestLogState} {w : LogWorld} {line : LogLine}
    (retains : c.Retains all now) (sound : Sound c log w now)
    (held : later.held c.backups = now.held c.backups ++ [line] ∨ c.Due log.size line ∧ ∃ rest,
      now.held c.backups = now.lines c.backups ++ rest ∧ later.held c.backups = rest ++ [line]) :
    c.Retains (all ++ [line]) later := by
  obtain ⟨lost, split, enough⟩ := retains
  rcases held with longer | ⟨due, rest, oldest, kept⟩
  · refine ⟨lost, by rw [split, longer, List.append_assoc], ?_⟩
    rcases enough with none | single | more
    · exact .inl none
    · exact .inr (.inl single)
    · rw [longer, linesText_snoc, List.length_append]
      exact .inr (.inr (by omega))
  · refine ⟨lost ++ now.lines c.backups, ?_, ?_⟩
    · rw [split, oldest, kept]
      simp only [List.append_assoc]
    · cases number : c.backups with
      | zero => exact .inr (.inl rfl)
      | succ below =>
        -- The log file that made the rotation due is now the newest backup.
        have newer : rest = now.held below := by
          rw [number, LogBlocks.held] at oldest
          exact (List.append_cancel_left oldest).symm
        have size : (linesText (now.lines 0)).length ≤ (linesText (now.held below)).length :=
          length_lines_zero below
        have full := due.2
        rw [number] at kept
        rw [sound.size] at full
        rw [kept, linesText_snoc, List.length_append, newer]
        have longer : line.text.length = line.size := rfl
        exact .inr (.inr (by omega))

variable (c) in
/-- The log of one service: it is opened, given some events and closed. -/
def session (events : List LogLine) : LogRoutine Unit := do
  c.record events
  close

theorem session_wp {d : Directory Nat} (holds : Holds c.backups d blocks)
    (retains : c.Retains all blocks) (events : List LogLine) :
    (c.session events).Wp reliableLog (Post (fun _ _ w => ∃ now : LogBlocks,
      Holds c.backups w.directory now ∧ c.Retains (all ++ events) now) fun _ _ _ => False)
      ⟨none, 0⟩ ⟨d, []⟩ := by
  refine reliable_then (P := fun _ log w => ∃ now : LogBlocks, Sound c log w now ∧
    c.Retains (all ++ events) now) ?_ ?_
  · refine reliable_then (openLog_wp holds) ?_
    intro _ log₁ w₁ opened
    obtain ⟨moved, kept, opened⟩ := opened
    have none : w₁.written = [] := moved.written
    have start : Sound c log₁ w₁ blocks.started := by
      refine ⟨opened.started, kept, fun file member => ?_⟩
      rw [none] at member
      exact (List.not_mem_nil member).elim
    refine .forEach (I := fun done log w => ∃ now : LogBlocks, Sound c log w now ∧
      c.Retains (all ++ done) now) ?_ ?_ ?_
    · intro done line rest _ log w before
      obtain ⟨now, sound, retains⟩ := before
      refine (write_wp sound line).post ?_ fun _ _ _ impossible => impossible.elim
      intro _ log' w' written
      obtain ⟨later, sound', held⟩ := written
      refine ⟨later, sound', ?_⟩
      rw [← List.append_assoc]
      exact retains.write sound held
    · intro log w done
      exact Setting.settled_alone.mpr done
    · refine ⟨_, start, ?_⟩
      rw [List.append_nil, Retains, LogBlocks.held_started]
      exact retains
  · intro _ log w written
    obtain ⟨now, sound, retains⟩ := written
    refine (close_wp sound.toLogOpened).post ?_ fun _ _ _ impossible => impossible
    intro _ log' w' closed
    rw [closed.2]
    exact ⟨now, sound.holds, retains⟩

end RequestLog

section Services

variable {Φ : Type} {float : PythonFloat Φ} {c : RequestLog} {d d' : Directory Nat}
  {blocks : LogBlocks}

variable (float c) in
/-- A service that logs some events and stops, with the files before and after it. -/
def Logs (events : List (LoggedEvent float)) (d d' : Directory Nat) : Prop :=
  ∃ log w, Runs (LogCall.sem fun _ => False) (c.session (events.map LoggedEvent.line)) ⟨none, 0⟩
    ⟨d, []⟩ (.ok ()) log w ∧ w.directory = d'

/-- Each service can start where the last one stopped, and stops itself. -/
theorem exists_logs (holds : Holds c.backups d blocks) (events : List (LoggedEvent float)) :
    ∃ d', Logs float c events d d' := by
  have run := RequestLog.session_wp holds ⟨[], rfl, .inl rfl⟩ (events.map LoggedEvent.line)
  obtain ⟨⟨r, log⟩, w, reach⟩ := (Prog.Wp.ends run).outcome
  have ended := Prog.Wp.result run reach
  cases r with
  | ok _ => exact ⟨w.directory, log, w, reach, rfl⟩
  | error e => exact ended.elim

/-- The files of any number of services hold the newest of all lines. -/
theorem Logs.keep {sessions : List (List (LoggedEvent float))}
    (run : Trace (Logs float c) d sessions d') {all : List LogLine}
    (holds : Holds c.backups d blocks) (retains : c.Retains all blocks) :
    ∃ now : LogBlocks, Holds c.backups d' now ∧
      c.Retains (all ++ sessions.flatten.map LoggedEvent.line) now := by
  induction run generalizing blocks all with
  | nil => exact ⟨blocks, holds, by simpa using retains⟩
  | @cons d d₁ d' events sessions first later ih =>
    obtain ⟨log, w, reach, rfl⟩ := first
    obtain ⟨now, holds', retains'⟩ := Prog.Wp.result
      (RequestLog.session_wp holds retains (events.map LoggedEvent.line)) reach
    obtain ⟨last, kept, all'⟩ := ih holds' retains'
    refine ⟨last, kept, ?_⟩
    rw [List.flatten_cons, List.map_append, ← List.append_assoc]
    exact all'

/-- What is read from the log files after any number of services is what was read before
followed by every event that was logged, less some of the oldest; and when any is missing
and there are backups, the files hold more bytes than one of them may have. -/
theorem requestLog_readable {stack : Nat} (room : 2 ≤ stack)
    {sessions : List (List (LoggedEvent float))} (holds : Holds c.backups d blocks)
    (run : Trace (Logs float c) d sessions d') :
    ∃ lost, (storedLines d c.backups).map (readLine float stack) ++
        sessions.flatten.map (fun e => .ok e.value) =
          lost ++ (storedLines d' c.backups).map (readLine float stack) ∧
      (lost = [] ∨ c.backups = 0 ∨
        c.maxBytes < ((storedLines d' c.backups).map fun line => line.length + 1).sum) := by
  obtain ⟨now, holds', lost, split, enough⟩ := Logs.keep run holds ⟨[], rfl, .inl rfl⟩
  rw [List.nil_append] at split
  have before := storedLines_of_holds holds (Nat.le_refl _)
  have after := storedLines_of_holds holds' (Nat.le_refl _)
  refine ⟨lost.map (readLine float stack ∘ LogLine.body), ?_, ?_⟩
  · have events : sessions.flatten.map (fun e => Except.ok e.value) =
        (sessions.flatten.map LoggedEvent.line).map (readLine float stack ∘ LogLine.body) := by
      rw [List.map_map]
      exact List.map_congr_left fun e _ => (e.read_line room).symm
    rw [before, after, List.map_map, List.map_map, events, ← List.map_append, split,
      List.map_append]
  · have bytes : ((storedLines d' c.backups).map fun line => line.length + 1).sum =
        (linesText (now.held c.backups)).length := by
      rw [after, List.map_map, linesText, List.length_flatMap]
      congr 1
      apply List.map_congr_left
      intro line _
      rw [LogLine.text, List.length_append]
      rfl
    rw [bytes, List.map_eq_nil_iff]
    exact enough

/-- Floats of one value, `0.5`. -/
def halfFloat : PythonFloat Unit := ⟨fun _ => (), fun _ => lit "0.5"⟩

theorem storable_half : Storable halfFloat 1 (.number (.float ())) := by
  have fraction : IsFraction (lit ".5") := .inr ⟨.ofChar '5', [], rfl, by
    intro c member
    rw [List.mem_singleton.mp member]
    rfl⟩
  have number : IsNumber (halfFloat.repr ()) :=
    ⟨[], lit "0", lit ".5", [], rfl, .inl rfl, .inl rfl, fraction, .inl rfl⟩
  have point : CodePoint.ofChar '.' ∈ halfFloat.repr () :=
    List.mem_cons_of_mem _ List.mem_cons_self
  exact storable_float halfFloat number ⟨_, point, rfl, by decide⟩ rfl

/-- A connection with a password. -/
def createdBody : Fields Unit := [(lit "name", .string (lit "remote")),
  (lit "type", .string (lit "sftp")), (lit "password", .string (lit "secret"))]

/-- The event of its creation. -/
def createdEvent : LogEvent Unit where
  time := 0
  requestId := lit "r-1"
  method := lit "POST"
  route := some (lit "/connections")
  status := 201
  duration := ()
  pathParams := []
  query := []
  state := { bodyParams := bodyLogFields (.object createdBody) (lit "/connections") }

def createdLogged : LoggedEvent halfFloat where
  event := createdEvent
  entries := by
    have short : ShortInts createdBody := by
      intro key n found
      simp only [createdBody, Dict.get?] at found
      split_ifs at found
      all_goals cases found
    have body : Entries halfFloat 0 createdEvent.state.bodyParams :=
      entries_bodyLogFields short (lit "/connections")
    exact createdEvent.entries storable_half (by decide) (fun _ _ none => by cases none) body

theorem requestLog_readable_created : ∃ d', Logs halfFloat ⟨1000, 1, by decide⟩ [createdLogged]
    Directory.empty d' ∧ ∃ lost, [Except.ok createdLogged.value] =
      lost ++ (storedLines d' 1).map (readLine halfFloat 2) ∧
      (lost = [] ∨ 1 = 0 ∨ 1000 < ((storedLines d' 1).map fun line => line.length + 1).sum) := by
  have holds : Holds 1 Directory.empty fun _ => none :=
    ⟨fun _ _ => rfl, fun _ _ _ _ _ found => by cases found⟩
  obtain ⟨d', logs⟩ := exists_logs (c := ⟨1000, 1, by decide⟩) holds [createdLogged]
  exact ⟨d', logs, requestLog_readable (Nat.le_refl 2) holds (.cons logs .nil)⟩

end Services

end DataBridge
