import Mathlib.Tactic

/-!
# A reader of delimited records

The state machine of CPython's `csv.reader` in strict mode with doubled quotes,
over any alphabet. The reader is fed line by line, each line with its end, and
after each line the end-of-line mark, here `none`. `records` is what iterating
over the reader yields: the records in order and the error that stops it, if any.

`drive` runs the same machine over the events of a text, one character or mark
at a time; `records_lines` says that it is the same reader.
-/

namespace Csv

/-- The characters that are not plain data. -/
structure Dialect (α : Type) where
  delimiter : α
  quotechar : α
  lineFeed : α
  carriageReturn : α
  distinct : [delimiter, quotechar, lineFeed, carriageReturn].Nodup

inductive ParserState
  | startRecord | startField | inField | inQuotedField | quoteInQuotedField | eatCrnl
  deriving DecidableEq, Repr

theorem Dialect.carriageReturn_ne_lineFeed {α : Type} (d : Dialect α) :
    d.carriageReturn ≠ d.lineFeed := by
  have distinct := d.distinct
  simp only [List.nodup_cons, List.mem_cons, List.not_mem_nil, not_or] at distinct
  exact fun same => distinct.2.2.1.1 same.symm

theorem Dialect.quotechar_plain {α : Type} (d : Dialect α) :
    d.quotechar ≠ d.lineFeed ∧ d.quotechar ≠ d.carriageReturn ∧ d.quotechar ≠ d.delimiter := by
  have distinct := d.distinct
  simp only [List.nodup_cons, List.mem_cons, List.not_mem_nil, not_or] at distinct
  exact ⟨distinct.2.1.1, distinct.2.1.2.1, fun same => distinct.1.1 same.symm⟩

theorem Dialect.delimiter_plain {α : Type} (d : Dialect α) :
    d.delimiter ≠ d.lineFeed ∧ d.delimiter ≠ d.carriageReturn := by
  have distinct := d.distinct
  simp only [List.nodup_cons, List.mem_cons, List.not_mem_nil, not_or] at distinct
  exact ⟨distinct.1.2.1, distinct.1.2.2.1⟩

/-- The messages of `csv.Error`. -/
inductive Error
  | fieldTooLarge | delimiterExpected | newLineInUnquotedField | unexpectedEnd
  deriving DecidableEq, Repr

/-- The reader between two characters of a record. -/
structure Reader (α : Type) where
  state : ParserState := .startRecord
  field : List α := []
  fields : List (List α) := []
  deriving DecidableEq

variable {α : Type}

namespace Reader

/-- `parse_save_field`. -/
def saveField (next : ParserState) (r : Reader α) : Reader α :=
  { state := next, field := [], fields := r.fields ++ [r.field] }

/-- `parse_add_char`; `limit` is `csv.field_size_limit()`. -/
def addChar (limit : Nat) (c : α) (next : ParserState) (r : Reader α) : Except Error (Reader α) :=
  if limit ≤ r.field.length then .error .fieldTooLarge
  else .ok { r with state := next, field := r.field ++ [c] }

variable [DecidableEq α] (d : Dialect α) (limit : Nat)

/-- The case START_FIELD of `parse_process_char`. -/
def processStart (r : Reader α) : Option α → Except Error (Reader α)
  | none => .ok (r.saveField .startRecord)
  | some c =>
    if c = d.lineFeed ∨ c = d.carriageReturn then .ok (r.saveField .eatCrnl)
    else if c = d.quotechar then .ok { r with state := .inQuotedField }
    else if c = d.delimiter then .ok (r.saveField .startField)
    else r.addChar limit c .inField

/-- `parse_process_char`; `none` is the end-of-line mark. -/
def process (r : Reader α) (c : Option α) : Except Error (Reader α) :=
  match r.state, c with
  | .startRecord, none => .ok r
  | .startRecord, some c =>
    if c = d.lineFeed ∨ c = d.carriageReturn then .ok { r with state := .eatCrnl }
    else processStart d limit r (some c)
  | .startField, c => processStart d limit r c
  | .inField, none => .ok (r.saveField .startRecord)
  | .inField, some c =>
    if c = d.lineFeed ∨ c = d.carriageReturn then .ok (r.saveField .eatCrnl)
    else if c = d.delimiter then .ok (r.saveField .startField)
    else r.addChar limit c .inField
  | .inQuotedField, none => .ok r
  | .inQuotedField, some c =>
    if c = d.quotechar then .ok { r with state := .quoteInQuotedField }
    else r.addChar limit c .inQuotedField
  | .quoteInQuotedField, none => .ok (r.saveField .startRecord)
  | .quoteInQuotedField, some c =>
    if c = d.quotechar then r.addChar limit c .inQuotedField
    else if c = d.delimiter then .ok (r.saveField .startField)
    else if c = d.lineFeed ∨ c = d.carriageReturn then .ok (r.saveField .eatCrnl)
    else .error .delimiterExpected
  | .eatCrnl, none => .ok { r with state := .startRecord }
  | .eatCrnl, some c =>
    if c = d.lineFeed ∨ c = d.carriageReturn then .ok r else .error .newLineInUnquotedField

/-- One line, then the end-of-line mark. -/
def feedLine (line : List α) (r : Reader α) : Except Error (Reader α) := do
  let r ← line.foldlM (fun r c => process d limit r (some c)) r
  process d limit r none

/-- What the reader does when no line is left. -/
def atEnd (r : Reader α) : Option Error :=
  if r.field ≠ [] ∨ r.state = .inQuotedField then some .unexpectedEnd else none

end Reader

variable [DecidableEq α] (d : Dialect α) (limit : Nat)

/-- The lines of `io.StringIO(text, newline="")`, each with its end. -/
def lines : List α → List (List α)
  | [] => []
  | [c] => [[c]]
  | c :: c' :: rest =>
    if c = d.lineFeed then [c] :: lines (c' :: rest)
    else if c = d.carriageReturn then
      if c' = d.lineFeed then [c, c'] :: lines rest else [c] :: lines (c' :: rest)
    else
      match lines (c' :: rest) with
      | [] => [[c]]
      | line :: more => (c :: line) :: more

/-- One more record in front of what the reader yields later. -/
def yielding (record : List (List α)) (later : List (List (List α)) × Option Error) :
    List (List (List α)) × Option Error :=
  (record :: later.1, later.2)

/-- The calls of `Reader_iternext` in turn, from the reader `r` inside a record. -/
def recordsFrom (r : Reader α) : List (List α) → List (List (List α)) × Option Error
  | [] => ([], r.atEnd)
  | line :: more =>
    match r.feedLine d limit line with
    | .error e => ([], some e)
    | .ok r' =>
      if r'.state = .startRecord then yielding r'.fields (recordsFrom {} more)
      else recordsFrom r' more

/-- The records of a text, and the error that ends them. -/
def records (text : List α) : List (List (List α)) × Option Error :=
  recordsFrom d limit {} (lines d text)

/-! ## The same reader, one event at a time -/

/-- The characters of a text, with a mark after each line. -/
def events (text : List α) : List (Option α) :=
  (lines d text).flatMap fun line => line.map some ++ [none]

/-- The reader over a list of events. -/
def drive (r : Reader α) : List (Option α) → List (List (List α)) × Option Error
  | [] => ([], r.atEnd)
  | some c :: later =>
    match r.process d limit (some c) with
    | .error e => ([], some e)
    | .ok r' => drive r' later
  | none :: later =>
    match r.process d limit none with
    | .error e => ([], some e)
    | .ok r' =>
      if r'.state = .startRecord then yielding r'.fields (drive {} later) else drive r' later

theorem drive_line (r : Reader α) (line : List α) (later : List (Option α)) :
    drive d limit r (line.map some ++ none :: later) =
      match r.feedLine d limit line with
      | .error e => ([], some e)
      | .ok r' =>
        if r'.state = .startRecord then yielding r'.fields (drive d limit {} later)
        else drive d limit r' later := by
  induction line generalizing r with
  | nil => rfl
  | cons c line ih =>
    simp only [List.map_cons, List.cons_append, drive, Reader.feedLine, List.foldlM_cons]
    cases step : r.process d limit (some c) with
    | error e => rfl
    | ok r' => exact ih r'

theorem recordsFrom_eq_drive (r : Reader α) (given : List (List α)) :
    recordsFrom d limit r given =
      drive d limit r (given.flatMap fun line => line.map some ++ [none]) := by
  induction given generalizing r with
  | nil => rfl
  | cons line more ih =>
    rw [List.flatMap_cons, List.append_assoc, List.singleton_append, drive_line, recordsFrom]
    cases r.feedLine d limit line with
    | error e => rfl
    | ok r' => simp only [ih]

theorem records_eq_drive (text : List α) :
    records d limit text = drive d limit {} (events d text) :=
  recordsFrom_eq_drive d limit {} (lines d text)

/-! ## The events of a text -/

@[simp] theorem events_nil : events d ([] : List α) = [] := rfl

theorem lines_ne_nil (c : α) (rest : List α) : lines d (c :: rest) ≠ [] := by
  cases rest with
  | nil => exact List.cons_ne_nil _ _
  | cons c' rest =>
    rw [lines]
    split_ifs
    · exact List.cons_ne_nil _ _
    · exact List.cons_ne_nil _ _
    · exact List.cons_ne_nil _ _
    · split
      · exact List.cons_ne_nil _ _
      · exact List.cons_ne_nil _ _

/-- A line that has begun takes the next character. -/
theorem events_cons {c : α} (plain : c ≠ d.lineFeed) (plain' : c ≠ d.carriageReturn)
    {rest : List α} (more : rest ≠ []) : events d (c :: rest) = some c :: events d rest := by
  cases rest with
  | nil => exact absurd rfl more
  | cons c' rest =>
    rw [events, lines, if_neg plain, if_neg plain']
    cases found : lines d (c' :: rest) with
    | nil => exact absurd found (lines_ne_nil d c' rest)
    | cons line more =>
      simp only [events, found, List.flatMap_cons, List.map_cons, List.cons_append]

@[simp] theorem events_single (c : α) : events d [c] = [some c, none] := rfl

theorem events_lineFeed (rest : List α) :
    events d (d.lineFeed :: rest) = some d.lineFeed :: none :: events d rest := by
  cases rest with
  | nil => rfl
  | cons c rest =>
    rw [events, lines, if_pos rfl]
    rfl

theorem events_carriageReturn {rest : List α} (unpaired : rest.head? ≠ some d.lineFeed) :
    events d (d.carriageReturn :: rest) =
      some d.carriageReturn :: none :: events d rest := by
  cases rest with
  | nil => rfl
  | cons c rest =>
    have other : c ≠ d.lineFeed := fun same => unpaired (congrArg some same)
    rw [events, lines, if_neg d.carriageReturn_ne_lineFeed, if_pos rfl, if_neg other]
    rfl

theorem events_crlf (rest : List α) :
    events d (d.carriageReturn :: d.lineFeed :: rest) =
      some d.carriageReturn :: some d.lineFeed :: none :: events d rest := by
  rw [events, lines, if_neg d.carriageReturn_ne_lineFeed, if_pos rfl, if_pos rfl]
  rfl

end Csv
