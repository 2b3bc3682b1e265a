import DataBridge.Csv.Reader

/-!
# The grammar of delimited records

What the reader accepts, as a grammar: `Field` is one field and its value,
`Row` the fields of a line, `Begins` the records a text begins with and the text
that follows them. `records_of_begins` runs the reader over derivations;
`begins_of_records` finds the derivation behind a run. Between the two stands
`Reading`, what a reader inside a record has read of it.
-/

namespace Csv

variable {α : Type} [DecidableEq α] (d : Dialect α)

/-- A character that ends neither a field nor a line. -/
def Dialect.Ordinary (c : α) : Prop :=
  c ≠ d.delimiter ∧ c ≠ d.lineFeed ∧ c ≠ d.carriageReturn

instance (c : α) : Decidable (d.Ordinary c) := inferInstanceAs (Decidable (_ ∧ _ ∧ _))

/-- A value between quotes: each quote is doubled. -/
def doubled : List α → List α
  | [] => []
  | c :: value => if c = d.quotechar then c :: c :: doubled value else c :: doubled value

/-- The text of a field, and its value. -/
inductive Field : List α → List α → Prop
  | empty : Field [] []
  | bare {c : α} {rest : List α} : c ≠ d.quotechar → (∀ x ∈ c :: rest, d.Ordinary x) →
    Field (c :: rest) (c :: rest)
  | quoted (value : List α) : Field (d.quotechar :: (doubled d value ++ [d.quotechar])) value

/-- Fields that are followed by a delimiter each. -/
inductive Before : List (List α) → List α → Prop
  | nil : Before [] []
  | snoc {fields : List (List α)} {front text value : List α} :
    Before fields front → Field d text value →
    Before (fields ++ [value]) (front ++ (text ++ [d.delimiter]))

/-- The fields of a line that is not blank. -/
inductive Row : List α → List (List α) → Prop
  | mk {fields : List (List α)} {front text value : List α} :
    Before d fields front → Field d text value → Row (front ++ text) (fields ++ [value])

/-- A line without its end; a blank line is a record without fields. -/
def Line (content : List α) (record : List (List α)) : Prop :=
  (content = [] ∧ record = []) ∨ (content ≠ [] ∧ Row d content record)

/-- `e` ends a line in front of `rest`; the last line needs no end. -/
inductive Ends : List α → List α → Prop
  | lineFeed {rest : List α} : Ends [d.lineFeed] rest
  | carriageReturn {rest : List α} : rest.head? ≠ some d.lineFeed → Ends [d.carriageReturn] rest
  | crlf {rest : List α} : Ends [d.carriageReturn, d.lineFeed] rest
  | text : Ends [] []

/-- A text begins with the lines of some records, and `rest` follows them. -/
inductive Begins : List α → List (List (List α)) → List α → Prop
  | nil {rest : List α} : Begins rest [] rest
  | line {content e more rest : List α} {record : List (List α)}
      {records : List (List (List α))} :
    Line d content record → Ends d e more → content ++ e ≠ [] → Begins more records rest →
    Begins (content ++ (e ++ more)) (record :: records) rest

/-- No field is longer than the limit. -/
def Fits (limit : Nat) (record : List (List α)) : Prop := ∀ field ∈ record, field.length ≤ limit

/-! ## Events in the middle of a line -/

/-- The events of the text that follows in the current line. -/
def within (text : List α) : List (Option α) := if text = [] then [none] else events d text

@[simp] theorem within_nil : within d ([] : List α) = [none] := rfl

@[simp] theorem within_cons (c : α) (rest : List α) : within d (c :: rest) = events d (c :: rest) :=
  if_neg (List.cons_ne_nil c rest)

theorem events_plain {c : α} (plain : c ≠ d.lineFeed) (plain' : c ≠ d.carriageReturn)
    (rest : List α) : events d (c :: rest) = some c :: within d rest := by
  cases rest with
  | nil => rfl
  | cons c' rest => rw [events_cons d plain plain' (List.cons_ne_nil c' rest), within_cons]

variable {d} {limit : Nat}

/-- The end of a line in its events. -/
theorem Ends.events {e rest : List α} (ends : Ends d e rest) :
    within d (e ++ rest) = e.map some ++ none :: events d rest := by
  cases ends with
  | lineFeed => exact events_lineFeed d rest
  | carriageReturn unpaired => exact events_carriageReturn d unpaired
  | crlf => exact events_crlf d rest
  | text => rfl

omit [DecidableEq α] in
theorem Ends.mem {e rest : List α} (ends : Ends d e rest) {c : α} (member : c ∈ e) :
    c = d.lineFeed ∨ c = d.carriageReturn := by
  cases ends with
  | lineFeed => exact .inl (List.mem_singleton.mp member)
  | carriageReturn _ => exact .inr (List.mem_singleton.mp member)
  | crlf =>
    rcases List.mem_cons.mp member with same | same
    · exact .inr same
    · exact .inl (List.mem_singleton.mp same)
  | text => cases member

/-- A line end in front of any text. -/
theorem exists_ends {c : α} (ending : c = d.lineFeed ∨ c = d.carriageReturn) (rest : List α) :
    ∃ e more, c :: rest = e ++ more ∧ e ≠ [] ∧ Ends d e more := by
  rcases ending with rfl | rfl
  · exact ⟨[d.lineFeed], rest, rfl, List.cons_ne_nil _ _, .lineFeed⟩
  · by_cases paired : rest.head? = some d.lineFeed
    · cases rest with
      | nil => cases paired
      | cons c rest =>
        obtain rfl : c = d.lineFeed := Option.some.inj paired
        exact ⟨[d.carriageReturn, d.lineFeed], rest, rfl, List.cons_ne_nil _ _, .crlf⟩
    · exact ⟨[d.carriageReturn], rest, rfl, List.cons_ne_nil _ _, .carriageReturn paired⟩

/-! ## Characters, one kind at a time -/

/-- A reader whose current field may end here. -/
def Reader.Closed (r : Reader α) : Prop :=
  r.state = .startField ∨ r.state = .inField ∨ r.state = .quoteInQuotedField

namespace Reader.Closed

variable {r : Reader α} (closed : r.Closed)

include closed

theorem process_none : r.process d limit none = .ok (r.saveField .startRecord) := by
  obtain ⟨state, field, fields⟩ := r
  rcases closed with same | same | same
  all_goals
    cases same
    rfl

theorem process_lineEnd {c : α} (ending : c = d.lineFeed ∨ c = d.carriageReturn) :
    r.process d limit (some c) = .ok (r.saveField .eatCrnl) := by
  have quote : c ≠ d.quotechar := by
    rintro rfl
    exact ending.elim d.quotechar_plain.1 d.quotechar_plain.2.1
  have delimiter : c ≠ d.delimiter := by
    rintro rfl
    exact ending.elim d.delimiter_plain.1 d.delimiter_plain.2
  obtain ⟨state, field, fields⟩ := r
  rcases closed with same | same | same
  all_goals
    cases same
    simp only [process, processStart, if_pos ending, if_neg quote, if_neg delimiter]

theorem process_delimiter :
    r.process d limit (some d.delimiter) = .ok (r.saveField .startField) := by
  have plain : ¬ (d.delimiter = d.lineFeed ∨ d.delimiter = d.carriageReturn) := by
    rintro (same | same)
    · exact d.delimiter_plain.1 same
    · exact d.delimiter_plain.2 same
  have quote : d.delimiter ≠ d.quotechar := fun same => d.quotechar_plain.2.2 same.symm
  obtain ⟨state, field, fields⟩ := r
  rcases closed with same | same | same
  all_goals
    cases same
    simp only [process, processStart, if_neg plain, if_neg quote, if_pos]

/-- The end of the line ends the record. -/
theorem drive_ends {e rest : List α} (ends : Ends d e rest) :
    drive d limit r (within d (e ++ rest)) =
      yielding (r.fields ++ [r.field]) (drive d limit {} (events d rest)) := by
  rw [ends.events]
  cases ends with
  | lineFeed =>
    simp only [List.map_cons, List.map_nil, List.cons_append, List.nil_append, drive,
      closed.process_lineEnd (.inl rfl)]
    rfl
  | carriageReturn _ =>
    simp only [List.map_cons, List.map_nil, List.cons_append, List.nil_append, drive,
      closed.process_lineEnd (.inr rfl)]
    rfl
  | crlf =>
    have eaten : (r.saveField .eatCrnl).process d limit (some d.lineFeed) =
        .ok (r.saveField .eatCrnl) := by
      simp [saveField, process]
    simp only [List.map_cons, List.map_nil, List.cons_append, List.nil_append, drive,
      closed.process_lineEnd (.inr rfl), eaten]
    rfl
  | text =>
    simp only [List.map_nil, List.nil_append, drive, closed.process_none]
    rfl

/-- The delimiter ends the field. -/
theorem drive_delimiter (rest : List α) :
    drive d limit r (within d (d.delimiter :: rest)) =
      drive d limit ⟨.startField, [], r.fields ++ [r.field]⟩ (within d rest) := by
  rw [within_cons, events_plain d d.delimiter_plain.1 d.delimiter_plain.2]
  simp only [drive, closed.process_delimiter]
  rfl

end Reader.Closed

/-- Between quotes the end of a line is data. -/
theorem drive_inQuotedField (field : List α) (fields : List (List α)) (text : List α) :
    drive d limit ⟨.inQuotedField, field, fields⟩ (none :: events d text) =
      drive d limit ⟨.inQuotedField, field, fields⟩ (within d text) := by
  cases text with
  | nil => rfl
  | cons c text =>
    rw [within_cons]
    rfl

theorem drive_quoted_cons (field : List α) (fields : List (List α)) {c : α}
    (data : c ≠ d.quotechar) (rest : List α) :
    drive d limit ⟨.inQuotedField, field, fields⟩ (within d (c :: rest)) =
      if limit ≤ field.length then ([], some .fieldTooLarge)
      else drive d limit ⟨.inQuotedField, field ++ [c], fields⟩ (within d rest) := by
  have step : ∀ later, drive d limit ⟨.inQuotedField, field, fields⟩ (some c :: later) =
      if limit ≤ field.length then ([], some .fieldTooLarge)
      else drive d limit ⟨.inQuotedField, field ++ [c], fields⟩ later := by
    intro later
    simp only [drive, Reader.process, if_neg data, Reader.addChar]
    split_ifs
    · rfl
    · rfl
  by_cases ending : c = d.lineFeed ∨ c = d.carriageReturn
  · obtain ⟨e, more, same, nonempty, ends⟩ := exists_ends ending rest
    rw [same, ends.events]
    cases ends with
    | lineFeed =>
      obtain ⟨rfl, rfl⟩ := List.cons.inj same
      rw [List.map_cons, List.cons_append, step, List.map_nil, List.nil_append,
        drive_inQuotedField]
    | carriageReturn unpaired =>
      obtain ⟨rfl, rfl⟩ := List.cons.inj same
      rw [List.map_cons, List.cons_append, step, List.map_nil, List.nil_append,
        drive_inQuotedField]
    | crlf =>
      obtain ⟨rfl, rfl⟩ := List.cons.inj same
      rw [List.map_cons, List.cons_append, step]
      change _ = if _ then _ else drive d limit _ (within d (d.lineFeed :: more))
      rw [within_cons, events_lineFeed]
      rfl
    | text => exact absurd rfl nonempty
  · rw [not_or] at ending
    rw [within_cons, events_plain d ending.1 ending.2, step]

theorem drive_quote (field : List α) (fields : List (List α)) (rest : List α) :
    drive d limit ⟨.inQuotedField, field, fields⟩ (within d (d.quotechar :: rest)) =
      drive d limit ⟨.quoteInQuotedField, field, fields⟩ (within d rest) := by
  rw [within_cons, events_plain d d.quotechar_plain.1 d.quotechar_plain.2.1]
  simp only [drive, Reader.process, if_pos]

theorem drive_doubledQuote (field : List α) (fields : List (List α)) (rest : List α) :
    drive d limit ⟨.quoteInQuotedField, field, fields⟩ (within d (d.quotechar :: rest)) =
      if limit ≤ field.length then ([], some .fieldTooLarge)
      else drive d limit ⟨.inQuotedField, field ++ [d.quotechar], fields⟩ (within d rest) := by
  rw [within_cons, events_plain d d.quotechar_plain.1 d.quotechar_plain.2.1]
  simp only [drive, Reader.process, if_pos, Reader.addChar]
  split_ifs
  · rfl
  · rfl

theorem drive_openQuote (fields : List (List α)) (rest : List α) :
    drive d limit ⟨.startField, [], fields⟩ (within d (d.quotechar :: rest)) =
      drive d limit ⟨.inQuotedField, [], fields⟩ (within d rest) := by
  rw [within_cons, events_plain d d.quotechar_plain.1 d.quotechar_plain.2.1]
  have plain : ¬ (d.quotechar = d.lineFeed ∨ d.quotechar = d.carriageReturn) := by
    rintro (same | same)
    · exact d.quotechar_plain.1 same
    · exact d.quotechar_plain.2.1 same
  simp only [drive, Reader.process, Reader.processStart, if_neg plain, if_pos]

/-- An ordinary character of a field without quotes. -/
theorem drive_bare {state : ParserState} {field : List α} {fields : List (List α)} {c : α}
    (here : state = .inField ∨ (state = .startField ∧ c ≠ d.quotechar)) (ordinary : d.Ordinary c)
    (rest : List α) :
    drive d limit ⟨state, field, fields⟩ (within d (c :: rest)) =
      if limit ≤ field.length then ([], some .fieldTooLarge)
      else drive d limit ⟨.inField, field ++ [c], fields⟩ (within d rest) := by
  rw [within_cons, events_plain d ordinary.2.1 ordinary.2.2]
  have plain : ¬ (c = d.lineFeed ∨ c = d.carriageReturn) := by
    rintro (same | same)
    · exact ordinary.2.1 same
    · exact ordinary.2.2 same
  rcases here with rfl | ⟨rfl, quote⟩
  · simp only [drive, Reader.process, if_neg plain, if_neg ordinary.1, Reader.addChar]
    split_ifs
    · rfl
    · rfl
  · simp only [drive, Reader.process, Reader.processStart, if_neg plain, if_neg quote,
      if_neg ordinary.1, Reader.addChar]
    split_ifs
    · rfl
    · rfl

/-! ## From a derivation to a run -/

theorem drive_ordinary {text : List α} (ordinary : ∀ x ∈ text, d.Ordinary x) (rest : List α)
    {field : List α} {fields : List (List α)} (fits : field.length + text.length ≤ limit) :
    drive d limit ⟨.inField, field, fields⟩ (within d (text ++ rest)) =
      drive d limit ⟨.inField, field ++ text, fields⟩ (within d rest) := by
  induction text generalizing field with
  | nil => rw [List.nil_append, List.append_nil]
  | cons c text ih =>
    rw [List.length_cons] at fits
    rw [List.cons_append, drive_bare (.inl rfl) (ordinary c List.mem_cons_self), if_neg (by omega),
      ih (fun x member => ordinary x (List.mem_cons_of_mem c member)), List.append_assoc,
      List.singleton_append]
    rw [List.length_append, List.length_singleton]
    omega

theorem drive_doubled (value rest : List α) {field : List α} {fields : List (List α)}
    (fits : field.length + value.length ≤ limit) :
    drive d limit ⟨.inQuotedField, field, fields⟩
        (within d (doubled d value ++ (d.quotechar :: rest))) =
      drive d limit ⟨.quoteInQuotedField, field ++ value, fields⟩ (within d rest) := by
  induction value generalizing field with
  | nil => rw [doubled, List.nil_append, List.append_nil, drive_quote]
  | cons c value ih =>
    rw [List.length_cons] at fits
    have later := @ih (field ++ [c]) (by rw [List.length_append, List.length_singleton]; omega)
    rw [List.append_assoc, List.singleton_append] at later
    rw [doubled]
    split_ifs with quote
    · subst quote
      rw [List.cons_append, List.cons_append, drive_quote, drive_doubledQuote,
        if_neg (by omega), later]
    · rw [List.cons_append, drive_quoted_cons _ _ quote, if_neg (by omega), later]

/-- The reader takes a field and could end it. -/
theorem Field.drive {text value : List α} (written : Field d text value)
    (fits : value.length ≤ limit) (fields : List (List α)) (rest : List α) :
    ∃ state, Reader.Closed ⟨state, value, fields⟩ ∧
      drive d limit ⟨.startField, [], fields⟩ (within d (text ++ rest)) =
        drive d limit ⟨state, value, fields⟩ (within d rest) := by
  cases written with
  | empty => exact ⟨.startField, .inl rfl, rfl⟩
  | bare quote ordinary =>
    rename_i c more
    refine ⟨.inField, .inr (.inl rfl), ?_⟩
    rw [List.length_cons] at fits
    have first := ordinary c List.mem_cons_self
    rw [List.cons_append, drive_bare (.inr ⟨rfl, quote⟩) first, List.length_nil,
      if_neg (by omega), List.nil_append,
      drive_ordinary (fun x member => ordinary x (List.mem_cons_of_mem c member)),
      List.singleton_append]
    rw [List.length_singleton]
    omega
  | quoted =>
    refine ⟨.quoteInQuotedField, .inr (.inr rfl), ?_⟩
    rw [List.cons_append, List.append_assoc, List.singleton_append, drive_openQuote, drive_doubled]
    · rw [List.nil_append]
    · rw [List.length_nil, Nat.zero_add]
      exact fits

theorem Before.drive {fields : List (List α)} {front : List α} (written : Before d fields front)
    (fits : Fits limit fields) (rest : List α) :
    drive d limit ⟨.startField, [], []⟩ (within d (front ++ rest)) =
      drive d limit ⟨.startField, [], fields⟩ (within d rest) := by
  induction written generalizing rest with
  | nil => rfl
  | snoc before field ih =>
    have fits' := fun f member => fits f (List.mem_append_left _ member)
    rw [List.append_assoc, ih fits', List.append_assoc, List.singleton_append]
    obtain ⟨state, closed, run⟩ := field.drive (fits _ (List.mem_append_right _ List.mem_cons_self))
      _ (d.delimiter :: rest)
    rw [run, closed.drive_delimiter]

theorem Row.drive {content : List α} {record : List (List α)} (written : Row d content record)
    (fits : Fits limit record) {e rest : List α} (ends : Ends d e rest) :
    drive d limit ⟨.startField, [], []⟩ (within d (content ++ (e ++ rest))) =
      yielding record (drive d limit {} (events d rest)) := by
  obtain ⟨before, field⟩ := written
  have fits' := fun f member => fits f (List.mem_append_left _ member)
  obtain ⟨state, closed, run⟩ := field.drive (fits _ (List.mem_append_right _ List.mem_cons_self))
    _ (e ++ rest)
  rw [List.append_assoc, before.drive fits', run, closed.drive_ends ends]

theorem Field.head {text value : List α} (written : Field d text value) {c : α}
    (first : text.head? = some c) : c ≠ d.lineFeed ∧ c ≠ d.carriageReturn := by
  cases written with
  | empty => cases first
  | bare _ ordinary =>
    cases first
    exact (ordinary _ List.mem_cons_self).2
  | quoted =>
    cases first
    exact ⟨d.quotechar_plain.1, d.quotechar_plain.2.1⟩

theorem Before.head {fields : List (List α)} {front : List α} (written : Before d fields front)
    {c : α} (first : front.head? = some c) : c ≠ d.lineFeed ∧ c ≠ d.carriageReturn := by
  induction written with
  | nil => cases first
  | snoc before field ih =>
    rename_i fields front text value
    rw [List.head?_append] at first
    cases start : front.head? with
    | some c' =>
      rw [start] at first
      exact ih (start.trans first)
    | none =>
      rw [start, Option.none_or, List.head?_append] at first
      cases start : text.head? with
      | some c' =>
        rw [start] at first
        exact field.head (start.trans first)
      | none =>
        rw [start] at first
        cases first
        exact d.delimiter_plain

/-- A line that is not blank begins with no line end. -/
theorem Row.head {content : List α} {record : List (List α)} (written : Row d content record)
    {c : α} (first : content.head? = some c) : c ≠ d.lineFeed ∧ c ≠ d.carriageReturn := by
  obtain ⟨before, field⟩ := written
  rename_i fields front text value
  rw [List.head?_append] at first
  cases start : front.head? with
  | some c' =>
    rw [start] at first
    exact before.head (start.trans first)
  | none =>
    rw [start, Option.none_or] at first
    exact field.head first

/-- A record that begins with `c` begins a field. -/
theorem drive_start {c : α} (plain : c ≠ d.lineFeed ∧ c ≠ d.carriageReturn) (rest : List α) :
    drive d limit {} (events d (c :: rest)) =
      drive d limit ⟨.startField, [], []⟩ (within d (c :: rest)) := by
  rw [within_cons, events_plain d plain.1 plain.2]
  have other : ¬ (c = d.lineFeed ∨ c = d.carriageReturn) := by
    rintro (same | same)
    · exact plain.1 same
    · exact plain.2 same
  simp only [drive, Reader.process, Reader.processStart, if_neg other]
  rfl

/-- A blank line is a record without fields. -/
theorem drive_blank {e rest : List α} (ends : Ends d e rest) (nonempty : e ≠ []) :
    drive d limit {} (events d (e ++ rest)) = yielding [] (drive d limit {} (events d rest)) := by
  have same : within d (e ++ rest) = events d (e ++ rest) :=
    if_neg fun empty => nonempty (List.append_eq_nil_iff.mp empty).1
  rw [← same, ends.events]
  cases ends with
  | lineFeed => simp [drive, Reader.process]
  | carriageReturn _ => simp [drive, Reader.process]
  | crlf => simp [drive, Reader.process]
  | text => exact absurd rfl nonempty

theorem Line.drive {content e rest : List α} {record : List (List α)}
    (written : Line d content record) (fits : Fits limit record) (ends : Ends d e rest)
    (nonempty : content ++ e ≠ []) :
    drive d limit {} (events d (content ++ (e ++ rest))) =
      yielding record (drive d limit {} (events d rest)) := by
  rcases written with ⟨rfl, rfl⟩ | ⟨filled, row⟩
  · exact drive_blank ends nonempty
  · rw [← row.drive fits ends]
    cases content with
    | nil => exact absurd rfl filled
    | cons c content => exact drive_start (row.head rfl) _

/-- The records a text begins with are what the reader yields first. -/
theorem records_of_begins {text rest : List α} {first : List (List (List α))}
    (begins : Begins d text first rest) (fits : ∀ record ∈ first, Fits limit record) :
    records d limit text = (first ++ (records d limit rest).1, (records d limit rest).2) := by
  rw [records_eq_drive, records_eq_drive]
  induction begins with
  | nil => rfl
  | line written ends nonempty begins ih =>
    rw [written.drive (fits _ List.mem_cons_self) ends nonempty,
      ih fun record member => fits record (List.mem_cons_of_mem _ member)]
    rfl

/-! ## From a run to a derivation -/

/-- What a reader inside a record has read of it. -/
inductive Reading (d : Dialect α) : Reader α → List α → Prop
  | startField {fields : List (List α)} {front : List α} :
    Before d fields front → Reading d ⟨.startField, [], fields⟩ front
  | inField {fields : List (List α)} {front field : List α} :
    Before d fields front → field.head? ≠ some d.quotechar → field ≠ [] →
    (∀ x ∈ field, d.Ordinary x) → Reading d ⟨.inField, field, fields⟩ (front ++ field)
  | inQuotedField {fields : List (List α)} {front field : List α} :
    Before d fields front →
    Reading d ⟨.inQuotedField, field, fields⟩ (front ++ (d.quotechar :: doubled d field))
  | quoteInQuotedField {fields : List (List α)} {front field : List α} :
    Before d fields front →
    Reading d ⟨.quoteInQuotedField, field, fields⟩
      (front ++ (d.quotechar :: (doubled d field ++ [d.quotechar])))

theorem doubled_append (value value' : List α) :
    doubled d (value ++ value') = doubled d value ++ doubled d value' := by
  induction value with
  | nil => rfl
  | cons c value ih =>
    rw [List.cons_append, doubled, doubled, ih]
    split_ifs
    · rfl
    · rfl

/-- A nonempty field without quotes. -/
theorem Field.of_ordinary {field : List α} (unquoted : field.head? ≠ some d.quotechar)
    (ordinary : ∀ x ∈ field, d.Ordinary x) : Field d field field := by
  cases field with
  | nil => exact .empty
  | cons c field => exact .bare (fun same => unquoted (congrArg some same)) ordinary

/-- What the reader has kept is within the limit. -/
def Reader.Bounded (limit : Nat) (r : Reader α) : Prop := Fits limit (r.fields ++ [r.field])

omit [DecidableEq α] in
theorem Reader.Bounded.saved {state : ParserState} {field : List α} {fields : List (List α)}
    (bounded : Reader.Bounded limit ⟨state, field, fields⟩) {next : ParserState} :
    Reader.Bounded limit ⟨next, [], fields ++ [field]⟩ := by
  intro kept member
  rcases List.mem_append.mp member with member | member
  · exact bounded kept member
  · rw [List.mem_singleton.mp member]
    exact Nat.zero_le limit

omit [DecidableEq α] in
theorem Reader.Bounded.added {state next : ParserState} {field : List α}
    {fields : List (List α)} (bounded : Reader.Bounded limit ⟨state, field, fields⟩) {c : α}
    (room : ¬ limit ≤ field.length) : Reader.Bounded limit ⟨next, field ++ [c], fields⟩ := by
  intro kept member
  rcases List.mem_append.mp member with member | member
  · exact bounded kept (List.mem_append_left _ member)
  · rw [List.mem_singleton.mp member, List.length_append, List.length_singleton]
    omega

omit [DecidableEq α] in
theorem Reader.Bounded.same {state next : ParserState} {field : List α} {fields : List (List α)}
    (bounded : Reader.Bounded limit ⟨state, field, fields⟩) :
    Reader.Bounded limit ⟨next, field, fields⟩ := bounded

/-- How a reader inside a record meets the next character: the line ends, or the
reader fails, or it has read one more character. -/
inductive Meets (d : Dialect α) (limit : Nat) (r : Reader α) (front : List α) (c : α) : Prop
  | ends : r.Closed → Row d front (r.fields ++ [r.field]) →
    (c = d.lineFeed ∨ c = d.carriageReturn) → Meets d limit r front c
  | fails (e : Error) : (∀ rest, drive d limit r (within d (c :: rest)) = ([], some e)) →
    Meets d limit r front c
  | reads (r' : Reader α) : Reading d r' (front ++ [c]) → r'.Bounded limit →
    (∀ rest, drive d limit r (within d (c :: rest)) = drive d limit r' (within d rest)) →
    Meets d limit r front c

/-- A character the reader stores, unless the field is full. -/
theorem Meets.stores {r : Reader α} {front : List α} {c : α} {state : ParserState}
    (bounded : r.Bounded limit)
    (run : ∀ rest, drive d limit r (within d (c :: rest)) =
      if limit ≤ r.field.length then ([], some .fieldTooLarge)
      else drive d limit ⟨state, r.field ++ [c], r.fields⟩ (within d rest))
    (reading : Reading d ⟨state, r.field ++ [c], r.fields⟩ (front ++ [c])) :
    Meets d limit r front c := by
  by_cases full : limit ≤ r.field.length
  · exact .fails _ fun rest => by rw [run, if_pos full]
  · exact .reads _ reading (bounded.added full) fun rest => by rw [run, if_neg full]

theorem Reading.meets {r : Reader α} {front : List α} (reading : Reading d r front)
    (bounded : r.Bounded limit) (c : α) : Meets d limit r front c := by
  cases reading with
  | startField before =>
    rename_i fields
    have closed : Reader.Closed ⟨.startField, [], fields⟩ := .inl rfl
    by_cases ending : c = d.lineFeed ∨ c = d.carriageReturn
    · have row : Row d (front ++ []) (fields ++ [[]]) := .mk before .empty
      rw [List.append_nil] at row
      exact .ends closed row ending
    · rw [not_or] at ending
      by_cases quote : c = d.quotechar
      · subst quote
        exact .reads _ (.inQuotedField before) bounded.same (drive_openQuote fields)
      · by_cases delimiter : c = d.delimiter
        · subst delimiter
          exact .reads _ (.startField (.snoc before .empty)) bounded.saved closed.drive_delimiter
        · have ordinary : d.Ordinary c := ⟨delimiter, ending⟩
          refine .stores bounded (drive_bare (.inr ⟨rfl, quote⟩) ordinary) ?_
          refine .inField before (fun same => quote (Option.some.inj same)) (List.cons_ne_nil c [])
            fun x member => ?_
          rw [List.mem_singleton.mp member]
          exact ordinary
  | inField before unquoted begun ordinary =>
    rename_i fields front field
    have closed : Reader.Closed ⟨.inField, field, fields⟩ := .inr (.inl rfl)
    have written := Field.of_ordinary unquoted ordinary
    by_cases ending : c = d.lineFeed ∨ c = d.carriageReturn
    · exact .ends closed (.mk before written) ending
    · rw [not_or] at ending
      by_cases delimiter : c = d.delimiter
      · subst delimiter
        refine .reads _ ?_ bounded.saved closed.drive_delimiter
        rw [List.append_assoc]
        exact .startField (.snoc before written)
      · have last : d.Ordinary c := ⟨delimiter, ending⟩
        refine .stores bounded (drive_bare (.inl rfl) last) ?_
        rw [List.append_assoc]
        refine .inField before ?_ (fun empty => begun (List.append_eq_nil_iff.mp empty).1) ?_
        · cases field with
          | nil => exact absurd rfl begun
          | cons c' field => exact unquoted
        · intro x member
          rcases List.mem_append.mp member with member | member
          · exact ordinary x member
          · rw [List.mem_singleton.mp member]
            exact last
  | inQuotedField before =>
    rename_i fields front field
    by_cases quote : c = d.quotechar
    · subst quote
      refine .reads _ ?_ bounded.same (drive_quote field fields)
      rw [List.append_assoc, List.cons_append]
      exact .quoteInQuotedField before
    · refine .stores bounded (drive_quoted_cons field fields quote) ?_
      have reading : Reading d ⟨.inQuotedField, field ++ [c], fields⟩ _ := .inQuotedField before
      rw [doubled_append, doubled, if_neg quote, doubled] at reading
      rw [List.append_assoc, List.cons_append]
      exact reading
  | quoteInQuotedField before =>
    rename_i fields front field
    have closed : Reader.Closed ⟨.quoteInQuotedField, field, fields⟩ := .inr (.inr rfl)
    by_cases ending : c = d.lineFeed ∨ c = d.carriageReturn
    · exact .ends closed (.mk before (.quoted field)) ending
    · by_cases quote : c = d.quotechar
      · subst quote
        refine .stores bounded (drive_doubledQuote field fields) ?_
        have reading : Reading d ⟨.inQuotedField, field ++ [d.quotechar], fields⟩ _ :=
          .inQuotedField before
        rw [doubled_append, doubled, if_pos rfl, doubled] at reading
        rw [List.append_assoc, List.cons_append, List.append_assoc]
        exact reading
      · by_cases delimiter : c = d.delimiter
        · subst delimiter
          refine .reads _ ?_ bounded.saved closed.drive_delimiter
          rw [List.append_assoc]
          exact .startField (.snoc before (.quoted field))
        · refine .fails .delimiterExpected fun rest => ?_
          rw [not_or] at ending
          have other : ¬ (c = d.lineFeed ∨ c = d.carriageReturn) := not_or.mpr ending
          rw [within_cons, events_plain d ending.1 ending.2]
          simp only [drive, Reader.process, if_neg quote, if_neg delimiter, if_neg other]

/-- A reader inside a record fails, or reads the rest of the row and its line end. -/
theorem Reading.run {r : Reader α} {front : List α} (reading : Reading d r front)
    (bounded : r.Bounded limit) (text : List α) :
    (∃ e, drive d limit r (within d text) = ([], some e)) ∨
      ∃ content e rest record, text = content ++ (e ++ rest) ∧ Ends d e rest ∧
        Row d (front ++ content) record ∧ Fits limit record ∧
        drive d limit r (within d text) = yielding record (drive d limit {} (events d rest)) := by
  induction text generalizing r front with
  | nil =>
    cases reading with
    | inQuotedField before => exact .inl ⟨.unexpectedEnd, by simp [drive, Reader.process, Reader.atEnd]⟩
    | startField before =>
      refine .inr ⟨[], [], [], _, rfl, .text, .mk before .empty, bounded, ?_⟩
      exact Reader.Closed.drive_ends (.inl rfl) .text
    | inField before unquoted begun ordinary =>
      refine .inr ⟨[], [], [], _, rfl, .text, ?_, bounded, ?_⟩
      · rw [List.append_nil]
        exact .mk before (.of_ordinary unquoted ordinary)
      · exact Reader.Closed.drive_ends (.inr (.inl rfl)) .text
    | quoteInQuotedField before =>
      refine .inr ⟨[], [], [], _, rfl, .text, ?_, bounded, ?_⟩
      · rw [List.append_nil]
        exact .mk before (.quoted _)
      · exact Reader.Closed.drive_ends (.inr (.inr rfl)) .text
  | cons c text ih =>
    cases reading.meets bounded c with
    | ends closed row ending =>
      obtain ⟨e, rest, same, nonempty, ends⟩ := exists_ends ending text
      refine .inr ⟨[], e, rest, _, same, ends, ?_, bounded, ?_⟩
      · rw [List.append_nil]
        exact row
      · rw [same]
        exact closed.drive_ends ends
    | fails e run => exact .inl ⟨e, run text⟩
    | reads r' reading' bounded' run =>
      rw [run]
      rcases ih reading' bounded' with failed | ⟨content, e, rest, record, same, ends, row, fits, go⟩
      · exact .inl failed
      · refine .inr ⟨c :: content, e, rest, record, ?_, ends, ?_, fits, go⟩
        · rw [same]
          rfl
        · rw [List.append_assoc] at row
          exact row

/-- One record: the reader at the start of one is done, fails, or reads a line. -/
theorem records_cases (d : Dialect α) (limit : Nat) (text : List α) :
    (text = [] ∧ records d limit text = ([], none)) ∨
      (∃ e, records d limit text = ([], some e)) ∨
      ∃ content e rest record, text = content ++ (e ++ rest) ∧ Ends d e rest ∧
        Line d content record ∧ content ++ e ≠ [] ∧ Fits limit record ∧
        records d limit text = yielding record (records d limit rest) := by
  simp only [records_eq_drive]
  cases text with
  | nil => exact .inl ⟨rfl, by simp [drive, Reader.atEnd]⟩
  | cons c text =>
    refine .inr ?_
    by_cases ending : c = d.lineFeed ∨ c = d.carriageReturn
    · obtain ⟨e, rest, same, nonempty, ends⟩ := exists_ends ending text
      refine .inr ⟨[], e, rest, [], same, ends, .inl ⟨rfl, rfl⟩, nonempty, ?_, ?_⟩
      · exact fun _ member => (List.not_mem_nil member).elim
      · rw [same]
        exact drive_blank ends nonempty
    · rw [not_or] at ending
      rw [drive_start ending]
      have bounded : Reader.Bounded limit ⟨.startField, ([] : List α), []⟩ := by
        intro field member
        rw [List.nil_append] at member
        rw [List.mem_singleton.mp member]
        exact Nat.zero_le limit
      rcases (Reading.startField (d := d) .nil).run bounded (c :: text) with
        failed | ⟨content, e, rest, record, same, ends, row, fits, run⟩
      · exact .inl failed
      · rw [List.nil_append] at row
        have filled : content ≠ [] := by
          rintro rfl
          cases e with
          | nil =>
            cases ends
            cases same
          | cons c' e =>
            obtain rfl : c = c' := (List.cons.inj same).1
            exact (ends.mem List.mem_cons_self).elim ending.1 ending.2
        refine .inr ⟨content, e, rest, record, same, ends, .inr ⟨filled, row⟩, ?_, fits, run⟩
        exact fun empty => filled (List.append_eq_nil_iff.mp empty).1

/-- The records the reader yields first are records the text begins with. -/
theorem begins_of_records {text : List α} {first later : List (List (List α))}
    {err : Option Error} (yields : records d limit text = (first ++ later, err)) :
    ∃ rest, Begins d text first rest ∧ (∀ record ∈ first, Fits limit record) ∧
      records d limit rest = (later, err) := by
  induction first generalizing text with
  | nil => exact ⟨text, .nil, fun _ member => (List.not_mem_nil member).elim, yields⟩
  | cons record first ih =>
    rcases records_cases d limit text with
      ⟨-, none⟩ | ⟨e, failed⟩ | ⟨content, e, more, record', same, ends, line, nonempty, fits, run⟩
    · rw [none] at yields
      cases yields
    · rw [failed] at yields
      cases yields
    · rw [run] at yields
      obtain ⟨heads, ended⟩ := Prod.mk.inj yields
      obtain ⟨rfl, tails⟩ := List.cons.inj heads
      have yields' : records d limit more = (first ++ later, err) := Prod.ext tails ended
      obtain ⟨rest, begins, fits', last⟩ := ih yields'
      refine ⟨rest, same ▸ .line line ends nonempty begins, ?_, last⟩
      intro other member
      rcases List.mem_cons.mp member with rfl | member
      · exact fits
      · exact fits' other member

/-- A text that yields no record and no error is empty. -/
theorem eq_nil_of_records {text : List α} (none : records d limit text = ([], none)) :
    text = [] := by
  rcases records_cases d limit text with
    ⟨empty, -⟩ | ⟨e, failed⟩ | ⟨_, _, _, _, -, -, -, -, -, run⟩
  · exact empty
  · rw [failed] at none
    cases none
  · rw [run] at none
    cases none

/-- The reader reads a whole text exactly when the grammar derives it. -/
theorem records_eq_iff {text : List α} {all : List (List (List α))} :
    records d limit text = (all, none) ↔
      Begins d text all [] ∧ ∀ record ∈ all, Fits limit record := by
  constructor
  · intro yields
    rw [← List.append_nil all] at yields
    obtain ⟨rest, begins, fits, last⟩ := begins_of_records yields
    rw [eq_nil_of_records last] at begins
    exact ⟨begins, fits⟩
  · rintro ⟨begins, fits⟩
    rw [records_of_begins begins fits]
    simp [records_eq_drive, drive, Reader.atEnd]

end Csv
