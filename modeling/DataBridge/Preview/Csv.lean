import DataBridge.Csv.Texts
import DataBridge.Dict
import DataBridge.Preview.Json
import DataBridge.Preview.ReadPrefix

/-!
# Previews of CSV files

`_csv_rows` reads a header and rows with Python's `csv.reader` in strict mode. Of a
file that the budget cuts it reads the complete lines only, and what it answers
from them stays the answer whatever the rest of the file holds
(`csvRows_continues`). `csvRows_ok_iff` says which texts are accepted with which
rows, in terms of the grammar of the reader.
-/

namespace DataBridge

/-- The dialect `excel`, the default of `csv.reader`. -/
def excel : Csv.Dialect CodePoint where
  delimiter := .ofChar ','
  quotechar := .ofChar '"'
  lineFeed := .ofChar '\n'
  carriageReturn := .ofChar '\r'
  distinct := by decide

/-- `csv.field_size_limit()`, once the module has raised what it was. -/
def fieldSizeLimit (current : Nat) : Nat := max current maxPreviewBytes

/-- `text.rfind(c)`, for one character. -/
def rfind (c : CodePoint) : Text → Int
  | [] => -1
  | first :: rest =>
    if 0 ≤ rfind c rest then rfind c rest + 1 else if first = c then 0 else -1

/-- The text through its last line end. -/
def completeLines (text : Text) : Text :=
  text.take (max (rfind (.ofChar '\n') text) (rfind (.ofChar '\r') text) + 1).toNat

def csvHeader : Exc := malformed "CSV must have a unique, nonempty header"

def csvMismatch : Exc := malformed "A CSV row does not match its header"

def csvExceeds (message : String) : Exc := .ofCode .previewLimitExceeded (lit message)

/-- What a `csv.Error` is raised as. -/
def csvUnparsed (atLimit : Bool) : Exc :=
  .ofCode (if atLimit then .previewLimitExceeded else .malformedFile)
    (lit "The CSV preview cannot be parsed within the byte limit")

/-- The loop over the records after the header; the flag says that it was left
because it had `limit` rows. -/
def csvLoop (header : List Text) (limit : Nat) :
    List (List Text) → List (Dict Text Text) → Except Exc (List (Dict Text Text) × Bool)
  | [], rows => .ok (rows, false)
  | values :: records, rows =>
    if values = [] then csvLoop header limit records rows
    else if values.length ≠ header.length then .error csvMismatch
    else if (rows ++ [Dict.ofItems (header.zip values)]).length = limit then
      .ok (rows ++ [Dict.ofItems (header.zip values)], true)
    else csvLoop header limit records (rows ++ [Dict.ofItems (header.zip values)])

/-- `_csv_rows` over what the reader yields. -/
def csvPreview (limit : Nat) (atLimit : Bool) :
    List (List Text) × Option Csv.Error → Except Exc (List Text × List (Dict Text Text))
  | ([], some _) => .error (csvUnparsed atLimit)
  | ([], none) =>
    if atLimit then .error (csvExceeds "The CSV header exceeds the preview byte limit")
    else .error csvHeader
  | (header :: records, failure) =>
    if header = [] ∨ [] ∈ header ∨ ¬ header.Nodup then .error csvHeader
    else
      match csvLoop header limit records [] with
      | .error e => .error e
      | .ok (rows, full) =>
        if full = false ∧ failure.isSome then .error (csvUnparsed atLimit)
        else if atLimit ∧ rows.length < limit then
          .error (csvExceeds "The CSV preview exceeds the byte limit")
        else .ok (header, rows)

/-- The text that is parsed. -/
def csvSource (text : Text) (atLimit : Bool) : Text := if atLimit then completeLines text else text

/-- `_csv_rows`; `current` is the limit of the csv module when this module is imported. -/
def csvRows (current : Nat) (text : Text) (limit : Nat) (atLimit : Bool) :
    Except Exc (List Text × List (Dict Text Text)) :=
  csvPreview limit atLimit (Csv.records excel (fieldSizeLimit current) (csvSource text atLimit))

/-! ## The complete lines of a text -/

theorem rfind_nonneg_iff (c : CodePoint) (text : Text) : 0 ≤ rfind c text ↔ c ∈ text := by
  induction text with
  | nil => simp [rfind]
  | cons first rest ih =>
    rw [rfind]
    split_ifs with later here
    · simp only [List.mem_cons, ih.mp later, or_true, iff_true]
      omega
    · simp [here]
    · have absent : c ∉ rest := fun member => later (ih.mpr member)
      simp [absent, Ne.symm here]

theorem rfind_bound (c : CodePoint) (text : Text) :
    -1 ≤ rfind c text ∧ rfind c text < text.length := by
  induction text with
  | nil => simp [rfind]
  | cons first rest ih =>
    rw [rfind, List.length_cons, Nat.cast_succ]
    split_ifs
    · omega
    · omega
    · omega

/-- The character found is the one looked for. -/
theorem getElem?_rfind {c : CodePoint} {text : Text} (found : 0 ≤ rfind c text) :
    text[(rfind c text).toNat]? = some c := by
  induction text with
  | nil => simp [rfind] at found
  | cons first rest ih =>
    rw [rfind] at found ⊢
    split_ifs at found ⊢ with later here
    · have next : (rfind c rest + 1).toNat = (rfind c rest).toNat + 1 := by omega
      rw [next, List.getElem?_cons_succ]
      exact ih later
    · rw [here]
      rfl
    · exact absurd found (by decide)

theorem rfind_le_append (c : CodePoint) (text more : Text) :
    rfind c text ≤ rfind c (text ++ more) := by
  induction text with
  | nil => exact (rfind_bound c more).1
  | cons first rest ih =>
    rw [List.cons_append, rfind, rfind]
    split_ifs
    · omega
    · omega
    · omega
    · omega
    · omega
    · omega
    · exact Int.le_refl (-1)

theorem endsLine_completeLines (text : Text) : Csv.EndsLine excel (completeLines text) := by
  intro c final
  rw [Option.mem_def, completeLines, List.getLast?_take] at final
  split_ifs at final with none
  have feed := rfind_bound (.ofChar '\n') text
  have back := rfind_bound (.ofChar '\r') text
  rcases le_total (rfind (.ofChar '\r') text) (rfind (.ofChar '\n') text) with less | less
  · rw [max_eq_left less] at final none
    have some : 0 ≤ rfind (.ofChar '\n') text := by omega
    have found := getElem?_rfind some
    have index : (rfind (.ofChar '\n') text + 1).toNat - 1 = (rfind (.ofChar '\n') text).toNat := by
      omega
    rw [index, found, Option.some_or] at final
    exact .inl (Option.some.inj final).symm
  · rw [max_eq_right less] at final none
    have some : 0 ≤ rfind (.ofChar '\r') text := by omega
    have found := getElem?_rfind some
    have index : (rfind (.ofChar '\r') text + 1).toNat - 1 = (rfind (.ofChar '\r') text).toNat := by
      omega
    rw [index, found, Option.some_or] at final
    exact .inr (Option.some.inj final).symm

/-- The complete lines come first in whatever the text goes on to. -/
theorem completeLines_prefix (text more : Text) (atLimit : Bool) :
    ∃ rest, csvSource (text ++ more) atLimit = completeLines text ++ rest := by
  have inside : completeLines text <+: text ++ more :=
    (List.take_prefix _ text).trans (List.prefix_append text more)
  cases atLimit with
  | false =>
    obtain ⟨rest, same⟩ := inside
    exact ⟨rest, same.symm⟩
  | true =>
    have fewer : (completeLines text).length ≤ (completeLines (text ++ more)).length := by
      have feed := rfind_le_append (.ofChar '\n') text more
      have back := rfind_le_append (.ofChar '\r') text more
      have feed' := rfind_bound (.ofChar '\n') (text ++ more)
      have back' := rfind_bound (.ofChar '\r') (text ++ more)
      rw [completeLines, completeLines, List.length_take, List.length_take]
      omega
    have prefixes : completeLines text <+: completeLines (text ++ more) :=
      List.prefix_of_prefix_length_le inside (List.take_prefix _ _) fewer
    obtain ⟨rest, same⟩ := prefixes
    exact ⟨rest, same.symm⟩

/-! ## The loop over the records -/

variable {header : List Text} {limit : Nat}

theorem csvLoop_append (records later : List (List Text)) (rows : List (Dict Text Text)) :
    csvLoop header limit (records ++ later) rows =
      match csvLoop header limit records rows with
      | .ok (rows, false) => csvLoop header limit later rows
      | result => result := by
  induction records generalizing rows with
  | nil => rfl
  | cons values records ih =>
    rw [List.cons_append, csvLoop, csvLoop]
    split_ifs
    · exact ih rows
    · rfl
    · rfl
    · exact ih _

/-- The loop is left with `limit` rows, or has fewer when the records end. -/
theorem length_csvLoop {records : List (List Text)} {rows rows' : List (Dict Text Text)}
    {full : Bool} (room : rows.length < limit)
    (loop : csvLoop header limit records rows = .ok (rows', full)) :
    if full then rows'.length = limit else rows'.length < limit := by
  induction records generalizing rows with
  | nil =>
    cases loop
    exact room
  | cons values records ih =>
    rw [csvLoop] at loop
    split_ifs at loop with blank mismatch last
    · exact ih room loop
    · cases loop
      exact last
    · rw [List.length_append, List.length_singleton] at last
      refine ih ?_ loop
      rw [List.length_append, List.length_singleton]
      omega

/-- More records behind those of a cut text change no answer but the one that the
budget is too small. -/
theorem csvPreview_prefix (asked : 0 < limit)
    {yielded yielded' : List (List Text) × Option Csv.Error} (first : yielded.1 <+: yielded'.1)
    (atLimit : Bool) :
    (∃ message, csvPreview limit true yielded = .error (.ofCode .previewLimitExceeded message)) ∨
      csvPreview limit atLimit yielded' = csvPreview limit true yielded := by
  obtain ⟨records, failure⟩ := yielded
  obtain ⟨records', failure'⟩ := yielded'
  obtain ⟨later, rfl⟩ := first
  cases records with
  | nil =>
    cases failure with
    | none => exact .inl ⟨_, rfl⟩
    | some e => exact .inl ⟨_, rfl⟩
  | cons header records =>
    simp only [csvPreview, List.cons_append]
    split_ifs with bad
    · exact .inr rfl
    · rw [csvLoop_append]
      cases loop : csvLoop header limit records [] with
      | error e => exact .inr rfl
      | ok result =>
        obtain ⟨rows, full⟩ := result
        have size := length_csvLoop (by exact asked) loop
        cases full with
        | true =>
          have enough : ¬ rows.length < limit := by
            rw [if_pos rfl] at size
            omega
          simp [enough]
        | false =>
          rw [if_neg Bool.false_ne_true] at size
          refine .inl ?_
          cases failure with
          | none => exact ⟨_, by simp [size, csvExceeds]; rfl⟩
          | some e => exact ⟨_, by simp [csvUnparsed]; rfl⟩

/-- What a file cut by the budget is answered with stays the answer however the
file goes on, unless the answer is that the budget is too small. -/
theorem csvRows_continues (current : Nat) (text : Text) {limit : Nat} (asked : 0 < limit) :
    (∃ message, csvRows current text limit true = .error (.ofCode .previewLimitExceeded message)) ∨
      ∀ more atLimit, csvRows current (text ++ more) limit atLimit = csvRows current text limit true := by
  by_cases exceeded : ∃ message, csvRows current text limit true =
      .error (.ofCode .previewLimitExceeded message)
  · exact .inl exceeded
  · refine .inr fun more atLimit => ?_
    obtain ⟨rest, source⟩ := completeLines_prefix text more atLimit
    have first : (Csv.records excel (fieldSizeLimit current) (completeLines text)).1 <+:
        (Csv.records excel (fieldSizeLimit current) (csvSource (text ++ more) atLimit)).1 := by
      rw [source]
      exact Csv.records_prefix (endsLine_completeLines text) rest
    rcases csvPreview_prefix asked first atLimit with exceeded' | same
    · exact absurd exceeded' exceeded
    · exact same

/-- A file of two rows, cut inside the second. -/
theorem csvRows_continues_cut :
    csvRows 0 (lit "a\n1\n2" ++ lit "\"") 1 false = .ok ([lit "a"], [[(lit "a", lit "1")]]) := by
  have answer : csvRows 0 (lit "a\n1\n2") 1 true = .ok ([lit "a"], [[(lit "a", lit "1")]]) := by
    decide +kernel
  rcases csvRows_continues 0 (lit "a\n1\n2") Nat.one_pos with ⟨message, exceeded⟩ | same
  · rw [answer] at exceeded
    cases exceeded
  · rw [← answer]
    exact same (lit "\"") false

/-! ## What is accepted -/

/-- The rows of a preview: the records that are not blank, under the header. -/
def csvRowsOf (header : List Text) (records : List (List Text)) : List (Dict Text Text) :=
  (records.filter (· ≠ [])).map header.zip

/-- Every record that is not blank has a value for each column. -/
def CsvMatches (header : List Text) (records : List (List Text)) : Prop :=
  ∀ values ∈ records, values = [] ∨ values.length = header.length

theorem csvRowsOf_append (records later : List (List Text)) :
    csvRowsOf header (records ++ later) = csvRowsOf header records ++ csvRowsOf header later := by
  simp only [csvRowsOf, List.filter_append, List.map_append]

/-- Under distinct names a row is the names with the values. -/
theorem ofItems_zip (distinct : header.Nodup) (values : List Text)
    (fits : values.length = header.length) :
    Dict.ofItems (header.zip values) = header.zip values := by
  apply Dict.ofItems_of_nodup
  rw [Dict.keys, List.map_fst_zip (by omega)]
  exact distinct

theorem csvRowsOf_cons (values : List Text) (records : List (List Text)) :
    csvRowsOf header (values :: records) =
      if values = [] then csvRowsOf header records
      else header.zip values :: csvRowsOf header records := by
  unfold csvRowsOf
  split_ifs with blank
  · rw [List.filter_cons_of_neg (by simp [blank])]
  · rw [List.filter_cons_of_pos (by simp [blank]), List.map_cons]

/-- The loop takes matching records, up to the row limit. -/
theorem csvLoop_of_matches (distinct : header.Nodup) {records : List (List Text)}
    (suited : CsvMatches header records) {rows : List (Dict Text Text)} (room : rows.length < limit)
    (most : rows.length + (csvRowsOf header records).length ≤ limit) :
    csvLoop header limit records rows = .ok (rows ++ csvRowsOf header records,
      decide (rows.length + (csvRowsOf header records).length = limit)) := by
  induction records generalizing rows with
  | nil =>
    have fewer : ¬ rows.length + 0 = limit := by omega
    rw [csvLoop, csvRowsOf, List.filter_nil, List.map_nil, List.append_nil, List.length_nil,
      decide_eq_false fewer]
  | cons values records ih =>
    have suited' : CsvMatches header records := fun v member =>
      suited v (List.mem_cons_of_mem values member)
    rw [csvRowsOf_cons] at most ⊢
    rw [csvLoop]
    rcases suited values List.mem_cons_self with blank | fits
    · rw [if_pos blank] at most ⊢
      rw [if_pos blank]
      exact ih suited' room most
    · by_cases blank : values = []
      · rw [if_pos blank] at most ⊢
        rw [if_pos blank]
        exact ih suited' room most
      · rw [if_neg blank, List.length_cons] at most
        rw [if_neg blank, if_neg blank, if_neg (not_not_intro fits), ofItems_zip distinct values fits,
          List.length_cons, List.length_append, List.length_singleton]
        split_ifs with last
        · have none : csvRowsOf header records = [] := List.eq_nil_of_length_eq_zero (by omega)
          rw [none, List.length_nil, decide_eq_true (by omega)]
        · have length : (rows ++ [header.zip values]).length = rows.length + 1 := by
            rw [List.length_append, List.length_singleton]
          rw [ih suited' (by omega) (by omega), length, List.append_assoc, List.singleton_append,
            Nat.add_assoc, Nat.add_comm 1]

/-- The rows of the loop are those of the records it has taken. -/
theorem csvRowsOf_of_csvLoop (distinct : header.Nodup) {records : List (List Text)}
    {rows rows' : List (Dict Text Text)} {full : Bool}
    (loop : csvLoop header limit records rows = .ok (rows', full)) :
    ∃ first later, records = first ++ later ∧ CsvMatches header first ∧
      rows' = rows ++ csvRowsOf header first ∧ (full = false → later = []) := by
  induction records generalizing rows with
  | nil =>
    cases loop
    exact ⟨[], [], rfl, fun _ member => (List.not_mem_nil member).elim, (List.append_nil _).symm,
      fun _ => rfl⟩
  | cons values records ih =>
    rw [csvLoop] at loop
    split_ifs at loop with blank mismatch last
    · obtain ⟨first, later, rfl, suited, taken, all⟩ := ih loop
      refine ⟨values :: first, later, rfl, ?_, ?_, all⟩
      · intro v member
        rcases List.mem_cons.mp member with rfl | member
        · exact .inl blank
        · exact suited v member
      · rw [taken, csvRowsOf_cons, if_pos blank]
    · rw [not_not] at mismatch
      rw [ofItems_zip distinct values mismatch] at loop
      cases loop
      refine ⟨[values], records, rfl, ?_, ?_, ?_⟩
      · intro v member
        rw [List.mem_singleton.mp member]
        exact .inr mismatch
      · rw [csvRowsOf_cons, if_neg blank]
        rfl
      · intro impossible
        cases impossible
    · rw [not_not] at mismatch
      rw [ofItems_zip distinct values mismatch] at loop
      obtain ⟨first, later, rfl, suited, taken, all⟩ := ih loop
      refine ⟨values :: first, later, rfl, ?_, ?_, all⟩
      · intro v member
        rcases List.mem_cons.mp member with rfl | member
        · exact .inr mismatch
        · exact suited v member
      · rw [taken, csvRowsOf_cons, if_neg blank, List.append_assoc, List.singleton_append]

/-- A header is a unique, nonempty list of nonempty names. -/
def CsvHeader (header : List Text) : Prop := header ≠ [] ∧ [] ∉ header ∧ header.Nodup

instance (header : List Text) : Decidable (CsvHeader header) :=
  inferInstanceAs (Decidable (_ ∧ _ ∧ _))

theorem csvPreview_ok_iff (asked : 0 < limit) {atLimit : Bool}
    {yielded : List (List Text) × Option Csv.Error} {rows : List (Dict Text Text)} :
    csvPreview limit atLimit yielded = .ok (header, rows) ↔
      CsvHeader header ∧ ∃ first later, yielded.1 = header :: (first ++ later) ∧
        CsvMatches header first ∧ rows = csvRowsOf header first ∧ rows.length ≤ limit ∧
        ((atLimit = false ∧ later = [] ∧ yielded.2 = none) ∨ rows.length = limit) := by
  obtain ⟨records, failure⟩ := yielded
  cases records with
  | nil =>
    have never : csvPreview limit atLimit (([] : List (List Text)), failure) ≠ .ok (header, rows) := by
      cases failure with
      | none =>
        rw [csvPreview]
        split_ifs
        · intro same
          cases same
        · intro same
          cases same
      | some e =>
        intro same
        cases same
    constructor
    · exact fun same => absurd same never
    · rintro ⟨-, first, later, same, -⟩
      cases same
  | cons header' records =>
    rw [csvPreview]
    constructor
    · intro accepted
      split_ifs at accepted with bad
      have good : CsvHeader header' := by
        rw [not_or, not_or, not_not] at bad
        exact bad
      cases loop : csvLoop header' limit records [] with
      | error e =>
        rw [loop] at accepted
        cases accepted
      | ok result =>
        obtain ⟨rows', full⟩ := result
        have size := length_csvLoop (by exact asked) loop
        obtain ⟨first, later, split, suited, taken, all⟩ := csvRowsOf_of_csvLoop good.2.2 loop
        rw [loop] at accepted
        dsimp only at accepted
        split_ifs at accepted with unparsed short
        cases accepted
        refine ⟨good, first, later, by rw [split], suited, taken, ?_⟩
        cases full with
        | true =>
          rw [if_pos rfl] at size
          exact ⟨size.le, .inr size⟩
        | false =>
          rw [if_neg Bool.false_ne_true] at size
          refine ⟨size.le, .inl ⟨?_, all rfl, ?_⟩⟩
          · cases atLimit with
            | false => rfl
            | true => exact absurd ⟨rfl, size⟩ short
          · cases failure with
            | none => rfl
            | some e => exact absurd ⟨rfl, rfl⟩ unparsed
    · rintro ⟨good, first, later, same, suited, rfl, most, whole⟩
      obtain ⟨rfl, rfl⟩ := List.cons.inj same
      have fine : ¬ (header' = [] ∨ [] ∈ header' ∨ ¬ header'.Nodup) := by
        rw [not_or, not_or, not_not]
        exact good
      have room : ([] : List (Dict Text Text)).length + (csvRowsOf header' first).length ≤ limit := by
        rw [List.length_nil, Nat.zero_add]
        exact most
      have loop := csvLoop_of_matches good.2.2 suited asked room
      rw [List.nil_append, List.length_nil, Nat.zero_add] at loop
      rw [if_neg fine, csvLoop_append, loop]
      rcases whole with ⟨rfl, rfl, ended⟩ | enough
      · dsimp only at ended
        subst ended
        by_cases enough : (csvRowsOf header' first).length = limit
        · simp [enough]
        · simp [enough, csvLoop]
      · have full : ¬ (csvRowsOf header' first).length < limit := by omega
        simp [enough]

/-- Which texts are accepted, and with which header and rows: those that begin with a
header line and rows that match it, up to the limit or to the end of the text. Of a
file cut by the budget only the complete lines count, and they must give `limit` rows. -/
theorem csvRows_ok_iff (current : Nat) {text : Text} (budget : text.length ≤ maxPreviewBytes)
    {limit : Nat} (asked : 0 < limit) (atLimit : Bool) (header : List Text)
    (rows : List (Dict Text Text)) :
    csvRows current text limit atLimit = .ok (header, rows) ↔
      CsvHeader header ∧ ∃ records rest,
        Csv.Begins excel (csvSource text atLimit) (header :: records) rest ∧
        CsvMatches header records ∧ rows = csvRowsOf header records ∧ rows.length ≤ limit ∧
        ((atLimit = false ∧ rest = []) ∨ rows.length = limit) := by
  have small : (csvSource text atLimit).length ≤ fieldSizeLimit current := by
    have shorter : (csvSource text atLimit).length ≤ text.length := by
      cases atLimit with
      | false => exact Nat.le_refl _
      | true => exact List.length_take_le' _ _
    exact shorter.trans (budget.trans (le_max_right current maxPreviewBytes))
  rw [csvRows, csvPreview_ok_iff asked]
  constructor
  · rintro ⟨good, first, later, yields, suited, taken, most, whole⟩
    have split : Csv.records excel (fieldSizeLimit current) (csvSource text atLimit) =
        ((header :: first) ++ later,
          (Csv.records excel (fieldSizeLimit current) (csvSource text atLimit)).2) :=
      Prod.ext yields rfl
    obtain ⟨rest, begins, -, ended⟩ := Csv.begins_of_records split
    refine ⟨good, first, rest, begins, suited, taken, most, ?_⟩
    rcases whole with ⟨complete, rfl, none⟩ | enough
    · exact .inl ⟨complete, Csv.eq_nil_of_records (ended.trans (congrArg (Prod.mk []) none))⟩
    · exact .inr enough
  · rintro ⟨good, records, rest, begins, suited, taken, most, whole⟩
    have fits : ∀ record ∈ header :: records, Csv.Fits (fieldSizeLimit current) record :=
      fun record member field inside => (begins.fits record member field inside).trans small
    have yields := Csv.records_of_begins begins fits
    refine ⟨good, records, (Csv.records excel (fieldSizeLimit current) rest).1, ?_, suited, taken, most,
      ?_⟩
    · rw [yields]
      rfl
    · rcases whole with ⟨complete, rfl⟩ | enough
      · refine .inl ⟨complete, rfl, ?_⟩
        rw [yields]
        rfl
      · exact .inr enough

/-- A complete file of one row with a quoted delimiter and a blank line. -/
theorem csvRows_ok_iff_quoted :
    ∃ records rest, Csv.Begins excel (lit "a,b\n\n\"1,\"\"2\",\n") ([lit "a", lit "b"] :: records) rest ∧
      CsvMatches [lit "a", lit "b"] records ∧
      [[(lit "a", lit "1,\"2"), (lit "b", lit "")]] = csvRowsOf [lit "a", lit "b"] records := by
  have read : csvRows 0 (lit "a,b\n\n\"1,\"\"2\",\n") 5 false =
      .ok ([lit "a", lit "b"], [[(lit "a", lit "1,\"2"), (lit "b", lit "")]]) := by
    decide +kernel
  obtain ⟨-, records, rest, begins, suited, taken, -, -⟩ :=
    (csvRows_ok_iff 0 (by decide +kernel) (by decide) false _ _).mp read
  exact ⟨records, rest, begins, suited, taken⟩

/-- A table that was written with quotes where they are needed, and anywhere else, is
read back: its header and its first rows. -/
theorem csvRows_write (current : Nat) {quoted : Text → Bool}
    (needed : ∀ value, Csv.NeedsQuotes excel value → quoted value = true) {e : Text}
    (ending : e = lit "\n" ∨ e = lit "\r" ∨ e = lit "\r\n") {header : List Text}
    (good : CsvHeader header) {table : List (List Text)}
    (suited : ∀ values ∈ table, values.length = header.length)
    (visible : ∀ values ∈ table, values = [[]] → quoted [] = true)
    (budget : (Csv.write excel quoted e (header :: table)).length ≤ maxPreviewBytes)
    {limit : Nat} (asked : 0 < limit) :
    csvRows current (Csv.write excel quoted e (header :: table)) limit false =
      .ok (header, (table.take limit).map header.zip) := by
  have filled : ∀ row ∈ header :: table, row ≠ [] := by
    intro row member
    rcases List.mem_cons.mp member with rfl | member
    · exact good.1
    · intro empty
      have length := suited row member
      rw [empty, List.length_nil] at length
      exact good.1 (List.eq_nil_of_length_eq_zero length.symm)
  have named : ∀ row ∈ header :: table, row = [[]] → quoted [] = true := by
    intro row member
    rcases List.mem_cons.mp member with rfl | member
    · intro single
      exact absurd (single ▸ List.mem_cons_self) good.2.1
    · exact visible row member
  have begins := Csv.begins_write needed ending filled named
  have full : ∀ rows : List (List Text), (∀ row ∈ rows, row ∈ table) →
      CsvMatches header rows ∧ csvRowsOf header rows = rows.map header.zip := by
    intro rows inTable
    refine ⟨fun row member => .inr (suited row (inTable row member)), ?_⟩
    rw [csvRowsOf, List.filter_eq_self.mpr]
    intro row member
    exact decide_eq_true (filled row (List.mem_cons_of_mem header (inTable row member)))
  rw [csvRows_ok_iff current budget asked]
  refine ⟨good, ?_⟩
  by_cases short : table.length ≤ limit
  · obtain ⟨fits, rows⟩ := full table fun _ member => member
    rw [List.take_of_length_le short, ← rows]
    refine ⟨table, [], begins, fits, rfl, ?_, .inl ⟨rfl, rfl⟩⟩
    rw [rows, List.length_map]
    exact short
  · obtain ⟨fits, rows⟩ := full (table.take limit) fun _ member => List.mem_of_mem_take member
    rw [← List.take_append_drop limit table, ← List.cons_append] at begins
    obtain ⟨rest, begins'⟩ := begins.front
    have size : (csvRowsOf header (table.take limit)).length = limit := by
      rw [rows, List.length_map, List.length_take]
      omega
    rw [← rows]
    rw [List.cons_append, List.take_append_drop] at begins'
    exact ⟨table.take limit, rest, begins', fits, rfl, size.le, .inr size⟩

/-- A table with a quote, a delimiter and a line end in its values, every value quoted. -/
theorem csvRows_write_special :
    csvRows 131072 (Csv.write excel (fun _ => true) (lit "\r\n")
        [[lit "a", lit "b"], [lit "1,\"", lit "x\ny"]]) 5 false =
      .ok ([lit "a", lit "b"], [[(lit "a", lit "1,\""), (lit "b", lit "x\ny")]]) :=
  csvRows_write 131072 (fun _ _ => rfl) (.inr (.inr rfl)) (by decide) (by decide)
    (fun _ _ _ => rfl) (by decide +kernel) (by decide)

end DataBridge
