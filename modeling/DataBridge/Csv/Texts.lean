import DataBridge.Csv.Grammar

/-!
# Texts that go on, and written tables

A text that ends with a line end keeps its records when more text follows
(`records_prefix`). `write` writes a table, with quotes wherever they are needed
and anywhere else the writer likes; `begins_write` derives what it wrote.
-/

namespace Csv

variable {α : Type} [DecidableEq α] {d : Dialect α} {limit : Nat}

/-! ## More text behind the last line end -/

/-- The text is empty or ends with a line end. -/
def EndsLine (d : Dialect α) (text : List α) : Prop :=
  ∀ c ∈ text.getLast?, c = d.lineFeed ∨ c = d.carriageReturn

theorem Field.last {text value : List α} (written : Field d text value) {c : α}
    (final : text.getLast? = some c) : c ≠ d.lineFeed ∧ c ≠ d.carriageReturn := by
  cases written with
  | empty => cases final
  | bare _ ordinary => exact (ordinary c (List.mem_of_getLast? final)).2
  | quoted value =>
    rw [← List.cons_append, List.getLast?_concat] at final
    cases final
    exact ⟨d.quotechar_plain.1, d.quotechar_plain.2.1⟩

/-- A line that is not blank does not end with a line end of its own. -/
theorem Row.last {content : List α} {record : List (List α)} (written : Row d content record)
    {c : α} (final : content.getLast? = some c) : c ≠ d.lineFeed ∧ c ≠ d.carriageReturn := by
  obtain ⟨before, field⟩ := written
  rename_i fields front text value
  rw [List.getLast?_append] at final
  cases found : text.getLast? with
  | some c' =>
    rw [found, Option.some_or] at final
    exact field.last (found.trans final)
  | none =>
    rw [found, Option.none_or] at final
    cases before with
    | nil => cases final
    | snoc _ _ =>
      rw [← List.append_assoc, List.getLast?_concat] at final
      cases final
      exact d.delimiter_plain

theorem Line.last {content : List α} {record : List (List α)} (written : Line d content record)
    {c : α} (final : content.getLast? = some c) : c ≠ d.lineFeed ∧ c ≠ d.carriageReturn := by
  rcases written with ⟨rfl, -⟩ | ⟨-, row⟩
  · cases final
  · exact row.last final

/-- The end of the last line, when more text follows. -/
theorem Ends.extend {e : List α} (ends : Ends d e []) (nonempty : e ≠ []) (more : List α) :
    ∃ e' rest, e ++ more = e' ++ rest ∧ e' ≠ [] ∧ Ends d e' rest := by
  cases ends with
  | lineFeed => exact ⟨_, more, rfl, nonempty, .lineFeed⟩
  | carriageReturn _ => exact exists_ends (.inr rfl) more
  | crlf => exact ⟨_, more, rfl, nonempty, .crlf⟩
  | text => exact absurd rfl nonempty

/-- The lines of a text that ends with a line end stay lines when more text follows. -/
theorem Begins.extend {text rest : List α} {first : List (List (List α))}
    (begins : Begins d text first rest) (ended : EndsLine d text) (more : List α) :
    ∃ rest', Begins d (text ++ more) first rest' := by
  induction begins with
  | nil => exact ⟨_, .nil⟩
  | line written ends nonempty begins ih =>
    rename_i content e following rest record records
    cases following with
    | nil =>
      have last : records = [] := by
        cases records with
        | nil => rfl
        | cons record' records =>
          exfalso
          generalize empty : ([] : List α) = text at begins
          cases begins with
          | line _ _ nonempty' _ =>
            rw [← List.append_assoc] at empty
            exact nonempty' (List.append_eq_nil_iff.mp empty.symm).1
      subst last
      have terminated : e ≠ [] := by
        rintro rfl
        rw [List.append_nil] at nonempty
        have final := List.getLast?_eq_some_getLast nonempty
        have plain := written.last final
        rw [List.nil_append, List.append_nil] at ended
        exact (ended _ final).elim plain.1 plain.2
      obtain ⟨e', rest', same, nonempty', ends'⟩ := ends.extend terminated more
      refine ⟨rest', ?_⟩
      rw [List.append_nil, List.append_assoc, same]
      exact .line written ends' (fun empty => nonempty' (List.append_eq_nil_iff.mp empty).2) .nil
    | cons c following =>
      obtain ⟨rest', begins'⟩ := ih (by
        intro c' final
        refine ended c' ?_
        rw [List.getLast?_append, List.getLast?_append, final]
        rfl)
      refine ⟨rest', ?_⟩
      rw [List.append_assoc, List.append_assoc]
      have ends' : Ends d e (c :: (following ++ more)) := by
        cases ends with
        | lineFeed => exact .lineFeed
        | carriageReturn unpaired => exact .carriageReturn unpaired
        | crlf => exact .crlf
      exact .line written ends' nonempty begins'

/-- The first of the records that a text begins with. -/
theorem Begins.front {text rest : List α} {first later : List (List (List α))}
    (begins : Begins d text (first ++ later) rest) : ∃ rest', Begins d text first rest' := by
  induction first generalizing text with
  | nil => exact ⟨text, .nil⟩
  | cons record first ih =>
    cases begins with
    | line written ends nonempty begins =>
      obtain ⟨rest', begins'⟩ := ih begins
      exact ⟨rest', .line written ends nonempty begins'⟩

/-- More text behind a line end does not change the records before it. -/
theorem records_prefix {text : List α} (ended : EndsLine d text) (more : List α) :
    (records d limit text).1 <+: (records d limit (text ++ more)).1 := by
  have yields : records d limit text =
      ((records d limit text).1 ++ [], (records d limit text).2) := by
    rw [List.append_nil]
  obtain ⟨rest, begins, fits, -⟩ := begins_of_records yields
  obtain ⟨rest', begins'⟩ := begins.extend ended more
  rw [records_of_begins begins' fits]
  exact List.prefix_append _ _

/-! ## Fields are shorter than their text -/

theorem length_le_doubled (value : List α) : value.length ≤ (doubled d value).length := by
  induction value with
  | nil => exact Nat.le_refl 0
  | cons c value ih =>
    rw [doubled]
    split_ifs
    · simp only [List.length_cons]
      omega
    · simp only [List.length_cons]
      omega

theorem Field.length_le {text value : List α} (written : Field d text value) :
    value.length ≤ text.length := by
  cases written with
  | empty => exact Nat.le_refl 0
  | bare _ _ => exact Nat.le_refl _
  | quoted value =>
    have shorter := length_le_doubled (d := d) value
    simp only [List.length_cons, List.length_append]
    omega

theorem Before.fits {fields : List (List α)} {front : List α} (written : Before d fields front) :
    Fits front.length fields := by
  induction written with
  | nil => exact fun _ member => (List.not_mem_nil member).elim
  | snoc before field ih =>
    intro kept member
    rw [List.length_append, List.length_append]
    rcases List.mem_append.mp member with member | member
    · have shorter := ih kept member
      omega
    · have shorter := field.length_le
      rw [List.mem_singleton.mp member]
      omega

theorem Line.fits {content : List α} {record : List (List α)} (written : Line d content record) :
    Fits content.length record := by
  rcases written with ⟨-, rfl⟩ | ⟨-, ⟨before, field⟩⟩
  · exact fun _ member => (List.not_mem_nil member).elim
  · intro kept member
    rw [List.length_append]
    rcases List.mem_append.mp member with member | member
    · have shorter := before.fits kept member
      omega
    · have shorter := field.length_le
      rw [List.mem_singleton.mp member]
      omega

/-- No field is longer than the text it was read from. -/
theorem Begins.fits {text rest : List α} {first : List (List (List α))}
    (begins : Begins d text first rest) : ∀ record ∈ first, Fits text.length record := by
  induction begins with
  | nil => exact fun _ member => (List.not_mem_nil member).elim
  | line written _ _ _ ih =>
    intro record member field inRecord
    rw [List.length_append, List.length_append]
    rcases List.mem_cons.mp member with rfl | member
    · have shorter := written.fits field inRecord
      omega
    · have shorter := ih record member field inRecord
      omega

/-! ## Written tables -/

/-- A value that cannot stand without quotes. -/
def NeedsQuotes (d : Dialect α) (value : List α) : Prop :=
  value.head? = some d.quotechar ∨ ∃ c ∈ value, ¬ d.Ordinary c

/-- A field as a writer writes it that puts the values `quoted` selects between quotes. -/
def writeField (d : Dialect α) (quoted : List α → Bool) (value : List α) : List α :=
  if quoted value then d.quotechar :: (doubled d value ++ [d.quotechar]) else value

/-- The fields of a row, with delimiters between them. -/
def writeFields (d : Dialect α) (quoted : List α → Bool) : List (List α) → List α
  | [] => []
  | [value] => writeField d quoted value
  | value :: row => writeField d quoted value ++ d.delimiter :: writeFields d quoted row

/-- A row and a line end. -/
def writeRow (d : Dialect α) (quoted : List α → Bool) (e : List α) (row : List (List α)) : List α :=
  writeFields d quoted row ++ e

/-- A table, a line for each row. -/
def write (d : Dialect α) (quoted : List α → Bool) (e : List α) (table : List (List (List α))) :
    List α :=
  table.flatMap (writeRow d quoted e)

variable {quoted : List α → Bool}

theorem field_writeField (needed : ∀ value, NeedsQuotes d value → quoted value = true)
    (value : List α) : Field d (writeField d quoted value) value := by
  unfold writeField
  split_ifs with chosen
  · exact .quoted value
  · have plain : ¬ NeedsQuotes d value := fun needs => chosen (needed value needs)
    rw [NeedsQuotes, not_or] at plain
    refine .of_ordinary plain.1 fun c member => ?_
    by_contra special
    exact plain.2 ⟨c, member, special⟩

theorem row_writeFields (needed : ∀ value, NeedsQuotes d value → quoted value = true)
    {fields : List (List α)} {front : List α} (before : Before d fields front)
    {row : List (List α)} (nonempty : row ≠ []) :
    Row d (front ++ writeFields d quoted row) (fields ++ row) := by
  induction row generalizing fields front with
  | nil => exact absurd rfl nonempty
  | cons value row ih =>
    have field := field_writeField needed value
    cases row with
    | nil => exact .mk before field
    | cons value' row =>
      have later := ih (.snoc before field) (List.cons_ne_nil value' row)
      rw [List.append_assoc, List.append_assoc, List.append_assoc, List.singleton_append,
        List.singleton_append] at later
      exact later

/-- A row of one empty field without quotes would be a blank line. -/
theorem line_writeFields (needed : ∀ value, NeedsQuotes d value → quoted value = true)
    {row : List (List α)} (nonempty : row ≠ [])
    (visible : row = [[]] → quoted [] = true) : Line d (writeFields d quoted row) row := by
  refine .inr ⟨?_, row_writeFields needed .nil nonempty⟩
  intro empty
  cases row with
  | nil => exact nonempty rfl
  | cons value row =>
    cases row with
    | nil =>
      rw [writeFields, writeField] at empty
      split_ifs at empty with chosen
      subst empty
      exact chosen (visible rfl)
    | cons value' row => cases (List.append_eq_nil_iff.mp empty).2

theorem head_writeRow (needed : ∀ value, NeedsQuotes d value → quoted value = true)
    {row : List (List α)} (nonempty : row ≠ [])
    (visible : row = [[]] → quoted [] = true) (e : List α) :
    (writeRow d quoted e row).head? ≠ some d.lineFeed := by
  rcases line_writeFields needed nonempty visible with ⟨-, none⟩ | ⟨filled, written⟩
  · exact absurd none nonempty
  · intro same
    rw [writeRow, List.head?_append_of_ne_nil _ filled] at same
    exact (written.head same).1 rfl

/-- A table is derived by the grammar from what was written for it. -/
theorem begins_write (needed : ∀ value, NeedsQuotes d value → quoted value = true) {e : List α}
    (ending : e = [d.lineFeed] ∨ e = [d.carriageReturn] ∨ e = [d.carriageReturn, d.lineFeed])
    {table : List (List (List α))} (nonempty : ∀ row ∈ table, row ≠ [])
    (visible : ∀ row ∈ table, row = [[]] → quoted [] = true) :
    Begins d (write d quoted e table) table [] := by
  induction table with
  | nil => exact .nil
  | cons row table ih =>
    have nonempty' := fun row' member => nonempty row' (List.mem_cons_of_mem row member)
    have visible' := fun row' member => visible row' (List.mem_cons_of_mem row member)
    rw [write, List.flatMap_cons, writeRow, List.append_assoc]
    refine .line (line_writeFields needed (nonempty row List.mem_cons_self)
      (visible row List.mem_cons_self)) ?_ ?_ (ih nonempty' visible')
    · rcases ending with rfl | rfl | rfl
      · exact .lineFeed
      · refine .carriageReturn ?_
        cases table with
        | nil => simp
        | cons row' table =>
          have unpaired := head_writeRow needed (nonempty' row' List.mem_cons_self)
            (visible' row' List.mem_cons_self) [d.carriageReturn]
          rw [List.flatMap_cons, List.head?_append]
          cases first : (writeRow d quoted [d.carriageReturn] row').head? with
          | none =>
            have empty := List.head?_eq_none_iff.mp first
            rw [writeRow] at empty
            cases (List.append_eq_nil_iff.mp empty).2
          | some c =>
            rw [first] at unpaired
            exact unpaired
      · exact .crlf
    · intro empty
      rw [(List.append_eq_nil_iff.mp empty).2] at ending
      simp at ending

end Csv
