import DataBridge.Connectors.Base
import DataBridge.Files.Directory

/-!
# What an access check promises

A check creates a probe at the root and removes it. When it returns, the root has
the entries it had; when it raises, no probe is left or the error names it. The
name of a probe has a dot and no quotation mark, so a message names one by chance
only if the root it quotes contains that name.
-/

namespace DataBridge

open Files

/-- The message of the error contains the name. -/
def Mentions (name : Text) (e : Exc) : Prop := ∃ error, e = .dataBridge error ∧ name <:+: error.message

/-- What the caller of a check relies on. -/
def Cleared (name path : Text) (before after : Directory Text) : Except Exc Bool → Prop
  | .ok _ => after.entries = before.entries
  | .error e => after.entries path = none ∨ Mentions name e

theorem mentions_ofCode {name message : Text} {code : ErrorCode} :
    Mentions name (.ofCode code message) ↔ name <:+: message := by
  constructor
  · intro named
    obtain ⟨error, same, part⟩ := named
    cases same
    exact part
  · intro part
    exact ⟨_, rfl, part⟩

/-! ## Quoted texts -/

/-- A part without the separator lies on one side of it. -/
theorem infix_of_separated {α : Type} {part first last : List α} {separator : α}
    (absent : separator ∉ part) (infixed : part <:+: first ++ separator :: last) :
    part <:+: first ∨ part <:+: last := by
  obtain ⟨start, tail, whole⟩ := infixed
  rw [List.append_assoc] at whole
  rcases List.append_eq_append_iff.mp whole with ⟨rest, rfl, later⟩ | ⟨rest, rfl, later⟩
  · rcases List.append_eq_append_iff.mp later with ⟨more, rfl, -⟩ | ⟨more, rfl, last⟩
    · left
      rw [← List.append_assoc]
      exact List.infix_append _ _ _
    · cases more with
      | nil =>
        left
        rw [List.append_nil]
        exact List.infix_append_right
      | cons c more =>
        cases last
        exact absurd (List.mem_append_right _ List.mem_cons_self) absent
  · cases rest with
    | nil =>
      cases part with
      | nil => exact .inl (List.nil_infix)
      | cons c part =>
        cases later
        exact absurd List.mem_cons_self absent
    | cons c rest =>
      right
      cases later
      exact ⟨rest, tail, List.append_assoc ..⟩

/-- The message quotes the text, and has no dot elsewhere. -/
def Quotes (text message : Text) : Prop :=
  ∃ start tail, message = start ++ .ofChar '\'' :: (text ++ .ofChar '\'' :: tail) ∧
    .ofChar '.' ∉ start ∧ .ofChar '.' ∉ tail

/-- A text between two literals of a message. -/
theorem quotes_literals {text first last : Text} (start tail : Text) (opening : first = start ++ lit "'")
    (closing : last = lit "'" ++ tail) (before : .ofChar '.' ∉ start) (after : .ofChar '.' ∉ tail) :
    Quotes text (first ++ text ++ last) := by
  refine ⟨start, tail, ?_, before, after⟩
  rw [opening, closing, List.append_assoc, List.append_assoc]
  rfl

theorem Quotes.prepend {text message more : Text} (quotes : Quotes text message)
    (plain : .ofChar '.' ∉ more) : Quotes text (more ++ message) := by
  obtain ⟨start, tail, rfl, before, after⟩ := quotes
  refine ⟨more ++ start, tail, (List.append_assoc ..).symm, ?_, after⟩
  intro member
  exact (List.mem_append.mp member).elim plain before

theorem Quotes.append {text message more : Text} (quotes : Quotes text message)
    (plain : .ofChar '.' ∉ more) : Quotes text (message ++ more) := by
  obtain ⟨start, tail, rfl, before, after⟩ := quotes
  refine ⟨start, tail ++ more, ?_, before, ?_⟩
  · rw [List.append_assoc, List.cons_append, List.append_assoc, List.cons_append]
  · intro member
    exact (List.mem_append.mp member).elim after plain

/-- A name with a dot and without quotation marks can only be part of the quoted text. -/
theorem Quotes.within {name text message : Text} (quotes : Quotes text message)
    (plain : .ofChar '\'' ∉ name) (dotted : .ofChar '.' ∈ name) (part : name <:+: message) :
    name <:+: text := by
  obtain ⟨start, tail, rfl, before, after⟩ := quotes
  rcases infix_of_separated plain part with first | last
  · exact absurd (first.subset dotted) before
  · rcases infix_of_separated plain last with quoted | rest
    · exact quoted
    · exact absurd (rest.subset dotted) after

/-! ## The name of a probe -/

theorem dot_mem_probeName (id : Uuid) : .ofChar '.' ∈ probeName id := by
  unfold probeName
  rw [List.append_assoc]
  exact List.mem_append_left _ (by decide)

theorem quote_not_mem_uuid (id : Uuid) : .ofChar '\'' ∉ id.text := by
  have hex : .ofChar '\'' ∉ id.digits.map hexDigit := by
    intro member
    obtain ⟨d, -, same⟩ := List.mem_map.mp member
    revert d
    decide
  have part : ∀ m n, .ofChar '\'' ∉ ((id.digits.map hexDigit).drop m).take n := by
    intro m n member
    exact hex (List.mem_of_mem_drop (List.mem_of_mem_take member))
  have dash : .ofChar '\'' ∉ lit "-" := by decide
  have last : .ofChar '\'' ∉ (id.digits.map hexDigit).drop 20 := fun member =>
    hex (List.mem_of_mem_drop member)
  have first : .ofChar '\'' ∉ (id.digits.map hexDigit).take 8 := fun member =>
    hex (List.mem_of_mem_take member)
  simp only [Uuid.text, List.mem_append, not_or]
  exact ⟨⟨⟨⟨⟨⟨⟨⟨first, dash⟩, part _ _⟩, dash⟩, part _ _⟩, dash⟩, part _ _⟩, dash⟩, last⟩

theorem quote_not_mem_probeName (id : Uuid) : .ofChar '\'' ∉ probeName id := by
  simp only [probeName, List.mem_append, not_or]
  exact ⟨⟨by decide, by decide⟩, quote_not_mem_uuid id⟩

end DataBridge
