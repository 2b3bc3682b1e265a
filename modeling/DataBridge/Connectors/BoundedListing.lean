import DataBridge.Connectors.Base
import Mathlib.Data.Seq.Basic

/-!
# Bounded listing

`bounded_listing` over an iterator, which need not end. `Scan.drain` is its loop,
together with the number of entries it takes; `Scan.drain_spec` says what is left to
happen from any point of the loop, and `boundedListing_drain` that on a finite list
it is `boundedListing`.
-/

namespace DataBridge

open Stream'

/-! ## The scan of a list of entries -/

namespace Scan

variable {scan scan' : Scan} {entries more : List (Text × Bool)} {listing : Listing}

theorem run_append : scan.run (entries ++ more) =
    (scan.run entries).elim (fun scan => scan.run more) .inr := by
  induction entries generalizing scan with
  | nil => rfl
  | cons entry entries ih =>
    rw [List.cons_append, run, run]
    cases scan.next entry with
    | inl scan => exact ih
    | inr listing => rfl

/-- A scan that goes on has counted the entry. -/
theorem scanned_next {entry : Text × Bool} (goes : scan.next entry = .inl scan') :
    scan'.scanned = scan.scanned + 1 ∧ scan'.scanned ≤ maxListScan := by
  unfold next at goes
  dsimp only at goes
  split at goes
  · cases goes
  · rename_i within
    have counted : scan.scanned + 1 ≤ maxListScan := Nat.le_of_not_lt within
    split at goes
    · cases goes
      exact ⟨rfl, counted⟩
    · split at goes
      · cases goes
        exact ⟨rfl, counted⟩
      · split at goes
        · cases goes
        · cases goes
          exact ⟨rfl, counted⟩

theorem scanned_run (start : scan.scanned ≤ maxListScan) (goes : scan.run entries = .inl scan') :
    scan'.scanned = scan.scanned + entries.length ∧ scan'.scanned ≤ maxListScan := by
  induction entries generalizing scan with
  | nil =>
    cases goes
    exact ⟨rfl, start⟩
  | cons entry entries ih =>
    rw [run] at goes
    cases step : scan.next entry with
    | inl middle =>
      rw [step] at goes
      obtain ⟨counted, within⟩ := scanned_next step
      obtain ⟨whole, fits⟩ := ih within goes
      refine ⟨?_, fits⟩
      rw [whole, counted, List.length_cons]
      omega
    | inr listing =>
      rw [step] at goes
      cases goes

/-- The pair names a file that a listing may show. -/
def Shows (entry : Text × Bool) : Prop := entry.2 = true ∧ validateFilename entry.1 = .ok entry.1

theorem validateFilename_same {filename name : Text} (accepted : validateFilename filename = .ok name) :
    name = filename := by
  unfold validateFilename at accepted
  split at accepted
  · cases accepted
  · split at accepted
    · cases accepted
    · split at accepted
      · cases accepted
      · split at accepted
        · cases accepted
        · exact (Except.ok.inj accepted).symm

theorem mem_files_next {entry : Text × Bool} (goes : scan.next entry = .inl scan') {name : Text} :
    name ∈ scan'.files ↔ name ∈ scan.files ∨ (entry.1 = name ∧ Shows entry) := by
  unfold next at goes
  dsimp only at goes
  split at goes
  · cases goes
  · split at goes
    · rename_i irregular
      cases goes
      refine ⟨.inl, fun known => known.resolve_right fun shown => ?_⟩
      rw [shown.2.1] at irregular
      cases irregular
    · rename_i regular
      split at goes
      · rename_i refused
        cases goes
        refine ⟨.inl, fun known => known.resolve_right fun shown => ?_⟩
        rw [shown.2.2] at refused
        cases refused
      · rename_i accepted
        split at goes
        · cases goes
        · cases goes
          rw [List.mem_append, List.mem_singleton]
          refine or_congr_right ⟨fun same => ⟨same.symm, ?_, ?_⟩, fun shown => shown.1.symm⟩
          · exact Bool.not_eq_false _ ▸ regular
          · rw [accepted, validateFilename_same accepted]

/-- The files are the regular entries with valid names. -/
theorem mem_files_run (goes : scan.run entries = .inl scan') {name : Text} :
    name ∈ scan'.files ↔ name ∈ scan.files ∨ ∃ entry ∈ entries, entry.1 = name ∧ Shows entry := by
  induction entries generalizing scan with
  | nil =>
    cases goes
    simp
  | cons entry entries ih =>
    rw [run] at goes
    cases step : scan.next entry with
    | inl middle =>
      rw [step] at goes
      rw [ih goes, mem_files_next step, or_assoc]
      simp only [List.exists_mem_cons_iff]
    | inr listing =>
      rw [step] at goes
      cases goes

theorem mem_last {name : Text} : name ∈ scan.last.files ↔ name ∈ scan.files :=
  List.mem_insertionSort _

end Scan

/-! ## The loop over an iterator -/

namespace Scan

variable {scan scan' : Scan} {entries : List (Text × Bool)} {entry : Text × Bool}
  {rest : Seq (Text × Bool)} {room : Nat} {outcome : Listing × Nat}

/-- The loop of `bounded_listing` over an iterator, and how many entries it takes. -/
def drain (scan : Scan) (entries : Seq (Text × Bool)) : Listing × Nat :=
  match entries.destruct with
  | none => (scan.last, 0)
  | some (entry, rest) =>
    match _step : scan.next entry with
    | .inl scan =>
      let (listing, taken) := scan.drain rest
      (listing, taken + 1)
    | .inr listing => (listing, 1)
termination_by maxListScan + 1 - scan.scanned
decreasing_by
  have counted := scanned_next _step
  omega

instance (entry : Text × Bool) : Decidable (Shows entry) :=
  inferInstanceAs (Decidable (_ ∧ _))

/-- The names that a listing may show, in order. -/
def shownNames (entries : List (Text × Bool)) : List Text :=
  (entries.filter fun entry => Shows entry).map Prod.fst

theorem shownNames_cons :
    shownNames (entry :: entries) =
      if Shows entry then entry.1 :: shownNames entries else shownNames entries := by
  unfold shownNames
  rw [List.filter_cons]
  by_cases shows : Shows entry
  · simp only [shows, decide_true, if_true, List.map_cons]
  · simp only [shows, decide_false, if_false, Bool.false_eq_true]

/-- One entry, by its three kinds: beyond the scan cap, not shown, or shown. -/
theorem next_eq (scan : Scan) (entry : Text × Bool) : scan.next entry =
    if maxListScan < scan.scanned + 1 then .inr ⟨sortedNames scan.files, true⟩
    else if ¬Shows entry then .inl { scan with scanned := scan.scanned + 1 }
    else if maxListResults ≤ scan.files.length then .inr ⟨sortedNames scan.files, true⟩
    else .inl ⟨scan.scanned + 1, scan.files ++ [entry.1]⟩ := by
  unfold next
  dsimp only
  split
  · rfl
  · split
    · rename_i irregular
      rw [if_pos fun shown => Bool.false_ne_true (irregular.symm.trans shown.1)]
    · rename_i regular
      split
      · rename_i refused
        rw [if_pos fun shown => by rw [shown.2] at refused; cases refused]
      · rename_i name accepted
        have shown : Shows entry :=
          ⟨Bool.not_eq_false _ ▸ regular, validateFilename_same accepted ▸ accepted⟩
        rw [if_neg (not_not_intro shown)]

/-- What is left to happen: `room` entries may still be counted. -/
structure Drained (scan : Scan) (entries : Seq (Text × Bool)) (room : Nat)
    (outcome : Listing × Nat) : Prop where
  files : outcome.1.files =
    sortedNames ((scan.files ++ shownNames (entries.take room)).take maxListResults)
  truncated : outcome.1.truncated = true ↔ (room : ℕ∞) < entries.length' ∨
    maxListResults < (scan.files ++ shownNames (entries.take room)).length
  taken : outcome.2 ≤ room + 1

theorem Drained.nil (fits : scan.files.length ≤ maxListResults) :
    Drained scan Seq.nil room (scan.drain Seq.nil) := by
  have ended : scan.drain Seq.nil = (scan.last, 0) := by
    rw [drain, Seq.destruct_nil]
  have none : shownNames ((Seq.nil : Seq (Text × Bool)).take room) = [] := by
    rw [Seq.take_nil]
    rfl
  rw [ended]
  exact {
    files := by
      rw [none, List.append_nil, List.take_of_length_le fits]
      rfl
    truncated := by
      rw [none, List.append_nil, Seq.length'_nil]
      refine iff_of_false Bool.false_ne_true ?_
      rintro (impossible | impossible)
      · exact absurd impossible (by simp)
      · omega
    taken := Nat.zero_le _ }

theorem drain_cons :
    scan.drain (Seq.cons entry rest) = match scan.next entry with
      | .inl scan => ((scan.drain rest).1, (scan.drain rest).2 + 1)
      | .inr listing => (listing, 1) := by
  rw [drain, Seq.destruct_cons]
  dsimp only
  split <;> rename_i step <;> rw [step]

/-- One entry more in front, which the loop went past. -/
theorem Drained.cons (h : Drained scan' rest room outcome)
    (same : scan.files ++ shownNames ((Seq.cons entry rest).take (room + 1)) =
      scan'.files ++ shownNames (rest.take room)) :
    Drained scan (Seq.cons entry rest) (room + 1) (outcome.1, outcome.2 + 1) where
  files := by rw [same, h.files]
  truncated := by
    rw [same, h.truncated, Seq.length'_cons, Nat.cast_add, Nat.cast_one,
      ENat.add_lt_add_iff_right ENat.one_ne_top]
  taken := Nat.succ_le_succ h.taken

theorem drain_spec {entries : Seq (Text × Bool)}
    (counted : scan.scanned + room = maxListScan) (fits : scan.files.length ≤ maxListResults) :
    Drained scan entries room (scan.drain entries) := by
  -- Each entry that the loop goes past takes one off `room`.
  induction room generalizing scan entries with
  | zero =>
    cases entries using Stream'.Seq.recOn with
    | nil => exact .nil fits
    | cons entry rest =>
      have capped : scan.next entry = .inr ⟨sortedNames scan.files, true⟩ := by
        rw [next_eq, if_pos (by omega)]
      rw [drain_cons, capped]
      exact {
        files := by
          rw [Seq.take_zero, shownNames, List.filter_nil, List.map_nil, List.append_nil,
            List.take_of_length_le fits]
        truncated := by simp
        taken := le_refl _ }
  | succ room ih =>
    cases entries using Stream'.Seq.recOn with
    | nil => exact .nil fits
    | cons entry rest =>
      have within : ¬maxListScan < scan.scanned + 1 := by omega
      have names : shownNames ((Seq.cons entry rest).take (room + 1)) =
          if Shows entry then entry.1 :: shownNames (rest.take room)
          else shownNames (rest.take room) := by
        rw [Seq.take_succ_cons, shownNames_cons]
      rw [drain_cons, next_eq, if_neg within]
      by_cases shows : Shows entry
      · rw [if_pos shows] at names
        rw [if_neg (not_not_intro shows)]
        by_cases full : maxListResults ≤ scan.files.length
        · rw [if_pos full]
          have exact : scan.files.length = maxListResults := le_antisymm fits full
          exact {
            files := by rw [List.take_append_of_le_length full, List.take_of_length_le fits]
            truncated := by
              rw [names, List.length_append, List.length_cons]
              exact iff_of_true rfl (.inr (by omega))
            taken := by simp }
        · rw [if_neg full]
          have after := @ih ⟨scan.scanned + 1, scan.files ++ [entry.1]⟩ rest (by simp only; omega)
            (by rw [List.length_append, List.length_singleton]; omega)
          have joined : scan.files ++ shownNames ((Seq.cons entry rest).take (room + 1)) =
              (scan.files ++ [entry.1]) ++ shownNames (rest.take room) := by
            rw [names, List.append_assoc, List.singleton_append]
          exact after.cons joined
      · rw [if_neg shows] at names
        rw [if_pos shows]
        have after := @ih { scan with scanned := scan.scanned + 1 } rest (by simp only; omega) fits
        exact after.cons (by rw [names])

/-- On a finite list the loop is that of `boundedListing`. -/
theorem drain_ofList : (scan.drain (Seq.ofList entries)).1 = (scan.run entries).elim last id := by
  induction entries generalizing scan with
  | nil =>
    rw [Seq.ofList_nil, drain, Seq.destruct_nil]
    rfl
  | cons entry entries ih =>
    rw [Seq.ofList_cons, drain_cons, run]
    cases scan.next entry with
    | inl scan => exact ih
    | inr listing => rfl

end Scan

/-- `bounded_listing` over any iterator. -/
def boundedListingOf (entries : Seq (Text × Bool)) : Listing × Nat := Scan.drain {} entries

theorem boundedListing_drain (entries : List (Text × Bool)) :
    (boundedListingOf (Seq.ofList entries)).1 = boundedListing entries :=
  Scan.drain_ofList

theorem boundedListingOf_drained (entries : Seq (Text × Bool)) :
    Scan.Drained {} entries maxListScan (boundedListingOf entries) :=
  Scan.drain_spec (Nat.zero_add _) (Nat.zero_le _)

/-- An iterator within the scan cap is a list. -/
theorem eq_ofList_of_length_le {entries : Seq (Text × Bool)} {cap : Nat}
    (within : entries.length' ≤ cap) : entries = Seq.ofList (entries.take cap) := by
  induction cap generalizing entries with
  | zero =>
    rw [Nat.cast_zero, nonpos_iff_eq_zero, Seq.length'_eq_zero_iff_nil] at within
    subst within
    rfl
  | succ cap ih =>
    cases entries using Stream'.Seq.recOn with
    | nil => rw [Seq.take_nil, Seq.ofList_nil]
    | cons entry rest =>
      rw [Seq.length'_cons, Nat.cast_add, Nat.cast_one,
        ENat.add_le_add_iff_right ENat.one_ne_top] at within
      rw [Seq.take_succ_cons, Seq.ofList_cons, ← ih within]

theorem sortedNames_spec (files : List Text) :
    (sortedNames files).Pairwise (· ≤ ·) ∧ (sortedNames files).Perm files :=
  ⟨List.pairwise_insertionSort _ _, List.perm_insertionSort _ _⟩

/-- Both caps of a listing, over every iterator. -/
theorem boundedListing_caps (entries : Seq (Text × Bool)) :
    (boundedListingOf entries).2 ≤ maxListScan + 1 ∧
    ((boundedListingOf entries).1.files.Pairwise (· ≤ ·) ∧ (boundedListingOf entries).1.files.Perm
      ((Scan.shownNames (entries.take maxListScan)).take maxListResults)) ∧
    ((boundedListingOf entries).1.truncated = true ↔ (maxListScan : ℕ∞) < entries.length' ∨
      maxListResults < (Scan.shownNames (entries.take maxListScan)).length) ∧
    ((boundedListingOf entries).1.truncated = false → ∃ all : List (Text × Bool),
      entries = Seq.ofList all ∧ (boundedListingOf entries).1.files.Perm (Scan.shownNames all)) := by
  obtain ⟨files, truncated, taken⟩ := boundedListingOf_drained entries
  rw [List.nil_append] at files truncated
  refine ⟨taken, files ▸ sortedNames_spec _, truncated, fun whole => ?_⟩
  rw [whole, iff_false_left Bool.false_ne_true, not_or, not_lt, not_lt] at truncated
  refine ⟨_, eq_ofList_of_length_le truncated.1, ?_⟩
  rw [files, List.take_of_length_le truncated.2]
  exact (sortedNames_spec _).2

end DataBridge
