import Mathlib.Data.List.Forall2
import Mathlib.Data.List.Nodup
import Mathlib.Data.List.Sort

/-!
# Keyed rows

The rows of a table stand, one by one, for the items of a list, and a row has the key
of its item (`Keyed.Table`). Looking a key up, adding, removing, replacing and sorting
by key do to the rows what they do to the items.
-/

namespace Keyed

variable {ρ α κ : Type} [DecidableEq κ]

/-- How rows stand for items. -/
structure Encoding (ρ α κ : Type) where
  rowKey : ρ → κ
  key : α → κ
  Stands : ρ → α → Prop
  keyed : ∀ {r a}, Stands r a → rowKey r = key a

variable {E : Encoding ρ α κ} {rows : List ρ} {items : List α}

/-- The rows stand for the items. -/
abbrev Table (E : Encoding ρ α κ) (rows : List ρ) (items : List α) : Prop :=
  List.Forall₂ E.Stands rows items

namespace Table

omit [DecidableEq κ] in
theorem keys (table : Table E rows items) : rows.map E.rowKey = items.map E.key := by
  induction table with
  | nil => rfl
  | cons stands _ ih => rw [List.map_cons, List.map_cons, ih, E.keyed stands]

/-- Both lookups fail, or the row that is found stands for the item. -/
theorem find (table : Table E rows items) (k : κ) :
    (rows.find? (E.rowKey · = k) = none ∧ items.find? (E.key · = k) = none) ∨
      ∃ r a, rows.find? (E.rowKey · = k) = some r ∧ items.find? (E.key · = k) = some a ∧
        E.Stands r a := by
  induction table with
  | nil => exact .inl ⟨rfl, rfl⟩
  | @cons r a rows items stands _ ih =>
    have same := E.keyed stands
    by_cases hit : E.key a = k
    · refine .inr ⟨r, a, ?_, ?_, stands⟩
      · exact List.find?_cons_of_pos (decide_eq_true (same.trans hit))
      · exact List.find?_cons_of_pos (decide_eq_true hit)
    · have miss : ¬ E.rowKey r = k := fun row => hit (same.symm.trans row)
      rw [List.find?_cons_of_neg (by simpa using miss), List.find?_cons_of_neg (by simpa using hit)]
      exact ih

omit [DecidableEq κ] in
theorem append (table : Table E rows items) {r : ρ} {a : α} (stands : E.Stands r a) :
    Table E (rows ++ [r]) (items ++ [a]) :=
  List.rel_append table (.cons stands .nil)

theorem remove (table : Table E rows items) (k : κ) :
    Table E (rows.filter (E.rowKey · ≠ k)) (items.filter (E.key · ≠ k)) := by
  induction table with
  | nil => exact .nil
  | @cons r a rows items stands _ ih =>
    have same := E.keyed stands
    by_cases hit : E.key a = k
    · rw [List.filter_cons_of_neg (by simpa using same.trans hit),
        List.filter_cons_of_neg (by simpa using hit)]
      exact ih
    · have miss : ¬ E.rowKey r = k := fun row => hit (same.symm.trans row)
      rw [List.filter_cons_of_pos (by simpa using miss), List.filter_cons_of_pos (by simpa using hit)]
      exact .cons stands ih

/-- The row with a key is assigned to, and the item with it is replaced. -/
theorem replace (table : Table E rows items) {k : κ} {assign : ρ → ρ} {b : α}
    (assigned : ∀ {r a}, E.Stands r a → E.key a = k → E.Stands (assign r) b) :
    Table E (rows.map fun r => if E.rowKey r = k then assign r else r)
      (items.map fun a => if E.key a = k then b else a) := by
  induction table with
  | nil => exact .nil
  | @cons r a rows items stands _ ih =>
    have same := E.keyed stands
    rw [List.map_cons, List.map_cons]
    by_cases hit : E.key a = k
    · rw [if_pos hit, if_pos (same.trans hit)]
      exact .cons (assigned stands hit) ih
    · rw [if_neg hit, if_neg fun row => hit (same.symm.trans row)]
      exact .cons stands ih

/-- How many rows have a key. -/
theorem count (table : Table E rows items) (k : κ) :
    rows.countP (E.rowKey · = k) = items.countP (E.key · = k) := by
  induction table with
  | nil => rfl
  | cons stands _ ih => rw [List.countP_cons, List.countP_cons, ih, E.keyed stands]

section Sorted

variable {le : κ → κ → Prop} [DecidableRel le]

omit [DecidableEq κ] in
theorem orderedInsert (table : Table E rows items) {r : ρ} {a : α} (stands : E.Stands r a) :
    Table E (rows.orderedInsert (fun r r' => le (E.rowKey r) (E.rowKey r')) r)
      (items.orderedInsert (fun a a' => le (E.key a) (E.key a')) a) := by
  induction table with
  | nil => exact .cons stands .nil
  | @cons r' a' rows items stands' rest ih =>
    rw [List.orderedInsert, List.orderedInsert]
    by_cases before : le (E.key a) (E.key a')
    · rw [if_pos before, if_pos (by rw [E.keyed stands, E.keyed stands']; exact before)]
      exact .cons stands (.cons stands' rest)
    · rw [if_neg before, if_neg (by rw [E.keyed stands, E.keyed stands']; exact before)]
      exact .cons stands' ih

omit [DecidableEq κ] in
theorem sorted (table : Table E rows items) :
    Table E (rows.insertionSort fun r r' => le (E.rowKey r) (E.rowKey r'))
      (items.insertionSort fun a a' => le (E.key a) (E.key a')) := by
  induction table with
  | nil => exact .nil
  | cons stands _ ih => exact ih.orderedInsert stands

end Sorted

end Table

/-- With distinct keys at most one item has a given one. -/
theorem countP_of_nodup {key : α → κ} (distinct : (items.map key).Nodup) (k : κ) :
    items.countP (key · = k) = if k ∈ items.map key then 1 else 0 := by
  have count : items.countP (key · = k) = (items.map key).count k := by
    rw [List.count, List.countP_map]
    congr 1
  rw [count]
  split_ifs with member
  · exact List.count_eq_one_of_mem distinct member
  · exact List.count_eq_zero_of_not_mem member

end Keyed
