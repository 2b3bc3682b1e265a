import Mathlib.Logic.Function.Basic
import Mathlib.Tactic

/-!
# A flat directory of hard-linked files

A directory maps names to numbered files or to directories of their own; the
files live beside the names, so two names may share one file. Every number in
use lies below `next`, which is part of the type, so a new file is never an
existing one under another name.
-/

namespace Files

/-- A regular file. -/
structure Node where
  content : List UInt8
  mode : Nat
  deriving DecidableEq

inductive Entry
  | file (number : Nat)
  | directory
  deriving DecidableEq

/-- What a name shows. -/
inductive Item
  | file (node : Node)
  | directory
  deriving DecidableEq

structure Directory (N : Type) where
  entries : N → Option Entry
  nodes : Nat → Node
  next : Nat
  bounded : ∀ name number, entries name = some (.file number) → number < next

namespace Directory

variable {N : Type}

/-- The item behind an entry. -/
def reveal (d : Directory N) : Entry → Item
  | .file number => .file (d.nodes number)
  | .directory => .directory

def item (d : Directory N) (name : N) : Option Item := (d.entries name).map d.reveal

/-- A directory without names. -/
def empty : Directory N where
  entries _ := none
  nodes _ := ⟨[], 0⟩
  next := 0
  bounded _ _ impossible := by cases impossible

/-- Change a file in place. -/
def modify (number : Nat) (f : Node → Node) (d : Directory N) : Directory N :=
  { d with nodes := Function.update d.nodes number (f (d.nodes number)) }

variable {d : Directory N} {name other old new : N} {number mode : Nat} {f : Node → Node}

theorem item_file (entry : d.entries name = some (.file number)) :
    d.item name = some (.file (d.nodes number)) := by
  rw [item, entry]
  rfl

theorem item_congr {d' : Directory N} (entry : d'.entries name = d.entries name)
    (same : ∀ number, d.entries name = some (.file number) → d'.nodes number = d.nodes number) :
    d'.item name = d.item name := by
  rw [item, item, entry]
  cases found : d.entries name with
  | none => rfl
  | some e =>
    cases e with
    | file number => exact congrArg (fun node => some (Item.file node)) (same number found)
    | directory => rfl

@[simp] theorem modify_entries : (d.modify number f).entries = d.entries := rfl

@[simp] theorem modify_next : (d.modify number f).next = d.next := rfl

@[simp] theorem modify_nodes_self : (d.modify number f).nodes number = f (d.nodes number) :=
  Function.update_self ..

theorem modify_nodes_of_ne {n : Nat} (differs : n ≠ number) :
    (d.modify number f).nodes n = d.nodes n :=
  Function.update_of_ne differs ..

variable [DecidableEq N]

/-- A new, empty file under a name. -/
def create (name : N) (mode : Nat) (d : Directory N) : Directory N where
  entries := Function.update d.entries name (some (.file d.next))
  nodes := Function.update d.nodes d.next ⟨[], mode⟩
  next := d.next + 1
  bounded other number found := by
    by_cases same : other = name
    · subst same
      rw [Function.update_self] at found
      cases found
      exact Nat.lt_succ_self _
    · rw [Function.update_of_ne same] at found
      exact Nat.lt_succ_of_lt (d.bounded other number found)

/-- Remove a name. -/
def unlink (name : N) (d : Directory N) : Directory N :=
  { d with
    entries := Function.update d.entries name none
    bounded := by
      intro other number found
      by_cases same : other = name
      · subst same
        rw [Function.update_self] at found
        cases found
      · rw [Function.update_of_ne same] at found
        exact d.bounded other number found }

/-- A second name for what `old` names. -/
def link (old new : N) (d : Directory N) : Directory N :=
  { d with
    entries := Function.update d.entries new (d.entries old)
    bounded := by
      intro other number found
      by_cases same : other = new
      · subst same
        rw [Function.update_self] at found
        exact d.bounded old number found
      · rw [Function.update_of_ne same] at found
        exact d.bounded other number found }

/-- Move a name over another one. -/
def rename (old new : N) (d : Directory N) : Directory N :=
  if old = new then d else (d.link old new).unlink old

/-! ## What each operation shows -/

@[simp] theorem create_entries_self :
    (d.create name mode).entries name = some (.file d.next) :=
  Function.update_self ..

theorem create_entries_of_ne (differs : other ≠ name) :
    (d.create name mode).entries other = d.entries other :=
  Function.update_of_ne differs ..

@[simp] theorem create_next : (d.create name mode).next = d.next + 1 := rfl

@[simp] theorem create_nodes_next : (d.create name mode).nodes d.next = ⟨[], mode⟩ :=
  Function.update_self ..

theorem create_nodes_of_lt (older : number < d.next) :
    (d.create name mode).nodes number = d.nodes number :=
  Function.update_of_ne (Nat.ne_of_lt older) ..

theorem create_nodes_of_ne (differs : number ≠ d.next) :
    (d.create name mode).nodes number = d.nodes number :=
  Function.update_of_ne differs ..

@[simp] theorem unlink_entries_self : (d.unlink name).entries name = none :=
  Function.update_self ..

theorem unlink_entries_of_ne (differs : other ≠ name) :
    (d.unlink name).entries other = d.entries other :=
  Function.update_of_ne differs ..

/-- Removing a new file leaves the entries there were. -/
theorem unlink_create_entries (absent : d.entries name = none) :
    ((d.create name mode).unlink name).entries = d.entries := by
  funext other
  by_cases same : other = name
  · subst same
    rw [unlink_entries_self, absent]
  · rw [unlink_entries_of_ne same, create_entries_of_ne same]

@[simp] theorem unlink_nodes : (d.unlink name).nodes = d.nodes := rfl

@[simp] theorem unlink_next : (d.unlink name).next = d.next := rfl

@[simp] theorem link_entries_new : (d.link old new).entries new = d.entries old :=
  Function.update_self ..

theorem link_entries_of_ne (differs : other ≠ new) :
    (d.link old new).entries other = d.entries other :=
  Function.update_of_ne differs ..

@[simp] theorem link_nodes : (d.link old new).nodes = d.nodes := rfl

@[simp] theorem link_next : (d.link old new).next = d.next := rfl

theorem rename_nodes : (d.rename old new).nodes = d.nodes := by
  unfold rename
  split <;> rfl

theorem rename_next : (d.rename old new).next = d.next := by
  unfold rename
  split <;> rfl

theorem rename_entries_new : (d.rename old new).entries new = d.entries old := by
  unfold rename
  split
  · rename_i same
    rw [same]
  · rename_i differs
    rw [unlink_entries_of_ne (Ne.symm differs), link_entries_new]

theorem rename_entries_old (differs : old ≠ new) : (d.rename old new).entries old = none := by
  rw [rename, if_neg differs, unlink_entries_self]

theorem rename_entries_of_ne (fromOld : other ≠ old) (fromNew : other ≠ new) :
    (d.rename old new).entries other = d.entries other := by
  unfold rename
  split
  · rfl
  · rw [unlink_entries_of_ne fromOld, link_entries_of_ne fromNew]

end Directory

end Files
