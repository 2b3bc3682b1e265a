import Mathlib.Tactic

/-!
# A directory tree with symbolic links

A tree tells what is at each place, a place being the names on the way from the
root. `walk` follows a path as a kernel does: it enters directories only, and
replaces a link by its target, a bounded number of times. A path that meets no
link ends at the place it spells.
-/

namespace Files

/-- What stands between two slashes of a path. -/
inductive Segment (N : Type)
  | empty
  | here
  | up
  | name (name : N)
  deriving DecidableEq

/-- What is at a place. -/
inductive Kind (N : Type)
  | file
  | directory
  /-- A link, with the path it holds. -/
  | link (target : List (Segment N))
  | special
  deriving DecidableEq

structure FileTree (N : Type) where
  kind : List N → Option (Kind N)
  root : kind [] = some .directory
  parent : ∀ place name, kind (place ++ [name]) ≠ none → kind place = some .directory

/-- Why a walk does not arrive. -/
inductive Refusal
  | missing
  | notDirectory
  | loop
  deriving DecidableEq

/-- The path starts with a slash. -/
def isAbsolute {N : Type} : List (Segment N) → Bool
  | .empty :: _ :: _ => true
  | _ => false

/-- The path that spells a place, from there. -/
def spell {N : Type} (names : List N) : List (Segment N) := names.map .name

namespace FileTree

variable {N : Type} (t : FileTree N)

/-- Nothing on the way to a place, or at it, is a link. -/
def Plain (place : List N) : Prop := ∀ way target, way <+: place → t.kind way ≠ some (.link target)

variable {t} {place names : List N} {name : N}

theorem Plain.root : t.Plain [] := by
  intro way target before
  rw [List.prefix_nil.mp before, t.root]
  exact fun impossible => nomatch impossible

theorem Plain.of_prefix {way : List N} (plain : t.Plain place) (before : way <+: place) :
    t.Plain way :=
  fun other target earlier => plain other target (earlier.trans before)

theorem Plain.dropLast (plain : t.Plain place) : t.Plain place.dropLast :=
  plain.of_prefix (List.dropLast_prefix place)

theorem Plain.append (plain : t.Plain place) (last : ∀ target, t.kind (place ++ [name]) ≠ some (.link target)) :
    t.Plain (place ++ [name]) := by
  intro way target before
  rcases List.prefix_concat_iff.mp before with rfl | earlier
  · exact last target
  · exact plain way target earlier

/-- A root without entries. -/
def bare [DecidableEq N] : FileTree N where
  kind place := if place = [] then some .directory else none
  root := if_pos rfl
  parent place name present := by
    rw [if_neg (List.append_ne_nil_of_right_ne_nil _ (List.cons_ne_nil _ _))] at present
    exact absurd rfl present

/-- A new entry in a directory. -/
def insert [DecidableEq N] (t : FileTree N) (directory : List N) (name : N) (new : Kind N)
    (present : t.kind directory = some .directory) (absent : t.kind (directory ++ [name]) = none) :
    FileTree N where
  kind place := if place = directory ++ [name] then some new else t.kind place
  root := by
    rw [if_neg (List.append_ne_nil_of_right_ne_nil _ (List.cons_ne_nil _ _)).symm]
    exact t.root
  parent place last below := by
    have above : t.kind place = some .directory := by
      by_cases same : place ++ [last] = directory ++ [name]
      · rw [(List.append_inj' same rfl).1]
        exact present
      · rw [if_neg same] at below
        exact t.parent place last below
    rw [if_neg]
    · exact above
    · intro same
      rw [same, absent] at above
      cases above

section Insert

variable [DecidableEq N] {directory : List N} {new : Kind N}
  {present : t.kind directory = some .directory} {absent : t.kind (directory ++ [name]) = none}

@[simp] theorem insert_kind_self :
    (t.insert directory name new present absent).kind (directory ++ [name]) = some new :=
  if_pos rfl

theorem insert_kind_of_ne (other : place ≠ directory ++ [name]) :
    (t.insert directory name new present absent).kind place = t.kind place :=
  if_neg other

theorem Plain.insert (plain : t.Plain place) (unlinked : ∀ target, new ≠ .link target) :
    (t.insert directory name new present absent).Plain place := by
  intro way target before
  by_cases same : way = directory ++ [name]
  · subst same
    rw [insert_kind_self]
    intro link
    exact unlinked target (Option.some.inj link)
  · rw [insert_kind_of_ne same]
    exact plain way target before

end Insert

/-! ## Walks -/

variable (t) [DecidableEq N]

/-- One path, as far as its first link that has to be followed: from there, `next`
goes on. A link at the end of the path is followed only if `follow` says so. -/
def walkStep (follow : Bool) (next : List N → List (Segment N) → Except Refusal (List N)) :
    List N → List (Segment N) → Except Refusal (List N)
  | place, [] => .ok place
  | place, segment :: rest =>
    if t.kind place ≠ some .directory then .error .notDirectory
    else match segment with
    | .empty | .here => walkStep follow next place rest
    | .up => walkStep follow next place.dropLast rest
    | .name name =>
      match t.kind (place ++ [name]) with
      | none => .error .missing
      | some (.link target) =>
        if rest = [] ∧ follow = false then .ok (place ++ [name])
        else next (if isAbsolute target then [] else place) (target ++ rest)
      | some _ => walkStep follow next (place ++ [name]) rest

/-- A walk that follows at most `links` links. -/
def walk (follow : Bool) : Nat → List N → List (Segment N) → Except Refusal (List N)
  | 0 => t.walkStep follow fun _ _ => .error .loop
  | links + 1 => t.walkStep follow (walk follow links)

/-- What is at the end of a path; a link there is not followed. -/
def lstat (links : Nat) (path : List (Segment N)) : Except Refusal (Kind N) := do
  let place ← t.walk false links [] path
  (t.kind place).elim (.error .missing) .ok

/-- What is at the end of a path, links followed. -/
def stat (links : Nat) (place : List N) (path : List (Segment N)) : Except Refusal (Kind N) := do
  let place ← t.walk true links place path
  (t.kind place).elim (.error .missing) .ok

variable {t} {follow : Bool} {links : Nat}

theorem walkStep_name {next : List N → List (Segment N) → Except Refusal (List N)}
    {rest : List (Segment N)} (directory : t.kind place = some .directory)
    (plain : ∀ target, t.kind (place ++ [name]) ≠ some (.link target))
    (present : t.kind (place ++ [name]) ≠ none) :
    t.walkStep follow next place (.name name :: rest) =
      t.walkStep follow next (place ++ [name]) rest := by
  rw [walkStep, if_neg (not_not_intro directory)]
  split
  · rename_i none
    exact absurd none present
  · rename_i target link
    exact absurd link (plain target)
  · rfl

end FileTree

end Files
