import DataBridge.Files.Tree

/-!
# Resolved paths

`posixpath.realpath` and `pathlib.Path.resolve` of Python 3.12, for an absolute
path. Each name is looked up and each link replaced by its target, until a link is
met whose own target is still being resolved. Then, unless `strict`, the rest of the
path is appended as it is, and `..` in it only takes a name away. A path that was
resolved without that has no link on the way.
-/

namespace Files

/-- An absolute path in normal form. Two leading slashes are not one. -/
structure PurePath (N : Type) where
  doubled : Bool
  names : List N
  deriving DecidableEq

/-- What `_joinrealpath` returns: a resolved place, or a path with its rest. -/
inductive Resolved (N : Type)
  | place (names : List N)
  | unresolved (path : List (Segment N))
  deriving DecidableEq

inductive ResolveError
  /-- An `OSError`; one of a loop becomes a `RuntimeError` in `resolve`. -/
  | refused (why : Refusal)
  /-- `RecursionError`. -/
  | recursion
  deriving DecidableEq

/-- `posixpath.join`, up to a slash at the end. -/
def joinPath {N : Type} [DecidableEq N] (path rest : List (Segment N)) : List (Segment N) :=
  if isAbsolute rest then rest
  else if path.getLast? = some .empty then path.dropLast ++ rest
  else path ++ rest

/-- The links under way, and what the links met before resolve to. -/
abbrev Seen (N : Type) := List (List N × Option (List N))

/-- The loop of `normpath` for an absolute path. -/
def normalNames {N : Type} : List N → List (Segment N) → List N
  | names, [] => names
  | names, .empty :: rest | names, .here :: rest => normalNames names rest
  | names, .up :: rest => normalNames names.dropLast rest
  | names, .name name :: rest => normalNames (names ++ [name]) rest

/-- `normpath` of an absolute path. -/
def normpath {N : Type} (path : List (Segment N)) : PurePath N where
  doubled := match path with
    | .empty :: .empty :: .empty :: rest => rest.isEmpty
    | .empty :: .empty :: _ => true
    | _ => false
  names := normalNames [] path

namespace FileTree

variable {N : Type} [DecidableEq N] (t : FileTree N) (links : Nat) (strict : Bool)

/-- The loop of `_joinrealpath`; `next` resolves the target of a link. -/
def joinStep (next : List N → List (Segment N) → Seen N → Except ResolveError (Resolved N × Seen N)) :
    List N → List (Segment N) → Seen N → Except ResolveError (Resolved N × Seen N)
  | path, [], seen => .ok (.place path, seen)
  | path, .empty :: rest, seen | path, .here :: rest, seen => joinStep next path rest seen
  | path, .up :: rest, seen => joinStep next path.dropLast rest seen
  | path, .name name :: rest, seen =>
    match t.lstat links (spell (path ++ [name])) with
    | .error why => if strict then .error (.refused why) else joinStep next (path ++ [name]) rest seen
    | .ok (.link target) =>
      match seen.lookup (path ++ [name]) with
      | some (some resolved) => joinStep next resolved rest seen
      | some none =>
        if strict then .error (.refused .loop)
        else .ok (.unresolved (joinPath (.empty :: spell (path ++ [name])) rest), seen)
      | none =>
        match next path target ((path ++ [name], none) :: seen) with
        | .error e => .error e
        | .ok (.unresolved other, seen) => .ok (.unresolved (joinPath other rest), seen)
        | .ok (.place resolved, seen) =>
          joinStep next resolved rest ((path ++ [name], some resolved) :: seen)
    | .ok _ => joinStep next (path ++ [name]) rest seen

/-- `_joinrealpath`, with the depth of recursion that Python allows. -/
def joinRealpath : Nat → List N → List (Segment N) → Seen N →
    Except ResolveError (Resolved N × Seen N)
  | 0, _, _, _ => .error .recursion
  | depth + 1, path, rest, seen =>
    if isAbsolute rest then t.joinStep links strict (joinRealpath depth) [] rest.tail seen
    else t.joinStep links strict (joinRealpath depth) path rest seen

/-- `posixpath.realpath`; a relative path starts at the working directory. -/
def realpath (depth : Nat) (start : List N) (path : List (Segment N)) :
    Except ResolveError (PurePath N) :=
  match t.joinRealpath links strict depth start path [] with
  | .error e => .error e
  | .ok (.place names, _) => .ok ⟨false, names⟩
  | .ok (.unresolved path, _) => .ok (normpath path)

/-- `Path.resolve`. -/
def resolve (depth : Nat) (start : List N) (path : List (Segment N)) :
    Except ResolveError (PurePath N) :=
  match t.realpath links strict depth start path with
  | .error e => .error e
  | .ok path =>
    if strict = false ∧ t.stat links [] (spell path.names) = .error .loop then .error (.refused .loop)
    else .ok path

variable {t} {links} {strict} {path names : List N} {name : N} {rest : List (Segment N)} {seen : Seen N}

/-! ## No links on the way -/

/-- What is remembered of links has no links on the way. -/
def SeenPlain (t : FileTree N) (seen : Seen N) : Prop :=
  ∀ link resolved, seen.lookup link = some (some resolved) → t.Plain resolved

theorem SeenPlain.cons {link : List N} {entry : Option (List N)} (seenPlain : t.SeenPlain seen)
    (plain : ∀ resolved, entry = some resolved → t.Plain resolved) :
    t.SeenPlain ((link, entry) :: seen) := by
  intro other resolved found
  rw [List.lookup_cons] at found
  cases same : other == link with
  | true =>
    rw [same] at found
    exact plain resolved (Option.some.inj found)
  | false =>
    rw [same] at found
    exact seenPlain other resolved found

end FileTree

end Files
