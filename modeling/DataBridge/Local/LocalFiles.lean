import DataBridge.Connectors.Base
import DataBridge.Files.Realpath

/-!
# The file system of the service host

What the local connector sees of it: a tree with links, the limits of the kernel
and of Python, and what the operating system refuses at a place. `Path` is pathlib's,
and `resolveFile` finds the file that a connection names.
-/

namespace DataBridge

open Files

/-! ## Paths -/

/-- One part of a path. -/
def segmentOf (part : Text) : Segment Text :=
  if part = [] then .empty
  else if part = lit "." then .here
  else if part = lit ".." then .up
  else .name part

/-- A text, split at its slashes. -/
def segments (path : Text) : List (Segment Text) :=
  (path.splitOn (.ofChar '/')).map segmentOf

/-- `pathlib.Path`, which keeps neither empty parts nor `.`. -/
structure Path where
  absolute : Bool
  parts : List (Segment Text)
  deriving DecidableEq

/-- `Path(text)`. -/
def Path.parse (text : Text) : Path where
  absolute := isAbsolute (segments text)
  parts := (segments text).filter fun part => part ≠ .empty ∧ part ≠ .here

/-- The path as the operating system reads it. -/
def Path.segments (path : Path) : List (Segment Text) :=
  if path.absolute then .empty :: (if path.parts = [] then [.empty] else path.parts) else path.parts

/-- The text of a resolved path. -/
def placeText (names : List Text) : Text :=
  if names = [] then lit "/" else names.flatMap fun name => lit "/" ++ name

/-! ## The file system -/

structure LocalFiles where
  tree : FileTree Text
  /-- The working directory, a resolved place. -/
  start : List Text
  plain : tree.Plain start
  /-- How many links the kernel follows on one path. -/
  links : Nat
  /-- How deep Python's calls may be nested. -/
  depth : Nat
  /-- Why the operating system does not open or create something at a place, if so. -/
  refusal : List Text → Option Errno

/-- The error number of a path that leads nowhere. -/
def walkErrno : Refusal → Errno
  | .missing => .ENOENT
  | .notDirectory => .ENOTDIR
  | .loop => .ELOOP

namespace LocalFiles

variable (fs : LocalFiles)

/-- `os.open` of an existing file with `O_NOFOLLOW`: its place and what is there. -/
def openFile (names : List Text) : Except Errno (List Text × Kind Text) :=
  match fs.tree.walk false fs.links [] (spell names) with
  | .error why => .error (walkErrno why)
  | .ok place =>
    match fs.tree.kind place, fs.refusal place with
    | none, _ => .error .ENOENT
    | some (.link _), _ => .error .ELOOP
    | some _, some errno => .error errno
    | some kind, none => .ok (place, kind)

/-- The directory and the name that a call which makes or replaces an entry works on. -/
def locate (start : List Text) (path : List (Segment Text)) : Except Errno (List Text × Text) :=
  match path.getLast? with
  | some (.name name) =>
    match fs.tree.walk true fs.links start path.dropLast with
    | .error why => .error (walkErrno why)
    | .ok directory =>
      if fs.tree.kind directory = some .directory then .ok (directory, name) else .error .ENOTDIR
  | _ => .error .EEXIST

/-- The same files with a new entry that is no link. -/
def add (directory : List Text) (name : Text) (new : Kind Text) (unlinked : ∀ target, new ≠ .link target)
    (present : fs.tree.kind directory = some .directory)
    (absent : fs.tree.kind (directory ++ [name]) = none) : LocalFiles :=
  { fs with
    tree := fs.tree.insert directory name new present absent
    plain := fs.plain.insert unlinked }

/-- Make a new entry that is no link: `os.mkdir`, or `os.open` with
`O_CREAT | O_EXCL | O_NOFOLLOW`. -/
def make (new : Kind Text) (unlinked : ∀ target, new ≠ .link target) (start : List Text)
    (path : List (Segment Text)) : Except Errno LocalFiles :=
  match fs.locate start path with
  | .error errno => .error errno
  | .ok (directory, name) =>
    if h : fs.tree.kind directory = some .directory ∧ fs.tree.kind (directory ++ [name]) = none then
      match fs.refusal (directory ++ [name]) with
      | some errno => .error errno
      | none => .ok (fs.add directory name new unlinked h.1 h.2)
    else .error .EEXIST

end LocalFiles

/-! ## The connector -/

/-- The field of `LocalConnector`. -/
structure LocalConnector where
  root : Text

/-- `_root_unavailable` of the local connector. -/
def localRootUnavailable : Exc :=
  .ofCode .connectionRootUnavailable (lit "The local connection directory is unavailable")

namespace LocalConnector

variable (c : LocalConnector) (fs : LocalFiles)

/-- `_root`. -/
def resolvedRoot : Except Exc (List Text) :=
  match fs.tree.resolve fs.links true fs.depth fs.start (Path.parse c.root).segments with
  | .error _ => .error localRootUnavailable
  | .ok root =>
    if fs.tree.stat fs.links [] (spell root.names) = .ok .directory then .ok root.names
    else .error localRootUnavailable

/-- `root / filename`. -/
def joined (root : List Text) (filename : Text) : List (Segment Text) :=
  .empty :: spell (root ++ [filename])

/-- `_resolve`. -/
def resolveFile (filename : Text) : Except Exc (List Text × PurePath Text) := do
  let _ ← validateFilename filename
  let root ← c.resolvedRoot fs
  match fs.tree.resolve fs.links false fs.depth fs.start (joined root filename) with
  | .error _ =>
    .error (.ofCode .invalidFilename
      (lit "Filename cannot be resolved inside the connection root"))
  | .ok path =>
    if path.doubled = false ∧ root <+: path.names then .ok (root, path)
    else .error (.ofCode .invalidFilename (lit "Filename escapes the connection root"))

end LocalConnector

end DataBridge
