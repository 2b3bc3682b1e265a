import DataBridge.Files.Directory
import DataBridge.Local.FileSink

/-!
# The disk under the local connector

The system calls of `LocalConnector.read` and `LocalConnector.write` on a disk that
all sessions share. Files are numbered, names and open descriptors refer to them, and
a descriptor that was closed may be used for another file. Nothing here is a link,
so a path resolves to itself. A call may fail with any `OSError`, and then it has no
effect, except that `close` may have given the descriptor back.
-/

namespace DataBridge

open Effect Files

/-! ## The calls -/

/-- The system calls of a session on paths and on what it opened to read. -/
inductive DiskCall : Type → Type
  | resolve (path : Text) : DiskCall (Except Exc Text)
  | isDirectory (path : Text) : DiskCall (Except Exc Bool)
  /-- `os.stat(path).st_mode`. -/
  | stat (path : Text) : DiskCall (Except Exc Nat)
  /-- `os.open` with `O_WRONLY | O_CREAT | O_EXCL | O_NOFOLLOW | O_CLOEXEC`. -/
  | openNew (path : Text) (mode : Nat) : DiskCall (Except Exc Nat)
  /-- `os.open` with `O_RDONLY | O_NONBLOCK | O_NOFOLLOW | O_CLOEXEC`. -/
  | openRead (path : Text) : DiskCall (Except Exc Nat)
  /-- `os.open(directory, O_RDONLY)`. -/
  | openDirectory (path : Text) : DiskCall (Except Exc Nat)
  /-- `os.fstat`: `st_mode` and `st_size`. -/
  | fstat (descriptor : Nat) : DiskCall (Except Exc (Nat × Nat))
  /-- `os.set_blocking(descriptor, True)`. -/
  | setBlocking (descriptor : Nat) : DiskCall (Except Exc Unit)
  | read (descriptor size : Nat) : DiskCall (Except Exc Bytes)
  | replace (source target : Text) : DiskCall (Except Exc Unit)
  | link (source target : Text) : DiskCall (Except Exc Unit)
  | unlink (path : Text) : DiskCall (Except Exc Unit)

/-- All calls of a session: those of its sink, and its own. -/
abbrev LocalEffect (β : Type) : Type := FileCall β ⊕ DiskCall β

/-! ## The disk -/

/-- What a descriptor refers to, and where it is read. -/
structure Descriptor where
  entry : Entry
  offset : Nat := 0

structure Disk where
  dir : Directory Text
  opened : Nat → Option Descriptor

/-- A call fails with some `OSError`. -/
def OsFails {α : Type} (r : Except Exc α) : Prop := ∃ e, e.isOSError = true ∧ r = .error e

namespace Disk

/-- `st_mode` of what is behind an entry. -/
def HasMode (d : Disk) : Entry → Nat → Prop
  | .file number, mode =>
    isRegular mode = true ∧ permissionBits mode = permissionBits (d.dir.nodes number).mode
  | .directory, mode => isRegular mode = false

/-- `st_size`; that of a directory says nothing. -/
def HasSize (d : Disk) : Entry → Nat → Prop
  | .file number, size => size = (d.dir.nodes number).content.length
  | .directory, _ => True

/-- Give out a descriptor. -/
def attach (descriptor : Nat) (entry : Entry) (offset : Nat) (d : Disk) : Disk :=
  { d with opened := Function.update d.opened descriptor (some { entry, offset }) }

def detach (descriptor : Nat) (d : Disk) : Disk :=
  { d with opened := Function.update d.opened descriptor none }

/-- The same descriptors over other files. -/
def withFiles (dir : Directory Text) (d : Disk) : Disk := { d with dir }

/-- Append to a file. -/
def append (number : Nat) (data : Bytes) (d : Disk) : Disk :=
  d.withFiles (d.dir.modify number fun node => { node with content := node.content ++ data })

def chmod (number mode : Nat) (d : Disk) : Disk :=
  d.withFiles (d.dir.modify number fun node => { node with mode })

end Disk

/-- The answers of the operating system to the calls on a descriptor; a descriptor of
a new file is open at its end, and a write stores some of its data. -/
def FileCall.onDisk : Sem FileCall Disk
  | _, .write descriptor data, d, r, d' =>
    (∃ number offset count, d.opened descriptor = some ⟨.file number, offset⟩ ∧
      count ≤ data.length ∧ (data ≠ [] → 0 < count) ∧ r = .ok count ∧
      d' = d.append number (data.take count)) ∨ OsFails r ∧ d' = d
  | _, .fsync _, d, r, d' => (r = .ok () ∨ OsFails r) ∧ d' = d
  | _, .fileSize descriptor, d, r, d' =>
    ((∃ number offset, d.opened descriptor = some ⟨.file number, offset⟩ ∧
      r = .ok (d.dir.nodes number).content.length) ∨ OsFails r) ∧ d' = d
  | _, .fchmod descriptor mode, d, r, d' =>
    (∃ number offset, d.opened descriptor = some ⟨.file number, offset⟩ ∧ r = .ok () ∧
      d' = d.chmod number mode) ∨ OsFails r ∧ d' = d
  | _, .close descriptor, d, r, d' =>
    r = .ok () ∧ d' = d.detach descriptor ∨ OsFails r ∧ (d' = d ∨ d' = d.detach descriptor)

/-- The answers of the operating system. A rename of one name of a file over another
one of the same file does nothing. -/
def DiskCall.sem : Sem DiskCall Disk
  | _, .resolve path, d, r, d' =>
    (r = .ok path ∨ ∃ e, (e.isOSError ∨ e = .runtimeError) ∧ r = .error e) ∧ d' = d
  | _, .isDirectory _, d, r, d' => ((∃ found, r = .ok found) ∨ OsFails r) ∧ d' = d
  | _, .stat path, d, r, d' =>
    ((∃ entry mode, d.dir.entries path = some entry ∧ d.HasMode entry mode ∧ r = .ok mode) ∨
      OsFails r) ∧ d' = d
  | _, .openNew path mode, d, r, d' =>
    (∃ descriptor, d.dir.entries path = none ∧ d.opened descriptor = none ∧ r = .ok descriptor ∧
      d' = (d.withFiles (d.dir.create path mode)).attach descriptor (.file d.dir.next) 0) ∨
    OsFails r ∧ d' = d
  | _, .openRead path, d, r, d' =>
    (∃ descriptor entry, d.dir.entries path = some entry ∧ d.opened descriptor = none ∧
      r = .ok descriptor ∧ d' = d.attach descriptor entry 0) ∨ OsFails r ∧ d' = d
  | _, .openDirectory _, d, r, d' =>
    (∃ descriptor, d.opened descriptor = none ∧ r = .ok descriptor ∧
      d' = d.attach descriptor .directory 0) ∨ OsFails r ∧ d' = d
  | _, .fstat descriptor, d, r, d' =>
    ((∃ entry offset mode size, d.opened descriptor = some ⟨entry, offset⟩ ∧
      d.HasMode entry mode ∧ d.HasSize entry size ∧ r = .ok (mode, size)) ∨ OsFails r) ∧ d' = d
  | _, .setBlocking _, d, r, d' => (r = .ok () ∨ OsFails r) ∧ d' = d
  | _, .read descriptor size, d, r, d' =>
    (∃ number offset count, d.opened descriptor = some ⟨.file number, offset⟩ ∧
      count ≤ min size ((d.dir.nodes number).content.length - offset) ∧
      (count = 0 → size = 0 ∨ (d.dir.nodes number).content.length ≤ offset) ∧
      r = .ok (((d.dir.nodes number).content.drop offset).take count) ∧
      d' = d.attach descriptor (.file number) (offset + count)) ∨ OsFails r ∧ d' = d
  | _, .replace source target, d, r, d' =>
    (∃ number, d.dir.entries source = some (.file number) ∧
      d.dir.entries target ≠ some .directory ∧ r = .ok () ∧
      d' = if d.dir.entries target = some (.file number) then d
        else d.withFiles (d.dir.rename source target)) ∨ OsFails r ∧ d' = d
  | _, .link source target, d, r, d' =>
    (∃ number, d.dir.entries source = some (.file number) ∧ d.dir.entries target = none ∧
      r = .ok () ∧ d' = d.withFiles (d.dir.link source target)) ∨ OsFails r ∧ d' = d
  | _, .unlink path, d, r, d' =>
    (∃ number, d.dir.entries path = some (.file number) ∧ r = .ok () ∧
      d' = d.withFiles (d.dir.unlink path)) ∨ OsFails r ∧ d' = d

def localSem : Sem LocalEffect Disk
  | _, .inl op => FileCall.onDisk op
  | _, .inr op => DiskCall.sem op

end DataBridge
