import DataBridge.Files.Directory
import DataBridge.Sftp.SessionLog

/-!
# A write session against a directory

A server applies each request to its directory at once or not at all, and says
so only when it did; otherwise its answers are arbitrary. `write_fine_iff` tells
when a session keeps its promise: a normal exit means that the destination holds
the bytes, an error that the destination is what it was, unless the error tells
otherwise. The rename is where this can go wrong.
-/

namespace DataBridge

open Effect Routine Files

/-- The files of a server, and the handles it has given out. -/
structure RemoteFiles where
  dir : Directory Text
  handles : Bytes → Option Nat := fun _ => none

namespace RemoteFiles

/-- Put data into a file. -/
def store (offset : Nat) (data : Bytes) (node : Node) : Node :=
  { node with content := splice node.content offset data }

/-- One request of a write session, applied. -/
inductive Applies (files : RemoteFiles) : Request → RemoteFiles → Prop
  | stat {path : Text} : Applies files (.stat path) files
  | openNew {path : Text} {handle : Bytes} {mode : Nat} : files.dir.entries path = none →
    files.handles handle = none →
    Applies files (.openNew path) {
      dir := files.dir.create path mode
      handles := Function.update files.handles handle (some files.dir.next) }
  | write {handle data : Bytes} {offset number : Nat} : files.handles handle = some number →
    Applies files (.write handle offset data)
      { files with dir := files.dir.modify number (store offset data) }
  | fsync {handle : Bytes} {number : Nat} : files.handles handle = some number →
    Applies files (.fsync handle) files
  | close {handle : Bytes} {number : Nat} : files.handles handle = some number →
    Applies files (.close handle)
      { files with handles := Function.update files.handles handle none }
  | setstat {path : Text} {number mode : Nat} : files.dir.entries path = some (.file number) →
    Applies files (.setstat path mode)
      { files with dir := files.dir.modify number fun node => { node with mode } }
  | remove {path : Text} {number : Nat} : files.dir.entries path = some (.file number) →
    Applies files (.remove path) { files with dir := files.dir.unlink path }
  | rename {old new : Text} {number : Nat} : files.dir.entries old = some (.file number) →
    files.dir.entries new ≠ some .directory →
    Applies files (.rename old new) { files with dir := files.dir.rename old new }
  | posixRename {old new : Text} {number : Nat} : files.dir.entries old = some (.file number) →
    files.dir.entries new ≠ some .directory →
    Applies files (.posixRename old new) { files with dir := files.dir.rename old new }

/-- The file that a request moves, if it is applied. -/
def moved (files : RemoteFiles) : Request → Option Node
  | .rename old _ | .posixRename old _ =>
    match files.dir.item old with
    | some (.file node) => some node
    | _ => none
  | _ => none

end RemoteFiles

/-- A server with an account of what its renames moved, one entry a request. -/
structure Remote where
  files : RemoteFiles
  journal : List (Option Node) := []

/-- A reply that says the request was applied. -/
def Granted : Request → Reply → Prop
  | .openNew _, reply => ∃ handle, openedHandle reply = .ok handle
  | .stat _, reply => ∃ attributes, reported reply = .ok attributes
  | _, reply => Succeeded reply

/-- A request is applied, or it is not and the reply does not say that it was. -/
def Remote.Serves (server : Remote) (request : Request) (reply : Reply) (server' : Remote) : Prop :=
  (∃ files, server.files.Applies request files ∧
    server' = ⟨files, server.journal ++ [server.files.moved request]⟩) ∨
  (¬Granted request reply ∧ server' = ⟨server.files, server.journal ++ [none]⟩)

/-- A server before a session. -/
def Remote.start (dir : Directory Text) : Remote := { files := { dir } }

/-! ## The promise of a session -/

/-- What the caller of a session relies on. -/
def Fine (before : Directory Text) (destination : Text) (written : Bytes) (server : Remote) :
    Except Exc Unit → Prop
  | .ok _ => ∃ mode, server.files.dir.item destination = some (.file ⟨written, mode⟩)
  | .error e => server.files.dir.item destination = before.item destination ∨ Tells e

/-- Every rename that was applied moved a file like the one it replaced, or what
the client learned of it leaves no doubt. -/
def RenamesAnnounced (before : Directory Text) (destination : Text) (net : Net Remote) : Prop :=
  ∀ number node request reply, net.log[number]? = some (request, reply) →
    net.server.journal[number]? = some (some node) →
    before.item destination = some (.file node) ∨ Announced number reply net.faults

/-! ## What the requests do to the directory -/

section History

variable {before : Directory Text} {stage destination : Text} {first server server' : Remote}
  {log : Log} {request : Request} {reply : Reply}

theorem Remote.Serves.journal_length (step : server.Serves request reply server') :
    server'.journal.length = server.journal.length + 1 := by
  rcases step with ⟨files, -, rfl⟩ | ⟨-, rfl⟩
  · exact List.length_append ..
  · exact List.length_append ..

/-- The account has one entry for each request. -/
theorem Served.journal_length (served : Served Remote.Serves first log server) :
    server.journal.length = first.journal.length + log.length := by
  induction served with
  | nil => rfl
  | snoc _ step ih =>
    rw [Remote.Serves.journal_length step, ih, List.length_append, List.length_singleton,
      Nat.add_assoc]

/-- What the destination shows and the files there were are untouched. -/
structure Untouched (before : Directory Text) (destination : Text) (files : RemoteFiles) :
    Prop where
  entry : files.dir.entries destination = before.entries destination
  older : before.next ≤ files.dir.next
  nodes : ∀ number, number < before.next → files.dir.nodes number = before.nodes number

theorem Untouched.item {files : RemoteFiles} (h : Untouched before destination files) :
    files.dir.item destination = before.item destination :=
  Directory.item_congr h.entry fun number found => h.nodes number (before.bounded _ number found)

theorem Untouched.refl {handles : Bytes → Option Nat} :
    Untouched before destination ⟨before, handles⟩ :=
  ⟨rfl, le_refl _, fun _ _ => rfl⟩

/-- Before the staging file is known to exist. -/
theorem Untouched.unopened {files files' : RemoteFiles} (apart : destination ≠ stage)
    (h : Untouched before destination files)
    (kind : request = .stat destination ∨ request = .openNew stage ∨ request = .remove stage)
    (step : files.Applies request files') : Untouched before destination files' := by
  cases step with
  | stat => exact h
  | openNew absent unused =>
    obtain rfl : _ = stage := by simpa using kind
    exact {
      entry := (Directory.create_entries_of_ne apart).trans h.entry
      older := Nat.le_succ_of_le h.older
      nodes := fun number older =>
        (Directory.create_nodes_of_lt (Nat.lt_of_lt_of_le older h.older)).trans
          (h.nodes number older) }
  | remove present =>
    obtain rfl : _ = stage := by simpa using kind
    exact {
      entry := (Directory.unlink_entries_of_ne apart).trans h.entry
      older := h.older
      nodes := h.nodes }
  | _ => simp at kind

/-- A handle in use after one was given out or released. -/
theorem handle_of_update {handles : Bytes → Option Nat} {handle changed : Bytes}
    {value : Option Nat} {n : Nat} (found : Function.update handles changed value handle = some n) :
    value = some n ∨ handles handle = some n := by
  by_cases same : handle = changed
  · subst same
    rw [Function.update_self] at found
    exact .inl found
  · rw [Function.update_of_ne same] at found
    exact .inr found

/-- The staging file is the new file `number`, or it has no name any more. -/
structure Staged (before : Directory Text) (stage destination : Text) (number : Nat)
    (files : RemoteFiles) : Prop where
  untouched : Untouched before destination files
  fresh : before.next ≤ number
  inUse : number < files.dir.next
  handles : ∀ handle n, files.handles handle = some n → n = number
  stage : files.dir.entries stage = none ∨ files.dir.entries stage = some (.file number)

theorem Staged.modify {files : RemoteFiles} {number : Nat} {f : Node → Node}
    (h : Staged before stage destination number files) :
    Staged before stage destination number { files with dir := files.dir.modify number f } where
  untouched := {
    entry := h.untouched.entry
    older := h.untouched.older
    nodes := fun n older =>
      (Directory.modify_nodes_of_ne (Nat.ne_of_lt (Nat.lt_of_lt_of_le older h.fresh))).trans
        (h.untouched.nodes n older) }
  fresh := h.fresh
  inUse := h.inUse
  handles := h.handles
  stage := h.stage

theorem Staged.number_of_entry {files : RemoteFiles} {number n : Nat}
    (h : Staged before stage destination number files)
    (entry : files.dir.entries stage = some (.file n)) : n = number := by
  rcases h.stage with none | some
  · rw [none] at entry
    cases entry
  · rw [some] at entry
    cases entry
    rfl

/-- The requests before the rename change nothing but the staging file. -/
theorem Staged.step {files files' : RemoteFiles} {number : Nat} (apart : destination ≠ stage)
    (h : Staged before stage destination number files) (kind : OfSession stage destination request)
    (step : files.Applies request files') : Staged before stage destination number files' := by
  cases kind with
  | upload kind =>
    cases kind with
    | write =>
      cases step with
      | write opened => exact h.handles _ _ opened ▸ h.modify
    | fsync =>
      cases step with
      | fsync => exact h
    | close =>
      cases step with
      | close =>
        exact {
          untouched := ⟨h.untouched.entry, h.untouched.older, h.untouched.nodes⟩
          fresh := h.fresh
          inUse := h.inUse
          handles := by
            intro handle n found
            rcases handle_of_update found with same | other
            · cases same
            · exact h.handles handle n other
          stage := h.stage }
    | stat =>
      cases step with
      | stat => exact h
    | setstat =>
      cases step with
      | setstat entry => exact h.number_of_entry entry ▸ h.modify
  | look =>
    cases step with
    | stat => exact h
  | remove =>
    cases step with
    | remove =>
      exact {
        untouched := {
          entry := (Directory.unlink_entries_of_ne apart).trans h.untouched.entry
          older := h.untouched.older
          nodes := h.untouched.nodes }
        fresh := h.fresh
        inUse := h.inUse
        handles := h.handles
        stage := .inl Directory.unlink_entries_self }

/-- The staging file holds the bytes that were sent. -/
structure Filling (before : Directory Text) (stage destination : Text) (number : Nat)
    (sent : Bytes) (files : RemoteFiles) : Prop where
  staged : Staged before stage destination number files
  named : files.dir.entries stage = some (.file number)
  content : (files.dir.nodes number).content = sent

/-- Creating the staging file. -/
theorem Untouched.opened {files files' : RemoteFiles} (apart : destination ≠ stage)
    (h : Untouched before destination files) (unused : ∀ handle, files.handles handle = none)
    (step : files.Applies (.openNew stage) files') :
    Filling before stage destination files.dir.next [] files' := by
  have untouched := h.unopened apart (.inr (.inl rfl)) step
  cases step with
  | openNew absent =>
    exact {
      staged := {
        untouched := untouched
        fresh := h.older
        inUse := Nat.lt_succ_self _
        handles := by
          intro handle n found
          rcases handle_of_update found with same | other
          · exact (Option.some.inj same).symm
          · rw [unused handle] at other
            cases other
        stage := .inr Directory.create_entries_self }
      named := Directory.create_entries_self
      content := congrArg Node.content Directory.create_nodes_next }

/-- Data after the last byte is appended. -/
theorem splice_at_end {file data : Bytes} : splice file file.length data = file ++ data := by
  rw [splice, Nat.sub_self, List.replicate_zero, List.append_nil, List.take_length,
    List.drop_eq_nil_of_le (Nat.le_add_right ..), List.append_nil]

/-- A request of the upload that is no WRITE. -/
theorem Filling.step {files files' : RemoteFiles} {number : Nat} {handle sent : Bytes}
    (apart : destination ≠ stage) (h : Filling before stage destination number sent files)
    (kind : OfUpload handle stage request) (other : request.written = none)
    (step : files.Applies request files') :
    Filling before stage destination number sent files' := by
  have staged := h.staged.step apart (.upload kind) step
  cases kind with
  | write => cases other
  | fsync =>
    cases step with
    | fsync => exact h
  | close =>
    cases step with
    | close => exact ⟨staged, h.named, h.content⟩
  | stat =>
    cases step with
    | stat => exact h
  | setstat =>
    cases step with
    | setstat entry =>
      obtain rfl := h.staged.number_of_entry entry
      refine ⟨staged, h.named, ?_⟩
      rw [Directory.modify_nodes_self]
      exact h.content

/-- A WRITE at the end of what was sent. -/
theorem Filling.write {files files' : RemoteFiles} {number : Nat} {handle sent data : Bytes}
    (apart : destination ≠ stage) (h : Filling before stage destination number sent files)
    (step : files.Applies (.write handle sent.length data) files') :
    Filling before stage destination number (sent ++ data) files' := by
  have staged := h.staged.step apart (.upload .write) step
  cases step with
  | write opened =>
    obtain rfl := h.staged.handles _ _ opened
    refine ⟨staged, h.named, ?_⟩
    rw [Directory.modify_nodes_self, RemoteFiles.store, h.content, splice_at_end]

/-! ## What the parts of a log do -/

theorem Remote.Serves.granted (step : server.Serves request reply server')
    (granted : Granted request reply) :
    server.files.Applies request server'.files ∧
      server'.journal = server.journal ++ [server.files.moved request] := by
  rcases step with ⟨files, applied, rfl⟩ | ⟨refused, -⟩
  · exact ⟨applied, rfl⟩
  · exact absurd granted refused

/-- What every request of a kind keeps, when none of them moves a file. -/
theorem Served.along {kind : Request → Prop} {I : RemoteFiles → Prop}
    (served : Served Remote.Serves first log server) (only : Only kind log)
    (still : ∀ request, kind request → ∀ files : RemoteFiles, files.moved request = none)
    (kept : ∀ request files files', kind request → I files →
      RemoteFiles.Applies files request files' → I files')
    (start : I first.files) :
    I server.files ∧ server.journal = first.journal ++ List.replicate log.length none := by
  induction served with
  | nil => exact ⟨start, (List.append_nil _).symm⟩
  | @snoc log server server' request reply _ step ih =>
    obtain ⟨inv, journal⟩ := ih fun entry member => only entry (List.mem_append_left _ member)
    have allowed := only (request, reply) (List.mem_append_right _ List.mem_cons_self)
    have more : first.journal ++ List.replicate (log ++ [(request, reply)]).length none =
        server.journal ++ [none] := by
      rw [journal, List.append_assoc, List.length_append, List.length_singleton,
        List.replicate_succ']
    rcases step with ⟨files, applied, rfl⟩ | ⟨-, rfl⟩
    · exact ⟨kept _ _ _ allowed inv applied, by rw [more, still request allowed]⟩
    · exact ⟨inv, more.symm⟩

theorem OfUpload.still {handle : Bytes} (kind : OfUpload handle stage request)
    (files : RemoteFiles) : files.moved request = none := by
  cases kind <;> rfl

theorem OfSession.still (kind : OfSession stage destination request) (files : RemoteFiles) :
    files.moved request = none := by
  cases kind with
  | upload kind => exact kind.still files
  | look => rfl
  | remove => rfl

/-- The writes of an upload, all acknowledged, store what they send. -/
theorem Served.filled {handle : Bytes} {number : Nat} (apart : destination ≠ stage)
    (served : Served Remote.Serves first log server) (only : Only (OfUpload handle stage) log)
    (succeeded : ∀ entry ∈ log, entry.1.written.isSome → Succeeded entry.2)
    (consecutive : Consecutive 0 (writesOf log))
    (start : Filling before stage destination number [] first.files) :
    Filling before stage destination number (dataOf (writesOf log)) server.files := by
  induction served with
  | nil => exact start
  | @snoc log server server' request reply _ step ih =>
    have kind := only (request, reply) (List.mem_append_right _ List.mem_cons_self)
    have success := succeeded (request, reply) (List.mem_append_right _ List.mem_cons_self)
    rw [writesOf_append] at consecutive
    have filling := ih (fun entry member => only entry (List.mem_append_left _ member))
      (fun entry member => succeeded entry (List.mem_append_left _ member)) consecutive.append.1
    by_cases other : request.written = none
    · rw [writesOf_other other]
      rcases step with ⟨files, applied, rfl⟩ | ⟨-, rfl⟩
      · exact filling.step apart kind other applied
      · exact filling
    · cases kind with
      | @write offset data =>
        obtain ⟨rfl, -⟩ := consecutive.append.2
        obtain ⟨applied, -⟩ := step.granted (success rfl)
        rw [Nat.zero_add] at applied
        have whole : dataOf (writesOf log ++ writesOf [(.write handle (dataOf (writesOf log)).length
            data, reply)]) = dataOf (writesOf log) ++ data := by
          rw [dataOf, List.flatMap_append]
          exact congrArg _ (List.append_nil data)
        rw [Nat.zero_add, writesOf_append, whole]
        exact filling.write apart applied
      | _ => exact absurd rfl other

/-! ## What a session does -/

/-- What a name shows stays under requests of the aftermath. -/
theorem item_kept {files files' : RemoteFiles} {item : Option Item} (apart : destination ≠ stage)
    (kind : OfAftermath stage destination request) (same : files.dir.item destination = item)
    (step : files.Applies request files') : files'.dir.item destination = item := by
  cases kind with
  | look =>
    cases step with
    | stat => exact same
  | remove =>
    cases step with
    | remove =>
      rw [← same]
      exact Directory.item_congr (Directory.unlink_entries_of_ne apart) fun _ _ => rfl

/-- A rename that is applied puts the staging file at the destination. -/
theorem Filling.renamed {files files' : RemoteFiles} {number : Nat} {sent : Bytes} {overwrite : Bool}
    (h : Filling before stage destination number sent files)
    (step : files.Applies (SFTPConnector.publishRequest stage destination overwrite) files') :
    files'.dir.item destination = some (.file (files.dir.nodes number)) ∧
      files.moved (SFTPConnector.publishRequest stage destination overwrite) =
        some (files.dir.nodes number) := by
  have shown : files.dir.item stage = some (.file (files.dir.nodes number)) :=
    Directory.item_file h.named
  have placed : (files.dir.rename stage destination).item destination =
      some (.file (files.dir.nodes number)) := by
    rw [Directory.item_file (Directory.rename_entries_new.trans h.named), Directory.rename_nodes]
  cases overwrite with
  | false =>
    change files.Applies (.rename stage destination) files' at step
    cases step with
    | rename => exact ⟨placed, by rw [SFTPConnector.publishRequest]; simp [RemoteFiles.moved, shown]⟩
  | true =>
    change files.Applies (.posixRename stage destination) files' at step
    cases step with
    | posixRename =>
      exact ⟨placed, by rw [SFTPConnector.publishRequest]; simp [RemoteFiles.moved, shown]⟩

/-- What a whole session leaves: no file was moved and the destination is what it
was, or the rename put a file with all bytes there. -/
inductive Left (before : Directory Text) (destination : Text) (sent : Bytes) (net : Net Remote)
    (r : Except Exc Unit) : Prop
  | unchanged {e : Exc} : r = .error e → net.server.files.dir.item destination = before.item destination →
    (∀ entry ∈ net.server.journal, entry = none) → Left before destination sent net r
  | replaced {number : Nat} {mode : Nat} {rename : Request} {reply : Reply} :
    net.server.files.dir.item destination = some (.file ⟨sent, mode⟩) →
    net.log[number]? = some (rename, reply) →
    net.server.journal[number]? = some (some ⟨sent, mode⟩) →
    (∀ n node, net.server.journal[n]? = some (some node) → n = number) →
    Told number reply net.faults r → Left before destination sent net r

/-- Where the two can differ, both are about the same rename. -/
theorem Left.fine_iff {sent : Bytes} {net : Net Remote} {r : Except Exc Unit}
    (left : Left before destination sent net r) :
    Fine before destination sent net.server r ↔ RenamesAnnounced before destination net := by
  cases left with
  | unchanged failed same quiet =>
    subst failed
    refine iff_of_true (.inl same) ?_
    intro number node request reply _ moved
    cases quiet _ (List.mem_of_getElem? moved)
  | @replaced number mode rename reply shown asked moved only told =>
    have announced : RenamesAnnounced before destination net ↔
        before.item destination = some (.file ⟨sent, mode⟩) ∨
          Announced number reply net.faults := by
      constructor
      · intro all
        exact all number _ rename reply asked moved
      · intro one n node request answer found movedToo
        obtain rfl := only n node movedToo
        rw [asked] at found
        rw [moved] at movedToo
        cases found
        cases movedToo
        exact one
    rw [announced]
    cases r with
    | ok _ =>
      refine iff_of_true ⟨mode, shown⟩ (.inr (.inr ⟨told.2, .inl told.1⟩))
    | error e =>
      change _ ∨ Tells e ↔ _
      rw [shown, (show Tells e ↔ Announced _ _ _ from told), eq_comm]

theorem forall_mem_replicate_none {journal : List (Option Node)} {length : Nat}
    (same : journal = [] ++ List.replicate length none) : ∀ entry ∈ journal, entry = none := by
  rw [same]
  intro entry member
  exact (List.mem_replicate.mp member).2

/-- A session before its staging file is known. -/
theorem left_unopened {sent : Bytes} {net : Net Remote} {e : Exc} (apart : destination ≠ stage)
    (served : Served Remote.Serves (.start before) net.log net.server)
    (only : Only (fun r => r = .stat destination ∨ r = .openNew stage ∨ r = .remove stage) net.log) :
    Left before destination sent net (.error e) := by
  have along := served.along (I := Untouched before destination) only ?_ ?_ .refl
  · exact .unchanged rfl along.1.item (forall_mem_replicate_none along.2)
  · intro request kind files
    rcases kind with rfl | rfl | rfl <;> rfl
  · intro request files files' kind inv step
    exact inv.unopened apart kind step

/-- The staging file was created. -/
theorem opened_filling {looks : Log} {handle : Bytes} (apart : destination ≠ stage)
    (served : Served Remote.Serves (.start before) (looks ++ [(.openNew stage, reply)]) server)
    (only : Only (· = .stat destination) looks) (opened : openedHandle reply = .ok handle) :
    ∃ number, Filling before stage destination number [] server.files ∧
      server.journal = List.replicate (looks.length + 1) none := by
  obtain ⟨middle, looked, step⟩ := served.last
  have along := looked.along (I := fun files =>
    Untouched before destination files ∧ ∀ handle, files.handles handle = none) only ?_ ?_
    ⟨.refl, fun _ => rfl⟩
  · obtain ⟨⟨untouched, unused⟩, journal⟩ := along
    obtain ⟨applied, later⟩ := step.granted ⟨handle, opened⟩
    refine ⟨_, untouched.opened apart unused applied, ?_⟩
    rw [later, journal, List.replicate_succ']
    rfl
  · intro request look files
    rw [look]
    rfl
  · intro request files files' look inv step
    subst look
    cases step with
    | stat => exact inv

/-- A session without a rename. -/
theorem left_unrenamed {sent : Bytes} {net : Net Remote} {more : Log} {middle : Remote}
    {number length : Nat} {e : Exc} (apart : destination ≠ stage)
    (served : Served Remote.Serves middle more net.server)
    (only : Only (OfSession stage destination) more)
    (filling : Filling before stage destination number [] middle.files)
    (journal : middle.journal = List.replicate length none) :
    Left before destination sent net (.error e) := by
  have along := served.along (I := Staged before stage destination number) only
    (fun _ kind files => kind.still files)
    (fun _ _ _ kind inv step => inv.step apart kind step) filling.staged
  have quiet : net.server.journal = [] ++ List.replicate (length + more.length) none := by
    rw [along.2, journal, List.replicate_add]
    rfl
  exact .unchanged rfl along.1.untouched.item (forall_mem_replicate_none quiet)

/-- What the rename of a session does. -/
theorem rename_left {sent : Bytes} {net : Net Remote} {base more : Log} {middle : Remote}
    {number : Nat} {r : Except Exc Unit} {overwrite : Bool} (apart : destination ≠ stage)
    (served : Served Remote.Serves middle
      ((SFTPConnector.publishRequest stage destination overwrite, reply) :: more) net.server)
    (only : Only (OfAftermath stage destination) more)
    (filling : Filling before stage destination number sent middle.files)
    (journal : middle.journal = List.replicate base.length none)
    (log : net.log = base ++ (SFTPConnector.publishRequest stage destination overwrite, reply) :: more)
    (told : Told base.length reply net.faults r) :
    Left before destination sent net r := by
  obtain ⟨renamed, step, rest⟩ := served.head
  have still : ∀ request, OfAftermath stage destination request →
      ∀ files : RemoteFiles, files.moved request = none :=
    fun request kind files => kind.ofSession.still files
  rcases step with ⟨files, applied, rfl⟩ | ⟨refused, rfl⟩
  · -- The staging file is at the destination, and the aftermath leaves it there.
    obtain ⟨shown, moved⟩ := filling.renamed applied
    have along := rest.along (I := fun files => files.dir.item destination = some
      (.file (middle.files.dir.nodes number))) only still
      (fun _ _ _ kind inv step => item_kept apart kind inv step) shown
    have content : middle.files.dir.nodes number =
        ⟨sent, (middle.files.dir.nodes number).mode⟩ := by
      rw [← filling.content]
    rw [content] at along moved
    have whole : net.server.journal = List.replicate base.length none ++
        some ⟨sent, (middle.files.dir.nodes number).mode⟩ :: List.replicate more.length none := by
      rw [along.2, moved, journal, List.append_assoc, List.singleton_append]
    have asked : net.log[base.length]? =
        some (SFTPConnector.publishRequest stage destination overwrite, reply) := by
      rw [log, List.getElem?_append_right (le_refl _), Nat.sub_self]
      rfl
    refine .replaced along.1 asked ?_ ?_ told
    · rw [whole, List.getElem?_append_right (by rw [List.length_replicate]),
        List.length_replicate, Nat.sub_self]
      rfl
    · intro n node found
      rw [whole] at found
      by_contra other
      rcases Nat.lt_or_gt_of_ne other with earlier | later
      · rw [List.getElem?_append_left (by rwa [List.length_replicate])] at found
        cases (List.mem_replicate.mp (List.mem_of_getElem? found)).2
      · rw [List.getElem?_append_right (by rw [List.length_replicate]; omega),
          List.length_replicate, List.getElem?_cons, if_neg (by omega)] at found
        cases (List.mem_replicate.mp (List.mem_of_getElem? found)).2
  · -- The rename did nothing, so it was not acknowledged.
    have along := rest.along (I := Staged before stage destination number) only still
      (fun _ _ _ kind inv step => inv.step apart kind.ofSession step) filling.staged
    cases r with
    | ok _ =>
      refine absurd ?_ refused
      cases overwrite with
      | false => exact told.1
      | true => exact told.1
    | error e =>
      have quiet : net.server.journal = [] ++ List.replicate (base.length + 1 + more.length) none := by
        rw [along.2, journal, List.replicate_add, List.replicate_succ']
        rfl
      exact .unchanged rfl along.1.untouched.item (forall_mem_replicate_none quiet)

theorem left_filled {sent : Bytes} {net : Net Remote} {looks : Log} {handle : Bytes}
    {r : Except Exc Unit} {overwrite : Bool} (apart : destination ≠ stage)
    (served : Served Remote.Serves (.start before) net.log net.server)
    (only : Only (· = .stat destination) looks) (opened : openedHandle reply = .ok handle)
    (filled : Filled (SFTPConnector.publishRequest stage destination overwrite) stage destination
      handle (looks ++ [(.openNew stage, reply)]) sent net r) :
    Left before destination sent net r := by
  cases filled with
  | unrenamed after =>
    obtain ⟨more, log, kinds⟩ := after
    rw [log] at served
    obtain ⟨middle, start, rest⟩ := served.split
    obtain ⟨number, filling, journal⟩ := opened_filling apart start only opened
    exact left_unrenamed apart rest kinds filling journal
  | @renamed written again reply' _ kinds looksAgain whole consecutive succeeded after told =>
    obtain ⟨more, log, aftermath⟩ := after
    have parts : net.log = (looks ++ [(.openNew stage, reply)]) ++ (written ++ (again ++
        (SFTPConnector.publishRequest stage destination overwrite, reply') :: more)) := by
      rw [log]
      simp only [List.append_assoc, List.cons_append, List.nil_append]
    rw [parts] at served
    obtain ⟨first, start, rest⟩ := served.split
    obtain ⟨second, writing, rest⟩ := rest.split
    obtain ⟨third, looking, rest⟩ := rest.split
    obtain ⟨number, filling, journal⟩ := opened_filling apart start only opened
    have quiet := writing.along (I := fun _ => True) kinds (fun _ kind files => kind.still files)
      (fun _ _ _ _ _ _ => trivial) trivial
    have filled := writing.filled apart kinds succeeded consecutive filling
    rw [whole] at filled
    have looked := looking.along (I := Filling before stage destination number sent) looksAgain
      (fun _ look _ => look ▸ rfl) ?_ filled
    · refine rename_left apart rest aftermath looked.1 ?_ ?_ told
      · rw [looked.2, quiet.2, journal]
        simp only [List.length_append, List.length_singleton, List.replicate_add]
      · rw [parts]
        simp only [List.append_assoc]
    · intro request files files' look inv step
      subst look
      cases step with
      | stat => exact inv

theorem SessionLog.left {sent : Bytes} {net : Net Remote} {r : Except Exc Unit} {overwrite : Bool}
    (apart : destination ≠ stage)
    (h : SessionLog (SFTPConnector.publishRequest stage destination overwrite) stage destination
      sent net r)
    (served : Served Remote.Serves (.start before) net.log net.server) :
    Left before destination sent net r := by
  cases h with
  | unopened only => exact left_unopened apart served only
  | opened only opened filled => exact left_filled apart served only opened filled

end History

/-! ## The staging file and the destination -/

theorem isReservedName_stageName (stagingId : Uuid) : isReservedName (stageName stagingId) = true := by
  unfold isReservedName stageName
  rw [List.append_assoc, Text.lower_append, List.isPrefixOf_iff_prefix]
  exact List.IsPrefix.trans (by decide) (List.prefix_append _ _)

theorem head_stageName (stagingId : Uuid) : (stageName stagingId).head? = some (.ofChar '.') := rfl

/-- An accepted name is not reserved and has no separator. -/
theorem validateFilename_ok {filename name : Text} (accepted : validateFilename filename = .ok name) :
    .ofChar '/' ∉ filename ∧ isReservedName filename = false := by
  unfold validateFilename at accepted
  split at accepted
  · cases accepted
  · rename_i plain
    simp only [not_or] at plain
    refine ⟨plain.2.2.2.1, ?_⟩
    split at accepted
    · cases accepted
    · split at accepted
      · cases accepted
      · split at accepted
        · cases accepted
        · rename_i open_
          exact Bool.eq_false_iff.mpr open_

/-- Joining names without a leading separator keeps them apart. -/
theorem posixJoin_inj {root first second : Text} (left : first.head? ≠ some (.ofChar '/'))
    (right : second.head? ≠ some (.ofChar '/'))
    (same : posixJoin root first = posixJoin root second) : first = second := by
  unfold posixJoin at same
  rw [if_neg left, if_neg right] at same
  split at same
  · exact List.append_cancel_left same
  · exact List.append_cancel_left same

theorem destination_ne_stage {root filename name : Text} {stagingId : Uuid}
    (accepted : validateFilename filename = .ok name) :
    posixJoin root filename ≠ posixJoin root (stageName stagingId) := by
  intro same
  obtain ⟨plain, open_⟩ := validateFilename_ok accepted
  have eq := posixJoin_inj (fun head => plain (List.mem_of_mem_head? head)) (by
    rw [head_stageName]
    decide) same
  rw [eq, isReservedName_stageName] at open_
  cases open_

/-! ## The promise -/

theorem not_granted_status {code : Nat} (small : code < 2 ^ 32) (failed : code ≠ sftpOk) :
    ¬Granted request (statusReply code) := by
  have status : IsStatus code (statusReply code).payload :=
    ⟨[], [], by decide, by
      rw [statusReply, List.length_append, length_bigEndian]
      decide, rfl⟩
  have refused : ∀ expected, accept expected (stash (statusReply code)) = .error (.status code) :=
    fun _ => accept_failure status small failed
  intro granted
  cases request with
  | openNew =>
    obtain ⟨handle, opened⟩ := granted
    rw [openedHandle, refused] at opened
    cases opened
  | stat =>
    obtain ⟨attributes, parsed⟩ := granted
    rw [reported, refused] at parsed
    cases parsed
  | _ =>
    obtain ⟨rest, accepted⟩ := granted
    rw [refused] at accepted
    cases accepted

/-- A session with a name that is not a file name asks for nothing. -/
theorem write_invalid_wp {S : Type} {serve : S → Request → Reply → S → Prop} {c : SFTPConnector}
    {connected : Except Exc Unit} {filename : Text} {stagingId : Uuid} {overwrite : Bool}
    {body : SinkBody} {server : S} {e : Exc} (invalid : validateFilename filename = .error e) :
    (c.write connected filename stagingId overwrite body).Wp (session serve)
      (fun r _ net' => r = .error e ∧ net' = { server }) { handle := none } { server } := by
  have refused : c.path filename = .error e := by
    rw [SFTPConnector.path, invalid]
    rfl
  unfold SFTPConnector.write
  rw [refused]
  refine .bind (P := fun r _ net' => r = .error e ∧ net' = { server })
    (.ofExcept (Setting.settled_alone.mpr ⟨rfl, rfl⟩)) ?_ ?_
  · intro destination _ _ impossible
    cases impossible.1
  · intro e' _ _ same
    exact Setting.settled_alone.mpr ⟨congrArg Except.error (Except.error.inj same.1), same.2⟩

/-- A session keeps its promise exactly when its rename did nothing that the
client does not learn of. -/
theorem SFTPConnector.write_fine_iff {c : SFTPConnector} {connected : Except Exc Unit}
    {filename : Text} {stagingId : Uuid} {overwrite : Bool} {body : SinkBody}
    {before : Directory Text} {outcome : Except Exc Unit} {s : UploadState} {net : Net Remote}
    (run : Prog.Reach (Wire.sem Remote.Serves TransportFault)
      (c.write connected filename stagingId overwrite body { handle := none },
        { server := .start before }) (.ret (outcome, s), net)) :
    Fine before (posixJoin c.root filename) (SinkCall.written body.calls) net.server outcome ↔
      RenamesAnnounced before (posixJoin c.root filename) net := by
  cases valid : validateFilename filename with
  | error e =>
    obtain ⟨rfl, rfl⟩ := (write_invalid_wp valid).result run
    refine iff_of_true (.inl rfl) ?_
    intro number node request reply none
    cases none
  | ok name =>
    have log := write_wp.result run
    exact (log.left (destination_ne_stage valid) (Served.reach .nil run)).fine_iff

/-- A server with one handle, and with this answer to a rename that it applies. -/
def directoryServer (renamed : Reply) (server : Remote) (request : Request) : Reply × Remote :=
  let dir := server.files.dir
  let handles := server.files.handles
  let refuse : Reply × Remote :=
    (statusReply sftpFailure, { server with journal := server.journal ++ [none] })
  let apply (reply : Reply) (files : RemoteFiles) : Reply × Remote :=
    (reply, ⟨files, server.journal ++ [server.files.moved request]⟩)
  let move (old new : Text) : Reply × Remote :=
    match dir.entries old with
    | some (.file _) =>
      if dir.entries new ≠ some .directory then
        apply renamed { server.files with dir := dir.rename old new }
      else refuse
    | _ => refuse
  match request with
  | .stat path =>
    match dir.item path with
    | some (.file node) =>
      apply (attributesReply ⟨some node.content.length, some node.mode⟩) server.files
    | _ => apply (statusReply sftpNoSuchFile) server.files
  | .openNew path =>
    if dir.entries path = none ∧ handles [1] = none then
      apply ⟨.handle, stringField [1]⟩
        { dir := dir.create path 0o100600, handles := Function.update handles [1] (some dir.next) }
    else refuse
  | .write handle offset data =>
    match handles handle with
    | some number => apply (statusReply sftpOk)
        { server.files with dir := dir.modify number (RemoteFiles.store offset data) }
    | none => refuse
  | .fsync handle => if (handles handle).isSome then apply (statusReply sftpOk) server.files else refuse
  | .close handle =>
    if (handles handle).isSome then
      apply (statusReply sftpOk) { server.files with handles := Function.update handles handle none }
    else refuse
  | .remove path =>
    match dir.entries path with
    | some (.file _) => apply (statusReply sftpOk) { server.files with dir := dir.unlink path }
    | _ => refuse
  | .rename old new | .posixRename old new => move old new
  | _ => refuse

theorem directoryServer_serves {renamed : Reply} {server server' : Remote} {request : Request}
    {reply : Reply} (answer : Answers (directoryServer renamed) server request reply server') :
    server.Serves request reply server' := by
  have refused : ∀ {request : Request}, server.Serves request (statusReply sftpFailure)
      { server with journal := server.journal ++ [none] } :=
    .inr ⟨not_granted_status (by decide) (by decide), rfl⟩
  have moves : ∀ {old new : Text},
      (match server.files.dir.entries old with
        | some (.file _) =>
          if server.files.dir.entries new ≠ some .directory then
            (renamed, (⟨{ server.files with dir := server.files.dir.rename old new },
              server.journal ++ [server.files.moved request]⟩ : Remote))
          else (statusReply sftpFailure, { server with journal := server.journal ++ [none] })
        | _ => (statusReply sftpFailure, { server with journal := server.journal ++ [none] })) =
        (reply, server') → (∀ number, server.files.dir.entries old = some (.file number) →
          server.files.dir.entries new ≠ some .directory → server.files.Applies request
            { server.files with dir := server.files.dir.rename old new }) →
      server.Serves request reply server' := by
    intro old new answer applies
    split at answer
    · rename_i number present
      split at answer
      · rename_i free
        cases answer
        exact .inl ⟨_, applies number present free, rfl⟩
      · cases answer
        exact refused
    · cases answer
      exact refused
  unfold Answers directoryServer at answer
  dsimp only at answer
  split at answer
  · split at answer
    · cases answer
      exact .inl ⟨_, .stat, rfl⟩
    · cases answer
      exact .inl ⟨_, .stat, rfl⟩
  · split at answer
    · rename_i free
      cases answer
      exact .inl ⟨_, .openNew free.1 free.2, rfl⟩
    · cases answer
      exact refused
  · split at answer
    · rename_i opened
      cases answer
      exact .inl ⟨_, .write opened, rfl⟩
    · cases answer
      exact refused
  · split at answer
    · rename_i opened
      obtain ⟨number, opened⟩ := Option.isSome_iff_exists.mp opened
      cases answer
      exact .inl ⟨_, .fsync opened, rfl⟩
    · cases answer
      exact refused
  · split at answer
    · rename_i opened
      obtain ⟨number, opened⟩ := Option.isSome_iff_exists.mp opened
      cases answer
      exact .inl ⟨_, .close opened, rfl⟩
    · cases answer
      exact refused
  · split at answer
    · rename_i present
      cases answer
      exact .inl ⟨_, .remove present, rfl⟩
    · cases answer
      exact refused
  · exact moves answer fun _ present free => .rename present free
  · exact moves answer fun _ present free => .posixRename present free
  · cases answer
    exact refused

/-- The session of `oneByte`. -/
def oneByteSession : Prog Wire (Except Exc Unit × UploadState) :=
  SFTPConnector.write ⟨lit "/"⟩ (.ok ()) (lit "f") ⟨List.replicate 32 0, rfl⟩ false
    ⟨[.write [7]], none⟩ { handle := none }

/-- `oneByteSession` on a server with this answer to its rename. -/
def oneByte (renamed : Reply) : Option ((Except Exc Unit × UploadState) × Net Remote) :=
  Prog.eval (Wire.answer (directoryServer renamed)) 200 oneByteSession () { server := .start .empty }

theorem oneByte_reach {renamed : Reply} {outcome : Except Exc Unit} {s : UploadState}
    {net : Net Remote} (run : oneByte renamed = some ((outcome, s), net)) :
    Prog.Reach (Wire.sem Remote.Serves TransportFault)
      (oneByteSession, { server := .start .empty }) (.ret (outcome, s), net) := by
  have allowed : ∀ ⦃β : Type⦄ (op : Wire β) (o : Unit) (net : Net Remote),
      Wire.sem Remote.Serves TransportFault op net
        (Wire.answer (directoryServer renamed) op o net).1
        (Wire.answer (directoryServer renamed) op o net).2.2 := by
    intro β op o net
    exact Wire.sem_mono (fun _ _ _ _ => directoryServer_serves) (Wire.answer_sem _ op o net)
  exact Prog.eval_reach allowed run

/-- A session that publishes its byte. -/
theorem SFTPConnector.write_fine_published : ∃ outcome s net,
    Prog.Reach (Wire.sem Remote.Serves TransportFault)
      (oneByteSession, { server := .start .empty }) (.ret (outcome, s), net) ∧
      Fine .empty (posixJoin (lit "/") (lit "f")) [7] net.server outcome ∧
      RenamesAnnounced .empty (posixJoin (lit "/") (lit "f")) net := by
  have finished : (oneByte (statusReply sftpOk)).map (fun r =>
      (r.1.1, r.2.server.files.dir.item (posixJoin (lit "/") (lit "f")))) =
      some (.ok (), some (.file ⟨[7], 0o100600⟩)) := by decide +kernel
  obtain ⟨⟨⟨outcome, s⟩, net⟩, run, ended⟩ := Option.map_eq_some_iff.mp finished
  have run := oneByte_reach run
  obtain ⟨rfl, shown⟩ := Prod.mk.inj ended
  have fine : Fine .empty (posixJoin (lit "/") (lit "f")) [7] net.server (.ok ()) :=
    ⟨0o100600, shown⟩
  exact ⟨_, s, net, run, fine, (write_fine_iff (c := ⟨lit "/"⟩) run).mp fine⟩

/-- The server publishes the file and its answer arrives without its fields: the
session raises `DESTINATION_EXISTS`. -/
theorem SFTPConnector.write_not_fine : ¬∀ (c : SFTPConnector) (filename : Text)
    (stagingId : Uuid) (overwrite : Bool) (body : SinkBody) (before : Directory Text)
    (outcome : Except Exc Unit) (s : UploadState) (net : Net Remote),
    Prog.Reach (Wire.sem Remote.Serves TransportFault)
      (c.write (.ok ()) filename stagingId overwrite body { handle := none },
        { server := .start before }) (.ret (outcome, s), net) →
    Fine before (posixJoin c.root filename) (SinkCall.written body.calls) net.server outcome := by
  intro fine
  have finished : (oneByte ⟨.status, []⟩).map (fun r =>
      (r.1.1, r.2.server.files.dir.item (posixJoin (lit "/") (lit "f")))) =
      some (.error (destinationExists (lit "f")), some (.file ⟨[7], 0o100600⟩)) := by decide +kernel
  obtain ⟨⟨⟨outcome, s⟩, net⟩, run, ended⟩ := Option.map_eq_some_iff.mp finished
  have kept := fine ⟨lit "/"⟩ (lit "f") ⟨List.replicate 32 0, rfl⟩ false ⟨[.write [7]], none⟩ .empty
    outcome s net (oneByte_reach run)
  obtain ⟨rfl, shown⟩ := Prod.mk.inj ended
  rcases kept with same | tells
  · rw [shown] at same
    cases same
  · exact not_tells_destinationExists tells

end DataBridge
