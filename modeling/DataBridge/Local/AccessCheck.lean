import DataBridge.Connectors.Probe
import DataBridge.Effect.Ensures
import DataBridge.Local.LocalFiles
import DataBridge.Sftp.Connector

/-!
# The access check of the local connector

`LocalConnector.check_access` over the calls it makes on its root. A call may fail
with any `OSError`, and then it changes nothing.
-/

namespace DataBridge

open Effect Routine Files

/-! ## The root -/

/-- The resolved root, and the entries under it by their paths. -/
structure LocalRoot where
  path : Text
  dir : Directory Text

/-- The calls of `check_access`. -/
inductive RootCall : Type → Type
  /-- `path.resolve(strict=True)`. -/
  | resolve (path : Text) : RootCall (Except Exc Text)
  | isDirectory (path : Text) : RootCall (Except Exc Bool)
  /-- `os.scandir`: the entries that the listing reads, and which are regular files. -/
  | scan (path : Text) : RootCall (Except Exc (List (Text × Bool)))
  /-- `os.open` with `O_WRONLY | O_CREAT | O_EXCL | O_NOFOLLOW`. -/
  | openNew (path : Text) (mode : Nat) : RootCall (Except Exc Nat)
  | close (descriptor : Nat) : RootCall (Except Exc Unit)
  | unlink (path : Text) : RootCall (Except Exc Unit)

/-- The answers of the operating system. -/
def RootCall.sem : Sem RootCall LocalRoot
  | _, .resolve _, w, r, w' =>
    (r = .ok w.path ∨ ∃ e, (e.isOSError ∨ e = .runtimeError) ∧ r = .error e) ∧ w' = w
  | _, .isDirectory _, w, r, w' => ((∃ found, r = .ok found) ∨ ∃ e, e.isOSError ∧ r = .error e) ∧ w' = w
  | _, .scan _, w, r, w' => ((∃ entries, r = .ok entries) ∨ ∃ e, e.isOSError ∧ r = .error e) ∧ w' = w
  | _, .openNew path mode, w, r, w' =>
    (∃ descriptor, w.dir.entries path = none ∧ r = .ok descriptor ∧
      w' = { w with dir := w.dir.create path mode }) ∨
    ∃ e, e.isOSError ∧ r = .error e ∧ w' = w
  | _, .close _, w, r, w' => (r = .ok () ∨ ∃ e, e.isOSError ∧ r = .error e) ∧ w' = w
  | _, .unlink path, w, r, w' =>
    (w.dir.entries path ≠ none ∧ r = .ok () ∧ w' = { w with dir := w.dir.unlink path }) ∨
    ∃ e, e.isOSError ∧ r = .error e ∧ w' = w

/-! ## The check -/

/-- An operation of the local connector on its root. -/
abbrev RootRoutine (α : Type) : Type 1 := Routine RootCall Exc Unit α

/-- `errno in _NOT_WRITABLE | _FULL`. -/
def Exc.refusesWrites : Exc → Bool
  | .osError .EACCES | .osError .EPERM | .osError .EROFS => true
  | .osError .ENOSPC | .osError .EDQUOT => true
  | _ => false

namespace LocalConnector

variable (c : LocalConnector)

/-- `_root`. -/
def resolveRoot : RootRoutine Text := do
  let root ← .catching (.invoke (.resolve c.root)) fun e =>
    .raise (if e.isOSError ∨ e = .runtimeError then localRootUnavailable else e)
  let found ← .invoke (.isDirectory root)
  if found then pure root else .raise localRootUnavailable

/-- `LocalConnector.list_files`. -/
def listFiles : RootRoutine Listing := do
  let root ← c.resolveRoot
  .catching (do
    let entries ← .invoke (.scan root)
    pure (boundedListing entries)) fun e => .raise (if e.isOSError then localRootUnavailable else e)

/-- Create the probe; nothing when the root does not take it. -/
def openProbe (probe : Text) : RootRoutine (Option Nat) :=
  .catching (do
    let descriptor ← .invoke (.openNew probe 0o600)
    pure (some descriptor)) fun e =>
      if e.isOSError then
        if e.refusesWrites then pure none
        else .raise (.ofCode .localIoError
          (lit "Cannot test write access to the connection directory"))
      else .raise e

def probeLeft (name : Text) : Exc :=
  .ofCode .localIoError
    (lit "Cannot remove the write-access probe '" ++ name ++ lit "' from the connection root")

/-- Close and remove the probe. -/
def removeProbe (name probe : Text) (descriptor : Nat) : RootRoutine Unit := do
  .catching (.invoke (.close descriptor)) fun e => if e.isOSError then pure () else .raise e
  .catching (.invoke (.unlink probe)) fun e => .raise (if e.isOSError then probeLeft name else e)

/-- `LocalConnector.check_access`; the result is `writable`. -/
def checkAccess (probeId : Uuid) : RootRoutine Bool := do
  let _ ← c.listFiles
  let root ← c.resolveRoot
  match ← openProbe (posixJoin root (probeName probeId)) with
  | none => pure false
  | some descriptor => do
    removeProbe (probeName probeId) (posixJoin root (probeName probeId)) descriptor
    pure true

/-! ## What the check leaves -/

variable {c} {w : LocalRoot}

theorem resolveRoot_ensures : c.resolveRoot.Ensures RootCall.sem
    (Post (fun root _ w' => root = w.path ∧ w' = w) fun _ _ w' => w' = w) () w := by
  refine .bind (P := Post (fun root _ w' => root = w.path ∧ w' = w) fun _ _ w' => w' = w)
    (.catching (P := Post (fun root _ w' => root = w.path ∧ w' = w) fun _ _ w' => w' = w)
      (.invoke ?_) ?_ ?_) ?_ ?_
  · intro r w' answer
    obtain ⟨rfl | ⟨e, -, rfl⟩, rfl⟩ := answer
    · exact ⟨rfl, rfl⟩
    · exact rfl
  · intro root _ w' resolved
    exact resolved
  · intro e _ w' same
    exact .raise same
  · intro root _ w' resolved
    obtain ⟨rfl, rfl⟩ := resolved
    refine .bind (P := fun _ _ w'' => w'' = w') (.invoke ?_) ?_ ?_
    · intro r w'' answer
      exact answer.2
    · intro found _ w'' same
      subst same
      split
      · exact .pure ⟨rfl, rfl⟩
      · exact .raise rfl
    · intro e _ w'' same
      exact same
  · intro e _ w' same
    exact same

theorem listFiles_ensures :
    c.listFiles.Ensures RootCall.sem (fun _ _ w' => w' = w) () w := by
  refine .bind resolveRoot_ensures ?_ ?_
  · intro root _ w' resolved
    obtain ⟨rfl, rfl⟩ := resolved
    refine .catching (P := fun _ _ w'' => w'' = w')
      (.bind (P := fun _ _ w'' => w'' = w') (.invoke ?_) ?_ ?_) ?_ ?_
    · intro r w'' answer
      exact answer.2
    · intro entries _ w'' same
      exact .pure same
    · intro e _ w'' same
      exact same
    · intro listing _ w'' same
      exact same
    · intro e _ w'' same
      exact .raise same
  · intro e _ w' same
    exact same

/-- The probe is new, or there is none. -/
theorem openProbe_ensures {probe : Text} : (openProbe probe).Ensures RootCall.sem
    (Post (fun opened _ w' => match opened with
      | some _ => w.dir.entries probe = none ∧ w' = { w with dir := w.dir.create probe 0o600 }
      | none => w' = w) fun _ _ w' => w' = w) () w := by
  refine .catching (P := Post (fun opened _ w' => match opened with
      | some _ => w.dir.entries probe = none ∧ w' = { w with dir := w.dir.create probe 0o600 }
      | none => w' = w) fun _ _ w' => w' = w)
    (.bind (P := Post (fun _ _ w' => w.dir.entries probe = none ∧
      w' = { w with dir := w.dir.create probe 0o600 }) fun _ _ w' => w' = w) (.invoke ?_) ?_ ?_)
    ?_ ?_
  · intro r w' answer
    rcases answer with ⟨descriptor, absent, rfl, rfl⟩ | ⟨e, -, rfl, rfl⟩
    · exact ⟨absent, rfl⟩
    · exact rfl
  · intro descriptor _ w' created
    exact .pure created
  · intro e _ w' same
    exact same
  · intro opened _ w' done
    exact done
  · intro e _ w' same
    split
    · split
      · exact .pure same
      · exact .raise same
    · exact .raise same

/-- The probe is removed, or the error names it. -/
theorem removeProbe_ensures {name probe : Text} {descriptor : Nat} :
    (removeProbe name probe descriptor).Ensures RootCall.sem
      (Post (fun _ _ w' => w' = { w with dir := w.dir.unlink probe }) fun e _ _ => Mentions name e)
      () w := by
  refine .bind (P := fun r _ w' => r = .ok () ∧ w' = w)
    (.catching (P := fun r _ w' => (r = .ok () ∨ ∃ e, e.isOSError ∧ r = .error e) ∧ w' = w)
      (.invoke ?_) ?_ ?_) ?_ ?_
  · intro r w' answer
    exact answer
  · intro _ _ w' closed
    exact ⟨rfl, closed.2⟩
  · intro e _ w' refused
    obtain ⟨impossible | ⟨e', os, same⟩, rfl⟩ := refused
    · cases impossible
    · cases same
      rw [if_pos os]
      exact .pure ⟨rfl, rfl⟩
  · intro _ _ w' closed
    obtain ⟨-, rfl⟩ := closed
    refine .catching (P := Post (fun _ _ w'' => w'' = { w' with dir := w'.dir.unlink probe })
      fun e _ _ => e.isOSError = true) (.invoke ?_) ?_ ?_
    · intro r w'' answer
      rcases answer with ⟨-, rfl, rfl⟩ | ⟨e, os, rfl, -⟩
      · exact rfl
      · exact os
    · intro _ _ w'' removed
      exact removed
    · intro e _ w'' os
      rw [if_pos (show e.isOSError = true from os)]
      refine .raise (mentions_ofCode.mpr ?_)
      exact List.infix_append _ _ _
  · intro e _ w' impossible
    cases impossible.1

/-- The check keeps its promise, whatever calls fail. -/
theorem checkAccess_ensures {probeId : Uuid}
    (absent : w.dir.entries (posixJoin w.path (probeName probeId)) = none) :
    (c.checkAccess probeId).Ensures RootCall.sem (fun r _ w' =>
      Cleared (probeName probeId) (posixJoin w.path (probeName probeId)) w.dir w'.dir r) () w := by
  refine .bind listFiles_ensures ?_ ?_
  · intro _ _ w' same
    subst same
    refine .bind resolveRoot_ensures ?_ ?_
    · intro root _ w'' resolved
      obtain ⟨rfl, rfl⟩ := resolved
      refine .bind openProbe_ensures ?_ ?_
      · intro opened _ w' done
        cases opened with
        | none =>
          obtain rfl : w' = w'' := done
          exact .pure rfl
        | some descriptor =>
          obtain ⟨absent, rfl⟩ := done
          refine .bind removeProbe_ensures ?_ ?_
          · intro _ _ w' removed
            obtain rfl := removed
            exact .pure (Directory.unlink_create_entries absent)
          · intro e _ w' named
            exact .inr named
      · intro e _ w' same
        obtain rfl : w' = w'' := same
        exact .inl absent
    · intro e _ w'' same
      obtain rfl : w'' = w' := same
      exact .inl absent
  · intro e _ w' same
    subst same
    exact .inl absent

end LocalConnector

end DataBridge
