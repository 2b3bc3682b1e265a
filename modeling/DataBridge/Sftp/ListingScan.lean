import DataBridge.Connectors.BoundedListing
import DataBridge.Sftp.Listing
import DataBridge.Sftp.SessionLog

/-!
# What a listing says about the directory

The log of a listing shows the pages that the server sent and the lookups of the
entries whose type a page left out. A `Sighting` puts each entry beside its
lookup, and `Taken` says what the scan of `bounded_listing` makes of the entries
so far.
-/

namespace DataBridge

open Effect Routine

/-! ## The transcript of a listing -/

/-- The entries of a page. -/
def readNames (reply : Reply) : Except Exc (List RawEntry) :=
  accept .name (stash reply) >>= Reader.parse Reader.names

def pageEntries : Request × Reply → List RawEntry
  | (.readDirectory _, reply) => (readNames reply).toOption.getD []
  | _ => []

/-- All entries that the server sent, in order. -/
def entriesOf (log : Log) : List RawEntry := log.flatMap pageEntries

/-- The path of a LSTAT with its reply. -/
def lookupOf : Request × Reply → Option (Text × Reply)
  | (.lstat path, reply) => some (path, reply)
  | _ => none

def lookupsOf (log : Log) : List (Text × Reply) := log.filterMap lookupOf

def isReadDirectory : Request × Reply → Bool
  | (.readDirectory _, _) => true
  | _ => false

/-- The number of READDIR requests. -/
def pagesAsked (log : Log) : Nat := log.countP isReadDirectory

/-- An entry with the reply to its lookup, if it needed one. -/
structure Sighting where
  entry : RawEntry
  reply : Option Reply

namespace Sighting

/-- What `_classified` makes of the reply to a lookup. -/
def looked (reply : Reply) : Except Exc (Option Nat) :=
  match reported reply with
  | .ok attributes => .ok attributes.mode
  | .error e =>
    if e = .status sftpNoSuchFile ∨ e = .status sftpPermissionDenied then .ok none else .error e

/-- The mode of an entry, as far as it is known. -/
def seen (g : Sighting) : Except Exc (Option Nat) :=
  match g.reply with
  | none => .ok g.entry.2.mode
  | some reply => looked reply

/-- The pair that `_classified` yields for it. -/
def pair (g : Sighting) : Text × Bool :=
  Requests.classifiedAs g.entry.1 (g.seen.toOption.getD none)

end Sighting

/-- The entries beside their lookups, as far as these go. -/
def sightings (root : Text) : List RawEntry → List (Text × Reply) → List Sighting
  | [], _ => []
  | entry :: entries, lookups =>
    match lookupPath root entry with
    | none => ⟨entry, none⟩ :: sightings root entries lookups
    | some path =>
      match lookups with
      | [] => []
      | (asked, reply) :: lookups =>
        if asked = path then ⟨entry, some reply⟩ :: sightings root entries lookups else []

/-- The lookups are those that the entries need. -/
inductive Looked (root : Text) : List RawEntry → List (Text × Reply) → List Sighting → Prop
  | nil : Looked root [] [] []
  | known {entry : RawEntry} {entries : List RawEntry} {lookups : List (Text × Reply)}
    {gs : List Sighting} : lookupPath root entry = none → Looked root entries lookups gs →
    Looked root (entry :: entries) lookups (⟨entry, none⟩ :: gs)
  | asked {entry : RawEntry} {entries : List RawEntry} {lookups : List (Text × Reply)}
    {gs : List Sighting} {path : Text} {reply : Reply} : lookupPath root entry = some path →
    Looked root entries lookups gs →
    Looked root (entry :: entries) ((path, reply) :: lookups) (⟨entry, some reply⟩ :: gs)

namespace Looked

variable {root : Text} {entries more : List RawEntry} {lookups later : List (Text × Reply)}
  {gs gs' : List Sighting}

theorem sightings_append (h : Looked root entries lookups gs) :
    sightings root (entries ++ more) (lookups ++ later) = gs ++ sightings root more later := by
  induction h with
  | nil => rfl
  | known none _ ih =>
    rw [List.cons_append, sightings, none, List.cons_append]
    exact congrArg _ ih
  | asked path _ ih =>
    rw [List.cons_append, List.cons_append, sightings, path]
    dsimp only
    rw [if_pos rfl, ih]
    rfl

theorem append (h : Looked root entries lookups gs) (h' : Looked root more later gs') :
    Looked root (entries ++ more) (lookups ++ later) (gs ++ gs') := by
  induction h with
  | nil => exact h'
  | known none _ ih => exact .known none ih
  | asked path _ ih => exact .asked path ih

theorem map_entry (h : Looked root entries lookups gs) : gs.map (·.entry) = entries := by
  induction h with
  | nil => rfl
  | known _ _ ih => rw [List.map_cons, ih]
  | asked _ _ ih => rw [List.map_cons, ih]

theorem sightings_eq (h : Looked root entries lookups gs) : sightings root entries lookups = gs := by
  have whole : sightings root (entries ++ []) (lookups ++ []) = gs ++ sightings root [] [] :=
    h.sightings_append
  rwa [List.append_nil, List.append_nil, sightings, List.append_nil] at whole

/-- No more lookups than entries. -/
theorem length_le (h : Looked root entries lookups gs) : lookups.length ≤ entries.length := by
  induction h with
  | nil => exact le_refl _
  | known _ _ ih => exact Nat.le_succ_of_le ih
  | asked _ _ ih => exact Nat.succ_le_succ ih

end Looked

/-- What the scan has taken, with the lookups that this took. -/
def Taken (root : Text) (done : List RawEntry) (lookups : List (Text × Reply))
    (outcome : Scan ⊕ Listing) : Prop :=
  ∃ gs, Looked root done lookups gs ∧ (∀ g ∈ gs, ∃ mode, g.seen = .ok mode) ∧
    Scan.run {} (gs.map (·.pair)) = outcome

namespace Taken

variable {root : Text} {done : List RawEntry} {lookups : List (Text × Reply)} {scan : Scan}
  {outcome : Scan ⊕ Listing}

theorem nil : Taken root [] [] (.inl {}) :=
  ⟨[], .nil, fun _ none => (List.not_mem_nil none).elim, rfl⟩

/-- One more entry. -/
theorem snoc {g : Sighting} {more : List (Text × Reply)} {mode : Option Nat}
    (h : Taken root done lookups (.inl scan)) (looked : Looked root [g.entry] more [g])
    (seen : g.seen = .ok mode) :
    Taken root (done ++ [g.entry]) (lookups ++ more)
      (scan.next (Requests.classifiedAs g.entry.1 mode)) := by
  obtain ⟨gs, before, answered, run⟩ := h
  refine ⟨gs ++ [g], before.append looked, ?_, ?_⟩
  · intro g' member
    rcases List.mem_append.mp member with member | single
    · exact answered g' member
    · rw [List.mem_singleton.mp single]
      exact ⟨mode, seen⟩
  · have pair : g.pair = Requests.classifiedAs g.entry.1 mode := by
      rw [Sighting.pair, seen]
      rfl
    rw [List.map_append, Scan.run_append, run]
    change scan.run [g.pair] = _
    rw [Scan.run, pair]
    cases scan.next (Requests.classifiedAs g.entry.1 mode) <;> rfl

theorem scanned (h : Taken root done lookups (.inl scan)) :
    done.length ≤ maxListScan ∧ lookups.length ≤ maxListScan := by
  obtain ⟨gs, looked, -, run⟩ := h
  have counted := Scan.scanned_run (Nat.zero_le _) run
  have length : gs.length = done.length := by
    rw [← looked.map_entry, List.length_map]
  have within := looked.length_le
  rw [List.length_map] at counted
  omega

end Taken

end DataBridge
