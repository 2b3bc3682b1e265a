import DataBridge.Sftp.ListingOrder

/-!
# What a caller of `list_files` may rely on

`listFiles_bounded`: the listing ends, within bounds on its requests, and leaves
nothing open while the session works. `listFiles_complete_iff`: an entry that is
missing from a whole listing was excused by the server, unless an answer of LSTAT
left the type out.
-/

namespace DataBridge

open Effect Routine

section Results

variable {S : Type} {serve : S → Request → Reply → S → Prop} {fault : Exc → Prop}
  {c : SFTPConnector} {connected : Except Exc Unit} {server : S}

theorem SFTPConnector.listFiles_wp (answering : Answering serve fault) :
    (c.listFiles connected).Wp (wire serve fault Bounded) (fun r s net => Bounded net ∧
      (∀ listing, r = .ok listing → Found c.root net.log listing) ∧
      ((∃ e, fault e) ∨ Released c.root s net)) {} { server } := by
  refine .bind (P := fun _ s net => s = {} ∧ net = { server })
    (.ofExcept (Setting.settled_alone.mpr ⟨rfl, rfl⟩)) ?_ ?_
  · intro _ s net start
    obtain ⟨rfl, rfl⟩ := start
    refine withFailures_wp ((scanEntries_wp answering).mono fun r s' net' settled => ?_)
    refine Setting.settled_alone.mpr ⟨settled.bounded, fun listing same => ?_, settled.released⟩
    cases r with
    | ok found =>
      cases same
      exact settled.found listing rfl
    | error e => cases same
  · intro e s net start
    obtain ⟨rfl, rfl⟩ := start
    refine Setting.settled_alone.mpr ⟨⟨Nat.zero_le _, Nat.zero_le _, Nat.zero_le _⟩, ?_,
      .inr ⟨.nil, ?_⟩⟩
    · intro listing impossible
      cases impossible
    · intro reply handle none
      exact (List.not_mem_nil none).elim

/-- The reply to a request was received, or the client drops it. -/
def ReceivedOrIgnored (number : Nat) (s : Requests) (net : Net S) : Prop :=
  number ∈ s.ignored ∨ ((∀ reply, (number, reply) ∉ net.flying) ∧ s.replies number = none)

theorem Outstanding.receivedOrIgnored {s : Requests} {net : Net S} (idle : Outstanding [] s net)
    (number : Nat) : ReceivedOrIgnored number s net := by
  by_cases ignored : number ∈ s.ignored
  · exact .inl ignored
  · refine .inr ⟨fun reply flying => ?_, ?_⟩
    · exact ignored ((idle.flying _ flying).resolve_left List.not_mem_nil)
    · cases kept : s.replies number with
      | none => rfl
      | some reply => exact absurd (idle.kept number (by rw [kept]; rfl)) List.not_mem_nil

/-- A server that answers anything where the other one does not. -/
def Completed (serve : S → Request → Reply → S → Prop) (server : S) (request : Request)
    (reply : Reply) (server' : S) : Prop :=
  serve server request reply server' ∨ ¬∃ reply server', serve server request reply server'

theorem Completed.answering : Answering (Completed serve) fun _ => False where
  answers := by
    intro server request
    by_cases answered : ∃ reply server', serve server request reply server'
    · obtain ⟨reply, server', answer⟩ := answered
      exact .inl ⟨reply, server', .inl answer⟩
    · exact .inl ⟨⟨.status, []⟩, server, .inr answered⟩
  faults := fun _ none => none.elim

/-- A listing ends whatever the server does. It keeps within its bounds at every
step, and while the session works it ends with every lookup received or ignored
and the handle of the directory released. -/
theorem SFTPConnector.listFiles_bounded (serve : S → Request → Reply → S → Prop)
    (c : SFTPConnector) (connected : Except Exc Unit) (server : S) :
    Prog.Ends (Wire.sem serve TransportFault) (c.listFiles connected {}) { server }
        (fun _ net => Bounded net) ∧
      (∀ config, Prog.Reach (Wire.sem serve TransportFault) (c.listFiles connected {}, { server })
        config → Bounded config.2) ∧
      ∀ r s net, Prog.Reach (Wire.sem serve fun _ => False) (c.listFiles connected {}, { server })
          (.ret (r, s), net) →
        (∀ number path reply, net.log[number]? = some (.lstat path, reply) →
          ReceivedOrIgnored number s net) ∧
        ∀ reply handle, (.openDirectory c.root, reply) ∈ net.log →
          openedHandle reply = .ok handle → ∃ reply', (.close handle, reply') ∈ net.log := by
  have runs : (c.listFiles connected).Wp (wire serve TransportFault Bounded) _ {} { server } :=
    listFiles_wp ⟨fun _ _ => .inr ⟨.timeout, trivial⟩, fun _ failed => failed⟩
  have start : Bounded ({ server } : Net S) := ⟨Nat.zero_le _, Nat.zero_le _, Nat.zero_le _⟩
  refine ⟨⟨runs.ends.finite, runs.ends.stuckFree, fun r net run => (runs.result run).1⟩, ?_, ?_⟩
  · intro config run
    exact runs.invariant start (fun _ _ _ kept => kept) run
  · intro r s net run
    have works : (c.listFiles connected).Wp (wire (Completed serve) (fun _ => False) Bounded) _ {}
        { server } := listFiles_wp Completed.answering
    have more : ∀ s request reply s', serve s request reply s' →
        Completed serve s request reply s' := fun _ _ _ _ => .inl
    have run : Prog.Reach (Wire.sem (Completed serve) fun _ => False) _ _ :=
      Prog.Reach.mono (fun _ _ _ _ _ answer => Wire.sem_mono more answer) run
    obtain ⟨-, -, ⟨_, impossible⟩ | released⟩ := works.result run
    · exact impossible.elim
    · exact ⟨fun number _ _ _ => released.idle.receivedOrIgnored number, released.closed⟩

/-! ## Which entries may be missing -/

/-- The server said that an entry is no regular file, or that it is not there. -/
def Sighting.Excused (g : Sighting) : Prop :=
  match g.reply with
  | none => ∃ mode, g.entry.2.mode = some mode ∧ isRegular mode = false
  | some reply =>
    (∃ attributes mode, reported reply = .ok attributes ∧ attributes.mode = some mode ∧
      isRegular mode = false) ∨
    reported reply = .error (.status sftpNoSuchFile) ∨
    reported reply = .error (.status sftpPermissionDenied)

/-- READDIR or LSTAT said that the entry is a regular file. -/
def Sighting.Regular (g : Sighting) : Prop := ∃ mode, g.seen = .ok (some mode) ∧ isRegular mode

/-- Every entry is beside its lookup, and each one with a valid name that is
missing was excused. -/
def Accounted (entries : List RawEntry) (gs : List Sighting) (listing : Listing) : Prop :=
  gs.map (·.entry) = entries ∧ ∀ g ∈ gs, ∀ name, g.entry.1 = some name →
    validateFilename name = .ok name → name ∉ listing.files → g.Excused

/-- A LSTAT of an entry with a valid name tells its type, unless another entry of
that name is a regular file. -/
def Typed (gs : List Sighting) : Prop :=
  ∀ g ∈ gs, ∀ name, g.entry.1 = some name → validateFilename name = .ok name →
    ∀ reply attributes, g.reply = some reply → reported reply = .ok attributes →
      attributes.mode = none → ∃ g' ∈ gs, g'.entry.1 = some name ∧ g'.Regular

/-- READDIR and LSTAT show the files of one directory: the pages hold its entries
in order, some without permission bits, and a lookup tells the same as READDIR. -/
structure Shows (root : Text) (dir : List (Option Text × Nat)) (log : Log) : Prop where
  pages : ∃ shown rest, dir = shown ++ rest ∧
    List.Forall₂ (fun (entry : RawEntry) d => entry.1 = d.1 ∧
      (entry.2.mode = none ∨ entry.2.mode = some d.2)) (entriesOf log) shown ∧
    (Ended log → rest = [])
  lookups : ∀ path reply, (path, reply) ∈ lookupsOf log → ∀ name mode, (some name, mode) ∈ dir →
    path = posixJoin root name → ∃ attributes, reported reply = .ok attributes ∧
      attributes.mode = some mode

/-- The pair that `bounded_listing` gets for an entry of a directory. -/
def directoryPair (d : Option Text × Nat) : Text × Bool := Requests.classifiedAs d.1 (some d.2)

end Results

section Completeness

variable {root : Text} {entries : List RawEntry} {lookups : List (Text × Reply)}
  {gs : List Sighting} {scan : Scan}

theorem Sighting.pair_eq {g : Sighting} {mode : Option Nat} (seen : g.seen = .ok mode) :
    g.pair = Requests.classifiedAs g.entry.1 mode := by
  rw [Sighting.pair, seen]
  rfl

/-- The pair shows a file exactly when the entry is a regular file of that name. -/
theorem Sighting.shows_pair {g : Sighting} {mode : Option Nat} {name : Text}
    (seen : g.seen = .ok mode) : g.pair.1 = name ∧ Scan.Shows g.pair ↔
      g.entry.1 = some name ∧ g.Regular ∧ validateFilename name = .ok name := by
  rw [Sighting.pair_eq seen]
  have regular : g.Regular ↔ mode.any isRegular = true := by
    constructor
    · intro h
      obtain ⟨m, same, regular⟩ := h
      rw [seen] at same
      cases same
      exact regular
    · intro h
      cases mode with
      | none => cases h
      | some m => exact ⟨m, seen, h⟩
  rw [regular]
  cases g.entry.1 with
  | none =>
    refine iff_of_false ?_ ?_
    · intro h
      cases h.2.1
    · intro h
      cases h.1
  | some own =>
    constructor
    · intro h
      obtain ⟨rfl, regular, valid⟩ := h
      exact ⟨rfl, regular, valid⟩
    · intro h
      obtain ⟨same, regular, valid⟩ := h
      cases same
      exact ⟨rfl, regular, valid⟩

/-- A file of a whole listing is a regular file that some entry names. -/
theorem mem_listing {listing : Listing} (answered : ∀ g ∈ gs, ∃ mode, g.seen = .ok mode)
    (run : Scan.run {} (gs.map (·.pair)) = .inl scan) (last : listing = scan.last) {name : Text} :
    name ∈ listing.files ↔ ∃ g ∈ gs, g.entry.1 = some name ∧ g.Regular ∧
      validateFilename name = .ok name := by
  rw [last, Scan.mem_last, Scan.mem_files_run run]
  constructor
  · intro shown
    rcases shown with none | ⟨pair, member, shown⟩
    · exact absurd none List.not_mem_nil
    · obtain ⟨g, inGs, rfl⟩ := List.mem_map.mp member
      obtain ⟨mode, seen⟩ := answered g inGs
      exact ⟨g, inGs, (Sighting.shows_pair seen).mp shown⟩
  · intro shown
    obtain ⟨g, inGs, shown⟩ := shown
    obtain ⟨mode, seen⟩ := answered g inGs
    exact .inr ⟨g.pair, List.mem_map_of_mem inGs, (Sighting.shows_pair seen).mpr shown⟩

/-- An entry that needs no lookup has a known mode or no name. -/
theorem Looked.needless (looked : Looked root entries lookups gs) :
    ∀ g ∈ gs, ∀ name, g.entry.1 = some name → g.reply = none → g.entry.2.mode.isSome := by
  induction looked with
  | nil => exact fun _ none => (List.not_mem_nil none).elim
  | @known entry _ _ _ none _ ih =>
    intro g member name named unasked
    rcases List.mem_cons.mp member with rfl | member
    · obtain ⟨own, size, mode⟩ := entry
      cases mode with
      | some mode => rfl
      | none =>
        cases named
        cases none
    · exact ih g member name named unasked
  | asked _ _ ih =>
    intro g member name named unasked
    rcases List.mem_cons.mp member with rfl | member
    · cases unasked
    · exact ih g member name named unasked

/-- A missing entry is excused or its lookup told no type. -/
theorem excused_or_blank {g : Sighting} {mode : Option Nat}
    (needless : g.reply = none → g.entry.2.mode.isSome) (seen : g.seen = .ok mode)
    (irregular : ¬g.Regular) : g.Excused ∨
      ∃ reply attributes, g.reply = some reply ∧ reported reply = .ok attributes ∧
        attributes.mode = none := by
  obtain ⟨entry, reply⟩ := g
  cases reply with
  | none =>
    obtain ⟨m, known⟩ := Option.isSome_iff_exists.mp (needless rfl)
    refine .inl ⟨m, known, Bool.eq_false_iff.mpr fun regular => irregular ⟨m, ?_, regular⟩⟩
    exact congrArg Except.ok known
  | some reply =>
    change Sighting.looked reply = _ at seen
    unfold Sighting.looked at seen
    cases read : reported reply with
    | ok attributes =>
      cases told : attributes.mode with
      | none => exact .inr ⟨reply, attributes, rfl, read, told⟩
      | some m =>
        refine .inl (.inl ⟨attributes, m, read, told, Bool.eq_false_iff.mpr fun regular => ?_⟩)
        refine irregular ⟨m, ?_, regular⟩
        change Sighting.looked reply = _
        rw [Sighting.looked, read, ← told]
    | error e =>
      rw [read] at seen
      dsimp only at seen
      split at seen
      · rename_i absent
        refine .inl (.inr ?_)
        rcases absent with rfl | rfl
        · exact .inl read
        · exact .inr read
      · cases seen

/-- Of a whole listing. -/
theorem accounted_iff_typed {listing : Listing} (looked : Looked root entries lookups gs)
    (answered : ∀ g ∈ gs, ∃ mode, g.seen = .ok mode)
    (run : Scan.run {} (gs.map (·.pair)) = .inl scan) (last : listing = scan.last) :
    Accounted entries gs listing ↔ Typed gs := by
  constructor
  · intro accounted g member name named valid reply attributes asked read blank
    by_cases missing : name ∈ listing.files
    · obtain ⟨g', member', named', regular, -⟩ := (mem_listing answered run last).mp missing
      exact ⟨g', member', named', regular⟩
    · have excused := accounted.2 g member name named valid missing
      unfold Sighting.Excused at excused
      rw [asked] at excused
      rcases excused with ⟨attributes', mode, read', told, -⟩ | refused | refused
      · rw [read] at read'
        cases read'
        rw [blank] at told
        cases told
      · rw [read] at refused
        cases refused
      · rw [read] at refused
        cases refused
  · intro typed
    refine ⟨looked.map_entry, fun g member name named valid missing => ?_⟩
    have irregular : ∀ g' ∈ gs, g'.entry.1 = some name → ¬g'.Regular := by
      intro g' member' named' regular
      exact missing ((mem_listing answered run last).mpr ⟨g', member', named', regular, valid⟩)
    obtain ⟨mode, seen⟩ := answered g member
    rcases excused_or_blank (looked.needless g member name named) seen (irregular g member named)
      with excused | ⟨reply, attributes, asked, read, blank⟩
    · exact excused
    · obtain ⟨g', member', named', regular⟩ := typed g member name named valid reply attributes
        asked read blank
      exact absurd regular (irregular g' member' named')

/-- What the pages and lookups of a directory make the scan see. -/
theorem Looked.pairs_eq {dir shown : List (Option Text × Nat)}
    (looked : Looked root entries lookups gs)
    (pages : List.Forall₂ (fun (entry : RawEntry) d => entry.1 = d.1 ∧
      (entry.2.mode = none ∨ entry.2.mode = some d.2)) entries shown)
    (inside : shown ⊆ dir)
    (told : ∀ path reply, (path, reply) ∈ lookups → ∀ name mode, (some name, mode) ∈ dir →
      path = posixJoin root name → ∃ attributes, reported reply = .ok attributes ∧
        attributes.mode = some mode) :
    gs.map (·.pair) = shown.map directoryPair := by
  induction looked generalizing shown with
  | nil =>
    cases pages
    rfl
  | @known entry _ _ _ unasked _ ih =>
    cases pages with
    | @cons _ d _ rest same pages =>
      rw [List.map_cons, List.map_cons, ih pages (fun _ member => inside (List.mem_cons_of_mem _ member))
        told]
      refine congrArg (· :: rest.map directoryPair) ?_
      rw [Sighting.pair_eq (show Sighting.seen ⟨entry, none⟩ = .ok entry.2.mode from rfl),
        directoryPair, same.1]
      obtain ⟨own, size, mode⟩ := entry
      cases own with
      | none =>
        rw [← same.1]
        rfl
      | some name =>
        cases mode with
        | none => cases unasked
        | some mode =>
          rcases same.2 with impossible | known
          · cases impossible
          · rw [known]
  | @asked entry _ _ _ path reply needed _ ih =>
    cases pages with
    | @cons _ d _ rest same pages =>
      rw [List.map_cons, List.map_cons, ih pages (fun _ member => inside (List.mem_cons_of_mem _ member))
        fun path reply member => told path reply (List.mem_cons_of_mem _ member)]
      refine congrArg (· :: rest.map directoryPair) ?_
      obtain ⟨own, size, mode⟩ := entry
      cases own with
      | none => cases needed
      | some name =>
        cases mode with
        | some mode => cases needed
        | none =>
          cases needed
          have member : (some name, d.2) ∈ dir := by
            have first : d ∈ dir := inside List.mem_cons_self
            rwa [show (some name, d.2) = d from Prod.ext same.1 rfl]
          obtain ⟨attributes, read, mode⟩ := told _ reply List.mem_cons_self name d.2 member rfl
          have seen : Sighting.seen ⟨(some name, ⟨size, none⟩), some reply⟩ = .ok (some d.2) := by
            change Sighting.looked reply = _
            rw [Sighting.looked, read, ← mode]
          rw [Sighting.pair_eq seen, directoryPair, same.1]

/-- A listing of a directory is the bounded listing of its entries, however the
pages split them and whichever types they left out. -/
theorem Found.shows {log : Log} {listing : Listing} {dir : List (Option Text × Nat)}
    (found : Found root log listing) (shows_ : Shows root dir log) :
    listing = boundedListing (dir.map directoryPair) := by
  obtain ⟨done, todo, seen, later, entriesEq, lookupsEq, outcome⟩ := found
  obtain ⟨shown, rest, rfl, pages, ended⟩ := shows_.pages
  rw [entriesEq] at pages
  have told := shows_.lookups
  have firstPages := List.forall₂_take done.length pages
  have secondPages := List.forall₂_drop done.length pages
  rw [List.take_left] at firstPages
  rw [List.drop_left] at secondPages
  rw [← List.take_append_drop done.length shown] at told ⊢
  generalize shown.take done.length = first at firstPages told ⊢
  generalize shown.drop done.length = second at secondPages told ⊢
  have pairs : ∀ {gs : List Sighting}, Looked root done seen gs →
      gs.map (·.pair) = first.map directoryPair := by
    intro gs looked
    have inside : first ⊆ first ++ second ++ rest := by
      intro d member
      exact List.mem_append_left _ (List.mem_append_left _ member)
    refine looked.pairs_eq firstPages inside fun path reply member => told path reply ?_
    rw [lookupsEq]
    exact List.mem_append_left _ member
  rw [boundedListing, List.map_append, List.map_append, List.append_assoc, Scan.run_append]
  rcases outcome with ⟨gs, looked, -, run⟩ | ⟨scan, ⟨gs, looked, -, run⟩, last, noTodo, -, eof⟩
  · rw [← pairs looked, run]
    rfl
  · rw [ended eof]
    rw [noTodo] at secondPages
    cases secondPages
    rw [← pairs looked, run, last]
    rfl

theorem Scan.truncated_run {scan : Scan} {pairs : List (Text × Bool)} {listing : Listing}
    (stopped : scan.run pairs = .inr listing) : listing.truncated = true := by
  induction pairs generalizing scan with
  | nil => cases stopped
  | cons pair pairs ih =>
    rw [Scan.run] at stopped
    cases step : scan.next pair with
    | inl scan' =>
      rw [step] at stopped
      exact ih stopped
    | inr found =>
      rw [step] at stopped
      cases stopped
      unfold Scan.next at step
      dsimp only at step
      split at step
      · cases step
        rfl
      · split at step
        · cases step
        · split at step
          · cases step
          · split at step
            · cases step
              rfl
            · cases step

end Completeness

/-- What a listing promises: when it is whole, a missing entry was excused by the
server; and when LSTAT agrees with READDIR, it is the bounded listing of the
directory. Both hold exactly when, in a whole listing, each lookup told a type. -/
theorem SFTPConnector.listFiles_complete_iff {S : Type} {serve : S → Request → Reply → S → Prop}
    {c : SFTPConnector} {connected : Except Exc Unit} {server : S} {listing : Listing}
    {s : Requests} {net : Net S}
    (run : Prog.Reach (Wire.sem serve TransportFault) (c.listFiles connected {}, { server })
      (.ret (.ok listing, s), net)) :
    ((listing.truncated = false → Accounted (entriesOf net.log)
          (sightings c.root (entriesOf net.log) (lookupsOf net.log)) listing) ∧
        ∀ dir, Shows c.root dir net.log → listing = boundedListing (dir.map directoryPair)) ↔
      (listing.truncated = false →
        Typed (sightings c.root (entriesOf net.log) (lookupsOf net.log))) := by
  have runs : (c.listFiles connected).Wp (wire serve TransportFault Bounded) _ {} { server } :=
    listFiles_wp ⟨fun _ _ => .inr ⟨.timeout, trivial⟩, fun _ failed => failed⟩
  have found := (runs.result run).2.1 listing rfl
  have whole : listing.truncated = false →
      (Accounted (entriesOf net.log)
          (sightings c.root (entriesOf net.log) (lookupsOf net.log)) listing ↔
        Typed (sightings c.root (entriesOf net.log) (lookupsOf net.log))) := by
    intro untruncated
    obtain ⟨done, todo, seen, later, entriesEq, lookupsEq, outcome⟩ := found
    rcases outcome with ⟨gs, -, -, stopped⟩ | ⟨scan, ⟨gs, looked, answered, scanned⟩, last, rfl,
      rfl, -⟩
    · rw [Scan.truncated_run stopped] at untruncated
      cases untruncated
    · rw [entriesEq, lookupsEq, List.append_nil, List.append_nil, looked.sightings_eq]
      exact accounted_iff_typed looked answered scanned last
  constructor
  · intro promise untruncated
    exact (whole untruncated).mp (promise.1 untruncated)
  · intro typed
    exact ⟨fun untruncated => (whole untruncated).mpr (typed untruncated),
      fun dir shows_ => found.shows shows_⟩

/-- A server with one file, `f`, whose page leaves out the type; it answers a LSTAT
with these attributes. -/
def oneFileServer (attributes : Attributes) (served : Bool) : Request → Reply × Bool
  | .openDirectory _ => (⟨.handle, stringField [1]⟩, false)
  | .readDirectory _ =>
    if served then (statusReply sftpEof, true)
    else (⟨.name, bigEndian 4 1 ++ stringField [0x66] ++ stringField [] ++
      attributesField ⟨none, none⟩⟩, true)
  | .lstat _ => (attributesReply attributes, served)
  | _ => (statusReply sftpOk, served)

/-- The result of a listing, with what the server sent. -/
structure Transcript where
  result : Except Exc Listing
  entries : List RawEntry
  lookups : List (Text × Reply)
  deriving DecidableEq

def oneFileListing (attributes : Attributes) : Option Transcript :=
  (Prog.eval (Wire.answer (oneFileServer attributes)) 60
    (SFTPConnector.listFiles ⟨lit "/"⟩ (.ok ()) {}) () { server := false }).map fun r =>
      ⟨r.1.1, entriesOf r.2.log, lookupsOf r.2.log⟩

theorem oneFileListing_reach {attributes : Attributes} {t : Transcript}
    (run : oneFileListing attributes = some t) :
    ∃ s net, Prog.Reach (Wire.sem (Answers (oneFileServer attributes)) TransportFault)
      (SFTPConnector.listFiles ⟨lit "/"⟩ (.ok ()) {}, { server := false }) (.ret (t.result, s), net) ∧
      entriesOf net.log = t.entries ∧ lookupsOf net.log = t.lookups := by
  obtain ⟨⟨⟨r, s⟩, net⟩, ended, same⟩ := Option.map_eq_some_iff.mp run
  subst same
  exact ⟨s, net, Prog.eval_reach (Wire.answer_sem _) ended, rfl, rfl⟩

/-- The sighting of the only file. -/
theorem sightings_oneFile {reply : Reply} :
    sightings (lit "/") [(some (lit "f"), ⟨none, none⟩)] [(lit "/f", reply)] =
      [⟨(some (lit "f"), ⟨none, none⟩), some reply⟩] := rfl

/-- The file is looked up and listed. -/
theorem SFTPConnector.listFiles_complete_one : ∃ s net,
    Prog.Reach (Wire.sem (Answers (oneFileServer ⟨none, some 0o100644⟩)) TransportFault)
        (SFTPConnector.listFiles ⟨lit "/"⟩ (.ok ()) {}, { server := false })
        (.ret (.ok ⟨[lit "f"], false⟩, s), net) ∧
      Accounted (entriesOf net.log) (sightings (lit "/") (entriesOf net.log) (lookupsOf net.log))
        ⟨[lit "f"], false⟩ := by
  have finished : oneFileListing ⟨none, some 0o100644⟩ = some ⟨.ok ⟨[lit "f"], false⟩,
      [(some (lit "f"), ⟨none, none⟩)], [(lit "/f", attributesReply ⟨none, some 0o100644⟩)]⟩ := by
    decide +kernel
  obtain ⟨s, net, run, entries, lookups⟩ := oneFileListing_reach finished
  refine ⟨s, net, run, ((listFiles_complete_iff (c := ⟨lit "/"⟩) run).mpr fun _ => ?_).1 rfl⟩
  rw [entries, lookups, sightings_oneFile]
  intro g member name _ _ reply attributes asked read blank
  rw [List.mem_singleton.mp member] at asked
  cases asked
  have told : reported (attributesReply ⟨none, some 0o100644⟩) = .ok ⟨none, some 0o100644⟩ := by
    decide +kernel
  rw [told] at read
  cases read
  cases blank

/-- The requests of that listing keep within the bounds. -/
theorem SFTPConnector.listFiles_bounded_one : ∃ r net,
    Prog.Reach (Wire.sem (Answers (oneFileServer ⟨none, some 0o100644⟩)) TransportFault)
        (SFTPConnector.listFiles ⟨lit "/"⟩ (.ok ()) {}, { server := false }) (.ret r, net) ∧
      (lookupsOf net.log).length = 1 ∧ Bounded net := by
  have finished : oneFileListing ⟨none, some 0o100644⟩ = some ⟨.ok ⟨[lit "f"], false⟩,
      [(some (lit "f"), ⟨none, none⟩)], [(lit "/f", attributesReply ⟨none, some 0o100644⟩)]⟩ := by
    decide +kernel
  obtain ⟨s, net, run, -, lookups⟩ := oneFileListing_reach finished
  have bounded := (listFiles_bounded (Answers (oneFileServer ⟨none, some 0o100644⟩)) ⟨lit "/"⟩
    (.ok ()) false).2.1 _ run
  exact ⟨_, net, run, by rw [lookups]; rfl, bounded⟩

/-- A LSTAT answered without the type: the file is silently missing. -/
theorem SFTPConnector.listFiles_not_complete : ¬∀ (S : Type) (serve : S → Request → Reply → S → Prop)
    (c : SFTPConnector) (server : S) (listing : Listing) (s : Requests) (net : Net S),
    Prog.Reach (Wire.sem serve TransportFault) (c.listFiles (.ok ()) {}, { server })
      (.ret (.ok listing, s), net) → listing.truncated = false →
    Accounted (entriesOf net.log) (sightings c.root (entriesOf net.log) (lookupsOf net.log))
      listing := by
  intro complete
  have finished : oneFileListing ⟨some 0, none⟩ = some ⟨.ok ⟨[], false⟩,
      [(some (lit "f"), ⟨none, none⟩)], [(lit "/f", attributesReply ⟨some 0, none⟩)]⟩ := by
    decide +kernel
  obtain ⟨s, net, run, entries, lookups⟩ := oneFileListing_reach finished
  have accounted := complete Bool _ ⟨lit "/"⟩ false ⟨[], false⟩ s net run rfl
  rw [entries, lookups, sightings_oneFile] at accounted
  have told : reported (attributesReply ⟨some 0, none⟩) = .ok ⟨some 0, none⟩ := by decide +kernel
  rcases accounted.2 _ List.mem_cons_self (lit "f") rfl (by decide) List.not_mem_nil
    with ⟨attributes, mode, read, known, -⟩ | refused | refused
  · rw [told] at read
    cases read
    cases known
  · rw [told] at refused
    cases refused
  · rw [told] at refused
    cases refused

end DataBridge
