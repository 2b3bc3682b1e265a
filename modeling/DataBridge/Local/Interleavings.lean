import DataBridge.Local.Coupling

/-!
# Interleaved sessions on one root

Any number of read and write sessions of the local connector on one disk, their
system calls interleaved, some of them failing, and any of them stopped for ever.
Seen from outside they are sessions of an atomic shelf (`Files.Shelf`): a write
session publishes all its bytes in one step, and a read session reads the version
that its name showed when it was opened.
-/

namespace DataBridge

open Effect Routine Files

variable {ι : Type} [DecidableEq ι]

/-- The sessions of the requests, before their first step. -/
def sessionPool (c : LocalConnector) (requests : ι → LocalRequest) (d : Disk) :
    Pool ι LocalEffect Disk LocalOutcome where
  thread i := (requests i).session c
  world := d

/-! ## Two writers and a reader -/

/-- The smallest free descriptor. -/
def freeDescriptor (d : Disk) : Option Nat := (List.range 8).find? fun n => (d.opened n).isNone

/-- A disk that answers in one way: every call succeeds that can, except `stat`. -/
def quickDisk : ∀ ⦃β : Type⦄, LocalEffect β → Disk → Option (β × Disk)
  | _, .inl (.write descriptor data), d =>
    match d.opened descriptor with
    | some ⟨.file n, _⟩ => some (.ok data.length, d.append n (data.take data.length))
    | _ => none
  | _, .inl (.fsync _), d => some (.ok (), d)
  | _, .inl (.fileSize descriptor), d =>
    match d.opened descriptor with
    | some ⟨.file n, _⟩ => some (.ok (d.dir.nodes n).content.length, d)
    | _ => none
  | _, .inl (.fchmod _ _), _ => none
  | _, .inl (.close descriptor), d => some (.ok (), d.detach descriptor)
  | _, .inr (.resolve path), d => some (.ok path, d)
  | _, .inr (.isDirectory _), d => some (.ok true, d)
  | _, .inr (.stat _), d => some (.error (.osError .ENOENT), d)
  | _, .inr (.openNew path mode), d =>
    match freeDescriptor d, d.dir.entries path with
    | some descriptor, none => some (.ok descriptor,
        (d.withFiles (d.dir.create path mode)).attach descriptor (.file d.dir.next) 0)
    | _, _ => none
  | _, .inr (.openRead path), d =>
    match freeDescriptor d, d.dir.entries path with
    | some descriptor, some entry => some (.ok descriptor, d.attach descriptor entry 0)
    | _, _ => none
  | _, .inr (.openDirectory _), d =>
    (freeDescriptor d).map fun descriptor => (.ok descriptor, d.attach descriptor .directory 0)
  | _, .inr (.fstat descriptor), d =>
    match d.opened descriptor with
    | some ⟨.file n, _⟩ =>
      if isRegular (0o100000 ||| (d.dir.nodes n).mode) = true ∧
          permissionBits (0o100000 ||| (d.dir.nodes n).mode) = permissionBits (d.dir.nodes n).mode
      then some (.ok (0o100000 ||| (d.dir.nodes n).mode, (d.dir.nodes n).content.length), d)
      else none
    | _ => none
  | _, .inr (.setBlocking _), d => some (.ok (), d)
  | _, .inr (.read descriptor size), d =>
    match d.opened descriptor with
    | some ⟨.file n, offset⟩ => some
      (.ok (((d.dir.nodes n).content.drop offset).take
          (min size ((d.dir.nodes n).content.length - offset))),
        d.attach descriptor (.file n) (offset + min size ((d.dir.nodes n).content.length - offset)))
    | _ => none
  | _, .inr (.replace _ _), _ => none
  | _, .inr (.link source target), d =>
    match d.dir.entries source, d.dir.entries target with
    | some (.file _), none => some (.ok (), d.withFiles (d.dir.link source target))
    | some (.file _), some _ => some (.error (.osError .EEXIST), d)
    | _, _ => none
  | _, .inr (.unlink path), d =>
    match d.dir.entries path with
    | some (.file _) => some (.ok (), d.withFiles (d.dir.unlink path))
    | _ => none

theorem freeDescriptor_free {d : Disk} {descriptor : Nat} (found : freeDescriptor d = some descriptor) :
    d.opened descriptor = none :=
  Option.isNone_iff_eq_none.mp (List.find?_some (p := fun n => (d.opened n).isNone) found)

theorem quickDisk_sem ⦃β : Type⦄ (op : LocalEffect β) (d : Disk) (b : β) (d' : Disk)
    (answered : quickDisk op d = some (b, d')) : localSem op d b d' := by
  cases op with
  | inl op =>
    cases op with
    | write descriptor data =>
      rw [quickDisk] at answered
      split at answered
      · rename_i n offset opened
        cases answered
        exact .inl ⟨n, offset, data.length, opened, le_refl _, List.length_pos_of_ne_nil, rfl, rfl⟩
      · cases answered
    | fsync descriptor =>
      cases answered
      exact ⟨.inl rfl, rfl⟩
    | fileSize descriptor =>
      rw [quickDisk] at answered
      split at answered
      · rename_i n offset opened
        cases answered
        exact ⟨.inl ⟨n, offset, opened, rfl⟩, rfl⟩
      · cases answered
    | fchmod descriptor mode => cases answered
    | close descriptor =>
      cases answered
      exact .inl ⟨rfl, rfl⟩
  | inr op =>
    cases op with
    | resolve path =>
      cases answered
      exact ⟨.inl rfl, rfl⟩
    | isDirectory path =>
      cases answered
      exact ⟨.inl ⟨_, rfl⟩, rfl⟩
    | stat path =>
      cases answered
      exact ⟨.inr (osFails_error rfl), rfl⟩
    | openNew path mode =>
      rw [quickDisk] at answered
      split at answered
      · rename_i descriptor free absent
        cases answered
        exact .inl ⟨descriptor, absent, freeDescriptor_free free, rfl, rfl⟩
      · cases answered
    | openRead path =>
      rw [quickDisk] at answered
      split at answered
      · rename_i descriptor entry free found
        cases answered
        exact .inl ⟨descriptor, entry, found, freeDescriptor_free free, rfl, rfl⟩
      · cases answered
    | openDirectory path =>
      obtain ⟨descriptor, free, same⟩ := Option.map_eq_some_iff.mp answered
      cases same
      exact .inl ⟨descriptor, freeDescriptor_free free, rfl, rfl⟩
    | fstat descriptor =>
      rw [quickDisk] at answered
      split at answered
      · rename_i n offset opened
        split at answered
        · rename_i mode
          cases answered
          exact ⟨.inl ⟨.file n, offset, _, _, opened, mode, rfl, rfl⟩, rfl⟩
        · cases answered
      · cases answered
    | setBlocking descriptor =>
      cases answered
      exact ⟨.inl rfl, rfl⟩
    | read descriptor size =>
      rw [quickDisk] at answered
      split at answered
      · rename_i n offset opened
        cases answered
        refine .inl ⟨n, offset, _, opened, le_refl _, fun none => ?_, rfl, rfl⟩
        omega
      · cases answered
    | replace source target => cases answered
    | link source target =>
      rw [quickDisk] at answered
      split at answered
      · rename_i n found absent
        cases answered
        exact .inl ⟨n, found, absent, rfl, rfl⟩
      · cases answered
        exact .inr ⟨osFails_error rfl, rfl⟩
      · cases answered
    | unlink path =>
      rw [quickDisk] at answered
      split at answered
      · rename_i n found
        cases answered
        exact .inl ⟨n, found, rfl, rfl⟩
      · cases answered

def repeatedId (digit : Fin 16) : Uuid := ⟨List.replicate 32 digit, List.length_replicate⟩

inductive Racer
  | loser | winner | reader
  deriving DecidableEq

/-- Two sessions that write one name, and one that reads it. -/
def raceRequests : Racer → LocalRequest
  | .loser => .write ⟨lit "f", repeatedId ⟨0, by decide⟩, false, ⟨[.write [1, 2], .write [3]], none⟩⟩
  | .winner => .write ⟨lit "f", repeatedId ⟨1, by decide⟩, false, ⟨[.write [9]], none⟩⟩
  | .reader => .read ⟨lit "f", none, [2, 2]⟩

def raceRoot : LocalConnector := ⟨lit "/r"⟩

def emptyDisk : Disk where
  dir := .empty
  opened _ := none

/-- The result of a program that has ended. -/
def endedWith (p : Prog LocalEffect LocalOutcome) : Option LocalOutcome :=
  match p with
  | .ret r => some r
  | _ => none

theorem endedWith_some {p : Prog LocalEffect LocalOutcome} {r : LocalOutcome}
    (ended : endedWith p = some r) : p = .ret r := by
  cases p with
  | ret r' =>
    cases ended
    rfl
  | call => cases ended
  | loop => cases ended

theorem raceRequests_distinct : DistinctStages raceRequests := by
  intro i j q q' first second same
  cases i <;> cases j <;> cases first <;> cases second <;> first | rfl | cases same

/-- The writers take turns; the second one publishes first, and then the reader starts. -/
theorem race_run : ∃ l pool, Pool.Runs localSem (sessionPool raceRoot raceRequests emptyDisk) l pool ∧
    shelfEvents l = [.publish .winner, .look .reader] ∧
    pool.thread .loser = .ret (.wrote (.error (destinationExists (lit "f")))) ∧
    pool.thread .winner = .ret (.wrote (.ok ())) ∧ pool.thread .reader = .ret (.read (.ok [[9], []])) := by
  have followed : ((Pool.follow quickDisk ((List.replicate 40 [.loser, .winner]).flatten ++ List.replicate 20 .reader)
      [] (sessionPool raceRoot raceRequests emptyDisk)).map fun r => (shelfEvents r.1,
        endedWith (r.2.thread .loser), endedWith (r.2.thread .winner), endedWith (r.2.thread .reader))) =
      some ([.publish .winner, .look .reader], some (.wrote (.error (destinationExists (lit "f")))),
        some (.wrote (.ok ())), some (.read (.ok [[9], []]))) := by decide +kernel
  obtain ⟨⟨l, pool⟩, followed, facts⟩ := Option.map_eq_some_iff.mp followed
  have run := Pool.Runs.start.follow quickDisk_sem followed
  have events := congrArg Prod.fst facts
  have outcomes := congrArg Prod.snd facts
  have first := congrArg Prod.fst outcomes
  have second := congrArg (fun r => r.2.1) outcomes
  have third := congrArg (fun r => r.2.2) outcomes
  exact ⟨l, pool, run, events, endedWith_some first, endedWith_some second, endedWith_some third⟩

/-! ## Runs -/

section SessionRuns

variable {c : LocalConnector} {requests : ι → LocalRequest} {d : Disk}
  {l : List (ι × Effect.Exchange LocalEffect)} {pool : Pool ι LocalEffect Disk LocalOutcome}

theorem Coupled.start : Coupled c requests d.dir [] d fun _ => {} where
  handles := by
    constructor
    · intro i descriptor held
      rcases held with held | held <;> cases held
    · intro i j descriptor held
      rcases held with held | held <;> cases held
    · intro i descriptor attached
      cases attached
  stages := by
    constructor
    · exact le_refl _
    · exact fun _ _ => rfl
    · exact fun _ _ => ⟨rfl, rfl, rfl, rfl⟩
    · intro i n owned
      cases owned
    · intro i q entry _ owned
      cases owned
    · intro i n owned
      cases owned.2
    · intro i j n owned
      cases owned.2
    · intro i q _ opened
      exact absurd rfl opened
    · exact fun path n found => .inl (d.dir.bounded path n found)
    · intro i q _ published
      cases published
    · exact fun _ _ _ => ⟨rfl, rfl⟩
    · intro i q n _ owned
      cases owned
  history := by
    constructor
    · refine ⟨fun _ => none, .nil, fun i q entry _ owned => ?_⟩
      cases owned
    · intro i
      constructor
      · exact fun event => (List.not_mem_nil event).elim
      · intro published
        cases published
    · exact fun i event => (List.not_mem_nil event).elim
    · exact List.nodup_nil

theorem couples (distinct : DistinctStages requests) (start : Directory Text) :
    Pool.Couples localSem (fun i => .own ((requests i).alone c)) (Coupled c requests start) := by
  intro l w v i β op b w' coupled may answer
  dsimp only [Setting.alone] at may ⊢
  cases kind : requests i with
  | write q =>
    rw [kind] at may
    cases op with
    | inl op => exact coupled.file_step distinct may answer
    | inr op => exact coupled.write_step distinct kind may answer
  | read r =>
    rw [kind] at may
    cases op with
    | inl op => exact coupled.file_step distinct may answer
    | inr op => exact coupled.read_step kind may answer

theorem coupled_of_run (distinct : DistinctStages requests)
    (run : Pool.Runs localSem (sessionPool c requests d) l pool) :
    ∃ v, Coupled c requests d.dir l pool.world v ∧
      ∀ i, Prog.Wp (.own ((requests i).alone c)) (requests i).Meets (pool.thread i) (v i) :=
  run.coupled (couples distinct d.dir) (fun i => (requests i).session_wp) Coupled.start

/-- A session that has ended says what its view is. -/
theorem meets_of_ended {v : View} {request : LocalRequest} {outcome : LocalOutcome}
    {p : Prog LocalEffect LocalOutcome} (verified : Prog.Wp (.own (request.alone c)) request.Meets p v)
    (ended : p = .ret outcome) : request.Meets outcome v := by
  subst ended
  cases verified with
  | ret settled => exact settled.now

/-- Interleaved sessions are sessions of the atomic shelf: each write session publishes
at most once, and has done so when it returns and not when it raises. -/
theorem sessions_on_shelf (distinct : DistinctStages requests)
    (run : Pool.Runs localSem (sessionPool c requests d) l pool) :
    (∃ seen, Trace (Shelf.Step fun i => (requests i).onShelf) ⟨c.shown d.dir, fun _ => none⟩
      (shelfEvents l) ⟨c.shown pool.world.dir, seen⟩) ∧ (shelfEvents l).Nodup ∧
    ∀ i q, requests i = .write q →
      (pool.thread i = .ret (.wrote (.ok ())) → .publish i ∈ shelfEvents l) ∧
      ∀ e, pool.thread i = .ret (.wrote (.error e)) → .publish i ∉ shelfEvents l := by
  obtain ⟨v, coupled, verified⟩ := coupled_of_run distinct run
  obtain ⟨seen, shelf, -⟩ := coupled.history.run
  refine ⟨⟨seen, shelf⟩, coupled.history.once, fun i q session => ⟨fun ended => ?_, fun e ended => ?_⟩⟩
  · have met := meets_of_ended (verified i) ended
    rw [session] at met
    exact (coupled.history.published i).mpr met
  · have met := meets_of_ended (verified i) ended
    rw [session] at met
    rw [coupled.history.published i]
    exact fun published => Bool.false_ne_true (met.symm.trans published)

theorem sessions_on_shelf_race : ∃ l pool,
    Pool.Runs localSem (sessionPool raceRoot raceRequests emptyDisk) l pool ∧
    shelfEvents l = [.publish .winner, .look .reader] ∧
    ∃ seen, Trace (Shelf.Step fun i => (raceRequests i).onShelf)
      ⟨raceRoot.shown .empty, fun _ => none⟩ [.publish .winner, .look .reader]
      ⟨raceRoot.shown pool.world.dir, seen⟩ := by
  obtain ⟨l, pool, run, events, -⟩ := race_run
  have shelf := (sessions_on_shelf raceRequests_distinct run).1
  rw [events] at shelf
  exact ⟨l, pool, run, events, shelf⟩

/-- A read session that returns has read one version of its file, which was there at
the start or which one write session had published whole before the file was opened;
and it does not find the file shorter than it was. -/
theorem read_one_version (distinct : DistinctStages requests)
    (run : Pool.Runs localSem (sessionPool c requests d) l pool) {i : ι} {r : ReadRequest}
    (session : requests i = .read r) :
    (∀ chunks, pool.thread i = .ret (.read (.ok chunks)) → ∃ content before after,
      Delivers (LocalConnector.wantedOf r.limit content) r.sizes chunks ∧
      shelfEvents l = before ++ .look i :: after ∧
      (c.shown d.dir r.filename = some (.file content) ∨ ∃ j q, requests j = .write q ∧
        q.filename = r.filename ∧ .publish j ∈ before ∧ content = q.bytes)) ∧
    ∀ e, pool.thread i = .ret (.read (.error e)) → (∀ size ∈ r.sizes, 0 < size) → Unshortened e := by
  obtain ⟨v, coupled, verified⟩ := coupled_of_run distinct run
  constructor
  · intro chunks ended
    have met := meets_of_ended (verified i) ended
    rw [session] at met
    obtain ⟨⟨n, opened⟩, delivers⟩ := met
    obtain ⟨seen, shelf, views⟩ := coupled.history.run
    have looked : seen i = some (.file (v i).content) := views i r _ session opened
    have client : (requests i).onShelf = .reads r.filename := by rw [session]; rfl
    rcases Shelf.seen_after shelf client looked with impossible | ⟨before, after, s, split, earlier, shown⟩
    · cases impossible
    · refine ⟨(v i).content, before, after, delivers, split, ?_⟩
      rcases Shelf.shows_after earlier r.filename with ⟨same, -⟩ | ⟨j, p, writer, named, event, shows⟩
      · exact .inl (same.symm.trans shown)
      · right
        cases kind : requests j with
        | write q =>
          rw [kind] at writer
          cases writer
          have same := Shown.file.inj (Option.some.inj (shown.symm.trans shows))
          exact ⟨j, q, kind, named, event, same⟩
        | read r' =>
          rw [kind] at writer
          cases writer
  · intro e ended positive
    have met := meets_of_ended (verified i) ended
    rw [session] at met
    exact met positive

theorem read_one_version_race : ∃ content,
    Delivers (LocalConnector.wantedOf none content) [2, 2] [[9], []] ∧
    ∃ j q, raceRequests j = .write q ∧ content = q.bytes := by
  obtain ⟨l, pool, run, events, -, -, ended⟩ := race_run
  have version := (read_one_version raceRequests_distinct run (i := .reader) rfl).1 _ ended
  obtain ⟨content, before, after, delivers, -, impossible | ⟨j, q, writer, -, -, same⟩⟩ := version
  · cases impossible
  · exact ⟨content, delivers, j, q, writer, same⟩

/-- At every moment a name shows what it did at the start, or all bytes of one write
session under this name that has published. Without `overwrite` a session returns only
if its name showed nothing, and one of several such sessions returns. -/
theorem names_show_whole_files (distinct : DistinctStages requests)
    (run : Pool.Runs localSem (sessionPool c requests d) l pool) :
    (∀ filename, c.shown pool.world.dir filename = c.shown d.dir filename ∨
      ∃ i q, requests i = .write q ∧ q.filename = filename ∧ .publish i ∈ shelfEvents l ∧
        c.shown pool.world.dir filename = some (.file q.bytes)) ∧
    (∀ i q, requests i = .write q → q.overwrite = false →
      pool.thread i = .ret (.wrote (.ok ())) → c.shown d.dir q.filename = none) ∧
    ∀ i j q q', requests i = .write q → requests j = .write q' → q.overwrite = false →
      q'.overwrite = false → q'.filename = q.filename →
      pool.thread i = .ret (.wrote (.ok ())) → pool.thread j = .ret (.wrote (.ok ())) → i = j := by
  obtain ⟨v, coupled, verified⟩ := coupled_of_run distinct run
  obtain ⟨seen, shelf, -⟩ := coupled.history.run
  have published : ∀ {i q}, requests i = .write q → pool.thread i = .ret (.wrote (.ok ())) →
      .publish i ∈ shelfEvents l := by
    intro i q session ended
    have met := meets_of_ended (verified i) ended
    rw [session] at met
    exact (coupled.history.published i).mpr met
  have client : ∀ {i q}, requests i = .write q → (requests i).onShelf =
      .publishes ⟨q.filename, q.bytes, !q.overwrite⟩ := by
    intro i q session
    rw [session]
    rfl
  refine ⟨fun filename => ?_, fun i q session chosen ended => ?_, ?_⟩
  · rcases Shelf.shows_after shelf filename with ⟨same, -⟩ | ⟨i, p, writer, named, event, shows⟩
    · exact .inl same
    · right
      cases kind : requests i with
      | write q =>
        rw [kind] at writer
        cases writer
        exact ⟨i, q, kind, named, event, shows⟩
      | read r =>
        rw [kind] at writer
        cases writer
  · apply Shelf.exclusive_absent shelf (client session)
    · rw [chosen]
      rfl
    · exact published session ended
  · intro i j q q' first second chosen chosen' same ended ended'
    apply Shelf.exclusive_once shelf (client first) (client second) same
    · rw [chosen]
      rfl
    · rw [chosen']
      rfl
    · exact published first ended
    · exact published second ended'

theorem names_show_whole_files_race : ∃ l pool,
    Pool.Runs localSem (sessionPool raceRoot raceRequests emptyDisk) l pool ∧
    pool.thread .winner = .ret (.wrote (.ok ())) ∧ raceRoot.shown .empty (lit "f") = none := by
  obtain ⟨l, pool, run, -, -, ended, -⟩ := race_run
  exact ⟨l, pool, run, ended,
    (names_show_whole_files raceRequests_distinct run).2.1 .winner _ rfl rfl ended⟩

end SessionRuns

end DataBridge
