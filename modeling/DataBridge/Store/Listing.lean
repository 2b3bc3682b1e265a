import Mathlib.Data.List.Sort
import DataBridge.Store.Isoformat
import DataBridge.Store.Startup

/-!
# The list of transfers

`list_transfers` sorts by the stored text of the start and then by rowid, both
descending. `TransferHistory` are the runs of a store, with the transfers in the order of
their insertion; over them the result is sorted by the starts themselves
(`listTransfers_newest`).
-/

namespace DataBridge

open Effect Routine Sqlite

/-! ## The query -/

/-- ORDER BY started_at DESC, rowid DESC, for rows with their rowids. -/
def ListedBefore (a b : TransferRecord × Nat) : Prop :=
  isoformat b.1.startedAt < isoformat a.1.startedAt ∨
    (isoformat a.1.startedAt = isoformat b.1.startedAt ∧ b.2 ≤ a.2)

instance : DecidableRel ListedBefore := fun a b =>
  inferInstanceAs (Decidable (isoformat b.1.startedAt < isoformat a.1.startedAt ∨
    (isoformat a.1.startedAt = isoformat b.1.startedAt ∧ b.2 ≤ a.2)))

instance : Std.Total ListedBefore where
  total a b := by
    unfold ListedBefore
    rcases lt_trichotomy (isoformat a.1.startedAt) (isoformat b.1.startedAt) with less | same | more
    · exact .inr (.inl less)
    · rcases Nat.le_total b.2 a.2 with le | le
      · exact .inl (.inr ⟨same, le⟩)
      · exact .inr (.inr ⟨same.symm, le⟩)
    · exact .inl (.inl more)

instance : IsTrans (TransferRecord × Nat) ListedBefore where
  trans a b c := by
    intro first second
    rcases first with less | ⟨same, le⟩
    · rcases second with less' | ⟨same', -⟩
      · exact .inl (lt_trans less' less)
      · exact .inl (same' ▸ less)
    · rcases second with less' | ⟨same', le'⟩
      · exact .inl (same ▸ less')
      · exact .inr ⟨same.trans same', Nat.le_trans le' le⟩

/-- WHERE :status IS NULL OR status = :status. -/
def matching (status : Option TransferStatus) (rows : List TransferRecord) :
    List (TransferRecord × Nat) :=
  rows.zipIdx.filter fun row => status.all fun wanted => row.1.status = wanted

/-- The SELECT of `list_transfers`; a negative LIMIT is none. -/
def Database.selectTransfers (status : Option TransferStatus) (limit : Int) (db : Database) :
    Except Exc (List TransferRecord) := do
  bindParameters [] [limit]
  match db.transfers with
  | none => .error noSuchTable
  | some t =>
    let sorted := (matching status t.rows).insertionSort ListedBefore
    .ok ((if limit < 0 then sorted else sorted.take limit.toNat).map Prod.fst)

def listTransfers (status : Option TransferStatus) (limit : Int) :
    StoreRoutine (List TransferRecord) :=
  connect do
    let db ← .invoke .select
    .ofExcept (db.selectTransfers status limit)

/-! ## The runs of a store -/

/-- The databases that a store reaches from an empty table, with the ids and the starts of
the transfers in the order of their insertion. -/
inductive TransferHistory : List (Text × Instant) → Database → Prop
  | empty {db : Database} : db.transfers.isSome → db.records = [] → TransferHistory [] db
  | start {started : List (Text × Instant)} {db db' : Database} {id : Text}
    {request : TransferRequest} {now : Instant} : TransferHistory started db →
    now < endOfTime → db.start id request now = .ok db' →
    TransferHistory (started ++ [(id, now)]) db'
  | change {started : List (Text × Instant)} {db db' : Database} {id : Text}
    {states : List TransferStatus} {update : TransferChange} : TransferHistory started db →
    db.transition id states update = .ok db' → TransferHistory started db'
  | recover {started : List (Text × Instant)} {db db' : Database} {now : Instant} {n : Nat} :
    TransferHistory started db → db.recover now = .ok (db', n) → TransferHistory started db'

/-- What a listing goes by. -/
def startOf (r : TransferRecord) : Text × Instant := (r.id, r.startedAt)

theorem map_startOf_update {rows : List TransferRecord} {guard : TransferRecord → Bool}
    {assign : TransferRecord → TransferRecord} (same : ∀ r, startOf (assign r) = startOf r) :
    (rows.map fun r => if guard r then assign r else r).map startOf = rows.map startOf := by
  rw [List.map_map]
  apply List.map_congr_left
  intro r _
  simp only [Function.comp_apply]
  split
  · exact same r
  · rfl

theorem isSome_transfers_of_records {db : Database} (some : db.records ≠ []) :
    db.transfers.isSome := by
  cases found : db.transfers with
  | none => exact absurd (by simp [Database.records, found]) some
  | some t => rfl

namespace TransferHistory

variable {started : List (Text × Instant)} {db : Database}

theorem records (history : TransferHistory started db) : db.records.map startOf = started := by
  induction history with
  | empty _ none =>
    rw [none]
    rfl
  | start _ _ step ih =>
    rw [(Database.start_records step).2, List.map_append, ih]
    rfl
  | change _ step ih =>
    rw [(Database.transition_records step).2]
    refine (map_startOf_update ?_).trans ih
    intro r
    rfl
  | recover _ step ih =>
    rw [Database.recover_records step]
    refine (map_startOf_update ?_).trans ih
    intro r
    rfl

theorem bounded (history : TransferHistory started db) : ∀ p ∈ started, p.2 < endOfTime := by
  induction history with
  | empty => exact fun p member => (List.not_mem_nil member).elim
  | start _ early _ ih =>
    intro p member
    rcases List.mem_append.mp member with before | single
    · exact ih p before
    · cases List.mem_singleton.mp single
      exact early
  | change _ _ ih | recover _ _ ih => exact ih

theorem isSome_transfers (history : TransferHistory started db) : db.transfers.isSome := by
  induction history with
  | empty some _ => exact some
  | start _ _ step _ =>
    apply isSome_transfers_of_records
    rw [(Database.start_records step).2]
    exact List.append_ne_nil_of_right_ne_nil _ (List.cons_ne_nil _ _)
  | change _ step _ =>
    obtain ⟨one, stored⟩ := Database.transition_records step
    apply isSome_transfers_of_records
    rw [stored]
    intro none
    rw [List.map_eq_nil_iff.mp none] at one
    cases one
  | recover _ step _ =>
    unfold Database.recover at step
    split at step
    · cases step
    · cases step
      rfl

theorem startedAt_lt (history : TransferHistory started db) :
    ∀ r ∈ db.records, r.startedAt < endOfTime := by
  intro r member
  have inStarted : startOf r ∈ started := by
    rw [← history.records]
    exact List.mem_map_of_mem member
  exact history.bounded _ inStarted

end TransferHistory

/-! ## The listing -/

/-- Newest first, and the latest insertion first among equal starts. -/
def NewerFirst (a b : TransferRecord × Nat) : Prop :=
  b.1.startedAt < a.1.startedAt ∨ (a.1.startedAt = b.1.startedAt ∧ b.2 < a.2)

theorem isoformat_inj {i j : Nat} (hi : i < endOfTime) (hj : j < endOfTime) :
    isoformat i = isoformat j ↔ i = j := by
  constructor
  · intro same
    rcases Nat.lt_trichotomy i j with less | equal | more
    · exact absurd same (ne_of_lt ((isoformat_lt_iff hi hj).mpr less))
    · exact equal
    · exact absurd same.symm (ne_of_lt ((isoformat_lt_iff hj hi).mpr more))
  · intro same
    rw [same]

/-- The order of the texts is that of the starts. -/
theorem ListedBefore.newerFirst {a b : TransferRecord × Nat} (ha : a.1.startedAt < endOfTime)
    (hb : b.1.startedAt < endOfTime) (differs : a.2 ≠ b.2) (h : ListedBefore a b) :
    NewerFirst a b := by
  rcases h with less | ⟨same, le⟩
  · exact .inl ((isoformat_lt_iff hb ha).mp less)
  · exact .inr ⟨(isoformat_inj ha hb).mp same, Nat.lt_of_le_of_ne le differs.symm⟩

theorem mem_of_mem_matching {status : Option TransferStatus} {rows : List TransferRecord}
    {row : TransferRecord × Nat} (member : row ∈ matching status rows) : row.1 ∈ rows :=
  List.mem_zipIdx_iff_getElem?.mp (List.mem_filter.mp member).1 |> List.mem_of_getElem?

theorem nodup_rowids (status : Option TransferStatus) (rows : List TransferRecord) :
    ((matching status rows).map Prod.snd).Nodup := by
  have all : (rows.zipIdx.map Prod.snd).Nodup := by
    rw [List.zipIdx_map_snd]
    exact List.nodup_range'
  exact all.sublist (List.filter_sublist.map _)

/-- The rows of a table whose starts a `datetime` holds are sorted by their starts. -/
theorem pairwise_newerFirst {rows : List TransferRecord}
    (bounded : ∀ r ∈ rows, r.startedAt < endOfTime) (status : Option TransferStatus) :
    ((matching status rows).insertionSort ListedBefore).Pairwise NewerFirst := by
  have perm := List.perm_insertionSort ListedBefore (matching status rows)
  have sorted := List.pairwise_insertionSort ListedBefore (matching status rows)
  have distinct : ((matching status rows).insertionSort ListedBefore).Pairwise
      fun a b => a.2 ≠ b.2 :=
    List.pairwise_map.mp ((perm.map Prod.snd).nodup_iff.mpr (nodup_rowids status rows))
  refine (sorted.and distinct).imp_of_mem ?_
  intro a b inA inB h
  have ha := bounded a.1 (mem_of_mem_matching (perm.mem_iff.mp inA))
  have hb := bounded b.1 (mem_of_mem_matching (perm.mem_iff.mp inB))
  exact h.1.newerFirst ha hb h.2

theorem listTransfers_wp {db : Database} {status : Option TransferStatus} {limit : Int}
    {rows : List TransferRecord} (selected : db.selectTransfers status limit = .ok rows) :
    (listTransfers status limit).Wp (driver sqliteFault fun _ _ => True)
      (Post (fun listed _ c => c.file = db ∧ listed = rows)
        fun e _ c => c.file = db ∧ sqliteFault e) () ⟨db, none⟩ := by
  refine (connect_wp (P := fun listed _ d => d = db ∧ listed = rows)
    (R := fun e _ d => d = db ∧ sqliteFault e) (fun _ => trivial) ?_ ?_).post ?_ ?_
  · refine .bind (P := Post (fun d _ (c : Handle Database) => d = db ∧ c = ⟨db, none⟩)
        fun e _ c => c.file = db ∧ sqliteFault e)
      (select_wp (fun _ => trivial) ⟨rfl, rfl⟩ fun e raised => ⟨rfl, raised⟩) ?_ ?_
    · intro d s c h
      obtain ⟨rfl, rfl⟩ := h
      rw [selected]
      exact .ofExcept (Setting.settled_alone.mpr ⟨trivial, ⟨rfl, rfl⟩, fun e raised =>
        ⟨rfl, raised⟩⟩)
    · exact fun e s c h => Setting.settled_alone.mpr h
  · exact fun e raised => ⟨rfl, raised⟩
  · exact fun listed s c h => h.2
  · exact fun e s c h => h.2

/-- For every run of a store, every filter and every limit: `list_transfers` returns the
first `limit` of the matching records, by start, newest first, and by insertion among equal
starts, or raises what SQLite raises. -/
theorem listTransfers_newest {started : List (Text × Instant)} {db : Database}
    (history : TransferHistory started db) (status : Option TransferStatus) {limit : Nat}
    (small : limit < 2 ^ 63) :
    db.records.map startOf = started ∧
    ∃ sorted : List (TransferRecord × Nat),
      sorted.Perm (db.records.zipIdx.filter fun row =>
        status.all fun wanted => row.1.status = wanted) ∧
      sorted.Pairwise NewerFirst ∧
      Prog.Ends (Sql.sem sqliteFault) (listTransfers status limit ()) ⟨db, none⟩ fun outcome c =>
        c.file = db ∧ (outcome.1 = .ok ((sorted.take limit).map Prod.fst) ∨
          ∃ e, sqliteFault e ∧ outcome.1 = .error e) := by
  obtain ⟨t, table⟩ := Option.isSome_iff_exists.mp history.isSome_transfers
  have records : db.records = t.rows := by simp [Database.records, table]
  refine ⟨history.records, (matching status db.records).insertionSort ListedBefore,
    List.perm_insertionSort _ _, pairwise_newerFirst history.startedAt_lt status, ?_⟩
  have fits : fitsInteger limit = true := by
    simp only [fitsInteger, Bool.and_eq_true, decide_eq_true_eq]
    omega
  have selected : db.selectTransfers status limit =
      .ok ((((matching status db.records).insertionSort ListedBefore).take limit).map Prod.fst) := by
    have bound : bindParameters [] [(limit : Int)] = .ok () := by simp [bindParameters, fits]
    have positive : ¬ (limit : Int) < 0 := by omega
    unfold Database.selectTransfers
    rw [bound, table, records]
    simp only [bind, Except.bind, if_neg positive, Int.toNat_natCast]
  have ends := (listTransfers_wp selected).ends
  refine ⟨ends.finite, ends.stuckFree, ?_⟩
  intro outcome c run
  obtain ⟨r, s⟩ := outcome
  have result := ends.result _ _ run
  cases r with
  | ok listed =>
    obtain ⟨same, rfl⟩ := result
    exact ⟨same, .inl rfl⟩
  | error e => exact ⟨result.1, .inr ⟨e, result.2, rfl⟩⟩

/-- Three transfers in one second of the year 2024: two at its start, and between them one
a microsecond later, whose text has a fraction. -/
theorem listTransfers_newest_tied :
    let now : Instant := 63871286399000000
    let started := [(lit "a", now), (lit "b", now + 1), (lit "c", now)]
    ∃ db : Database, TransferHistory started db ∧
      (db.selectTransfers none 2).toOption.map (List.map TransferRecord.id) =
        some [lit "b", lit "c"] ∧
      ∃ sorted : List (TransferRecord × Nat),
        sorted.Perm (db.records.zipIdx.filter fun row =>
          (none : Option TransferStatus).all fun wanted => row.1.status = wanted) ∧
        sorted.Pairwise NewerFirst ∧
        Prog.Ends (Sql.sem sqliteFault) (listTransfers none (2 : Nat) ()) ⟨db, none⟩
          fun outcome c => c.file = db ∧ (outcome.1 = .ok ((sorted.take 2).map Prod.fst) ∨
            ∃ e, sqliteFault e ∧ outcome.1 = .error e) := by
  intro now started
  let request : TransferRequest := ⟨lit "s", lit "f", lit "d", lit "g", false⟩
  have empty : TransferHistory [] { transfers := some ⟨[], List.nodup_nil⟩ } := .empty rfl rfl
  have first := @TransferHistory.start _ _ _ (lit "a") request now empty (by decide) rfl
  have second := @TransferHistory.start _ _ _ (lit "b") request (now + 1) first (by decide) rfl
  have third := @TransferHistory.start _ _ _ (lit "c") request now second (by decide) rfl
  exact ⟨_, third, by decide +kernel, (listTransfers_newest third none (by decide)).2⟩

end DataBridge
