import DataBridge.Files.Shelf
import DataBridge.Local.SessionViews
import DataBridge.Sftp.RemoteDirectory

/-!
# What the views of interleaved sessions say of the disk

Read and write sessions of the local connector share one disk. `Coupled` says which
descriptors and files the view of each session describes, and that the run so far is
one of the atomic shelf. Every call that a session may make keeps it.
-/

namespace DataBridge

open Effect Routine Files

/-! ## Sessions -/

inductive LocalRequest
  | write (q : WriteRequest)
  | read (q : ReadRequest)

inductive LocalOutcome
  | wrote (r : Except Exc Unit)
  | read (r : Except Exc (List Bytes))
  deriving DecidableEq

namespace LocalRequest

variable (c : LocalConnector)

/-- The session that a request starts. -/
def session : LocalRequest → Prog LocalEffect LocalOutcome
  | .write q => (c.writeSession q.filename q.stagingId q.overwrite q.body
      { descriptor := none }).bind fun r => .ret (.wrote r.1)
  | .read q => (c.readSession q.filename q.limit q.sizes {}).bind fun r => .ret (.read r.1)

def alone : LocalRequest → Sem LocalEffect View
  | .write q => viewSem (q.alone c)
  | .read q => viewSem (q.alone c)

/-- What the session on the shelf is. -/
def onShelf : LocalRequest → Client Text Bytes
  | .write q => .publishes { name := q.filename, content := q.bytes, exclusive := !q.overwrite }
  | .read q => .reads q.filename

/-- What a session says of its view when it ends. -/
def Meets : LocalRequest → LocalOutcome → View → Prop
  | .write _, .wrote (.ok _), v => v.published = true
  | .write _, .wrote (.error _), v => v.published = false
  | .read q, .read (.ok chunks), v => (∃ number, v.entry = some (.file number)) ∧
      Delivers (LocalConnector.wantedOf q.limit v.content) q.sizes chunks
  | .read q, .read (.error e), _ => (∀ size ∈ q.sizes, 0 < size) → Unshortened e
  | _, _, _ => False

variable {c}

theorem session_wp (request : LocalRequest) :
    Prog.Wp (.own (request.alone c)) request.Meets (request.session c) {} := by
  cases request with
  | write q =>
    apply Prog.Wp.bind
    apply Prog.Wp.mono (LocalConnector.writeSession_wp (q := q))
    intro r v ended
    apply Prog.Wp.ret
    apply Setting.settle
    obtain ⟨r, s⟩ := r
    cases r with
    | ok _ => exact ended
    | error _ => exact ended
  | read q =>
    apply Prog.Wp.bind
    apply Prog.Wp.mono (LocalConnector.readSession_wp (q := q))
    intro r v ended
    apply Prog.Wp.ret
    apply Setting.settle
    obtain ⟨r, s⟩ := r
    cases r with
    | ok _ => exact ended
    | error _ => exact ended

end LocalRequest

/-- The publications and looks of a run, in order. -/
def shelfEvent {ι : Type} : ι × Effect.Exchange LocalEffect → Option (ShelfEvent ι)
  | (i, ⟨.inr (.replace _ _), .ok _⟩) => some (.publish i)
  | (i, ⟨.inr (.link _ _), .ok _⟩) => some (.publish i)
  | (i, ⟨.inr (.openRead _), .ok _⟩) => some (.look i)
  | _ => none

def shelfEvents {ι : Type} (l : List (ι × Effect.Exchange LocalEffect)) : List (ShelfEvent ι) :=
  l.filterMap shelfEvent

/-! ## Names at the root -/

/-- A name at the root that is not reserved. -/
def Visible (filename : Text) : Prop := .ofChar '/' ∉ filename ∧ isReservedName filename = false

instance (filename : Text) : Decidable (Visible filename) := inferInstanceAs (Decidable (_ ∧ _))

/-- What an entry shows: the content of a file, without its mode. -/
def revealed (dir : Directory Text) : Entry → Shown Bytes
  | .file number => .file (dir.nodes number).content
  | .directory => .directory

/-- What the names at the root show. -/
def LocalConnector.shown (c : LocalConnector) (dir : Directory Text) (filename : Text) :
    Option (Shown Bytes) :=
  if Visible filename then (dir.entries (posixJoin c.root filename)).map (revealed dir) else none

section Names

variable {c : LocalConnector} {filename other : Text} {q q' : WriteRequest}

theorem Accepted.visible (accepted : Accepted filename) : Visible filename := by
  obtain ⟨name, accepted⟩ := accepted
  exact validateFilename_ok accepted

theorem visible_head (plain : .ofChar '/' ∉ filename) : filename.head? ≠ some (.ofChar '/') :=
  fun head => plain (List.mem_of_mem_head? head)

theorem visible_inj (first : Visible filename) (second : Visible other)
    (same : posixJoin c.root filename = posixJoin c.root other) : filename = other :=
  posixJoin_inj (visible_head first.1) (visible_head second.1) same

theorem head_stage (id : Uuid) : (stageName id).head? ≠ some (.ofChar '/') := by
  rw [head_stageName]
  decide

theorem visible_ne_stage (visible : Visible filename) : posixJoin c.root filename ≠ q.stage c := by
  intro same
  have eq := posixJoin_inj (visible_head visible.1) (head_stage _) same
  have reserved := isReservedName_stageName q.stagingId
  rw [← eq, visible.2] at reserved
  cases reserved

/-- The dashes stand between the digits. -/
theorem Uuid.filter_text (id : Uuid) :
    id.text.filter (fun c => c ≠ .ofChar '-') = id.digits.map hexDigit := by
  have digit : ∀ hex : Text, hex ⊆ id.digits.map hexDigit →
      hex.filter (fun c => c ≠ .ofChar '-') = hex := by
    intro hex part
    apply List.filter_eq_self.mpr
    intro c member
    obtain ⟨d, -, rfl⟩ := List.mem_map.mp (part member)
    have plain : ∀ d, decide (hexDigit d ≠ .ofChar '-') = true := by decide
    exact plain d
  have dash : (lit "-").filter (fun c => c ≠ .ofChar '-') = [] := by decide
  have taken : ∀ m n, ((id.digits.map hexDigit).drop m).take n ⊆ id.digits.map hexDigit :=
    fun m n => List.Subset.trans (List.take_subset _ _) (List.drop_subset _ _)
  rw [Uuid.text]
  simp only [List.filter_append, dash, List.append_nil]
  rw [digit _ (List.take_subset _ _), digit _ (taken _ _), digit _ (taken _ _),
    digit _ (taken _ _), digit _ (List.drop_subset _ _)]
  conv_rhs => rw [← List.take_append_drop 8 (id.digits.map hexDigit),
    ← List.take_append_drop 4 ((id.digits.map hexDigit).drop 8), List.drop_drop,
    ← List.take_append_drop 4 ((id.digits.map hexDigit).drop 12), List.drop_drop,
    ← List.take_append_drop 4 ((id.digits.map hexDigit).drop 16), List.drop_drop]
  simp only [List.append_assoc]

theorem hexDigit_inj : Function.Injective hexDigit := by decide

theorem Uuid.text_inj {id id' : Uuid} (same : id.text = id'.text) : id = id' := by
  have digits := congrArg (List.filter fun c => c ≠ .ofChar '-') same
  rw [id.filter_text, id'.filter_text] at digits
  cases id
  cases id'
  congr 1
  exact List.map_injective_iff.mpr hexDigit_inj digits

theorem stage_inj (same : q.stage c = q'.stage c) : q.stagingId = q'.stagingId := by
  have names := posixJoin_inj (head_stage _) (head_stage _) same
  unfold stageName at names
  exact Uuid.text_inj (List.append_cancel_left (List.append_cancel_right names))

end Names

/-! ## Descriptors -/

variable {ι : Type} [DecidableEq ι]

/-- Each session has descriptors of its own, and the one it reads or writes with is that
of what it opened. -/
structure Handles (d : Disk) (v : ι → View) : Prop where
  given : ∀ i descriptor, (v i).Holds descriptor → d.opened descriptor ≠ none
  apart : ∀ i j descriptor, (v i).Holds descriptor → (v j).Holds descriptor → i = j
  refers : ∀ i descriptor, (v i).descriptor = some descriptor →
    ∃ entry, (v i).entry = some entry ∧ d.opened descriptor = some ⟨entry, (v i).offset⟩

namespace Handles

variable {d d' : Disk} {v : ι → View} {i : ι} {x : View} {descriptor : Nat}

/-- Changes of what is behind the descriptors. -/
theorem congr (handles : Handles d v) (opened : d'.opened = d.opened)
    (same : x.descriptor = (v i).descriptor ∧ x.directory = (v i).directory ∧
      x.entry = (v i).entry ∧ x.offset = (v i).offset) :
    Handles d' (Function.update v i x) := by
  have fields : ∀ j, (Function.update v i x j).descriptor = (v j).descriptor ∧
      (Function.update v i x j).directory = (v j).directory ∧
      (Function.update v i x j).entry = (v j).entry ∧
      (Function.update v i x j).offset = (v j).offset := by
    rw [Function.forall_update_iff v (p := fun j y => y.descriptor = (v j).descriptor ∧
      y.directory = (v j).directory ∧ y.entry = (v j).entry ∧ y.offset = (v j).offset)]
    exact ⟨same, fun _ _ => ⟨rfl, rfl, rfl, rfl⟩⟩
  have holds : ∀ j descriptor, (Function.update v i x j).Holds descriptor ↔ (v j).Holds descriptor := by
    intro j descriptor
    rw [View.Holds, View.Holds, (fields j).1, (fields j).2.1]
  constructor
  · intro j descriptor held
    rw [opened]
    exact handles.given j descriptor ((holds _ _).mp held)
  · intro j k descriptor first second
    exact handles.apart j k descriptor ((holds _ _).mp first) ((holds _ _).mp second)
  · intro j descriptor mine
    rw [(fields j).1] at mine
    rw [(fields j).2.2.1, (fields j).2.2.2, opened]
    exact handles.refers j descriptor mine

omit [DecidableEq ι] in
/-- A free descriptor belongs to nobody. -/
theorem not_holds (handles : Handles d v) (free : d.opened descriptor = none) (j : ι) :
    ¬(v j).Holds descriptor := fun held => handles.given j descriptor held free

/-- A session is given a new descriptor. -/
theorem attach {entry : Entry} {offset : Nat} (handles : Handles d v)
    (free : d.opened descriptor = none) (opened : d'.opened = (d.attach descriptor entry offset).opened)
    (grown : ∀ other, x.Holds other → other = descriptor ∨ (v i).Holds other)
    (refers : ∀ other, x.descriptor = some other →
      ∃ e, x.entry = some e ∧ d'.opened other = some ⟨e, x.offset⟩) :
    Handles d' (Function.update v i x) := by
  have older : ∀ other, other ≠ descriptor → d'.opened other = d.opened other := by
    intro other differs
    rw [opened]
    exact Function.update_of_ne differs ..
  have newer : d'.opened descriptor ≠ none := by
    rw [opened, Disk.attach]
    dsimp only
    rw [Function.update_self]
    exact Option.some_ne_none _
  constructor
  · rw [Function.forall_update_iff v (p := fun _ y => ∀ other, y.Holds other → d'.opened other ≠ none)]
    constructor
    · intro other held
      rcases grown other held with rfl | held
      · exact newer
      · rw [older other fun same => handles.not_holds free i (same ▸ held)]
        exact handles.given i other held
    · intro j _ other held
      rw [older other fun same => handles.not_holds free j (same ▸ held)]
      exact handles.given j other held
  · have mine : ∀ j other, j ≠ i → x.Holds other → (v j).Holds other → False := by
      intro j other differs held held'
      rcases grown other held with rfl | held
      · exact handles.not_holds free j held'
      · exact differs (handles.apart j i other held' held)
    intro j k other first second
    by_cases left : j = i
    · by_cases right : k = i
      · rw [left, right]
      · subst left
        rw [Function.update_self] at first
        rw [Function.update_of_ne right] at second
        exact (mine k other right first second).elim
    · rw [Function.update_of_ne left] at first
      by_cases right : k = i
      · subst right
        rw [Function.update_self] at second
        exact (mine j other left second first).elim
      · rw [Function.update_of_ne right] at second
        exact handles.apart j k other first second
  · rw [Function.forall_update_iff v (p := fun _ y => ∀ other, y.descriptor = some other →
      ∃ e, y.entry = some e ∧ d'.opened other = some ⟨e, y.offset⟩)]
    refine ⟨refers, fun j _ other attached => ?_⟩
    rw [older other fun same => handles.not_holds free j (same ▸ .inl attached)]
    exact handles.refers j other attached

/-- A session gives a descriptor back. -/
theorem detach (handles : Handles d v) (held : (v i).Holds descriptor) :
    Handles (d.detach descriptor) (Function.update v i ((v i).detach descriptor)) := by
  have fewer : ∀ other, ((v i).detach descriptor).Holds other → other ≠ descriptor ∧ (v i).Holds other := by
    intro other held
    unfold View.detach at held
    rcases held with left | right
    · dsimp only at left
      split at left
      · cases left
      · rename_i differs
        exact ⟨fun same => differs (same ▸ left), .inl left⟩
    · dsimp only at right
      split at right
      · cases right
      · rename_i differs
        exact ⟨fun same => differs (same ▸ right), .inr right⟩
  have others : ∀ j other, j ≠ i → (v j).Holds other → other ≠ descriptor := by
    intro j other differs held' same
    subst same
    exact differs (handles.apart j i other held' held)
  have older : ∀ other, other ≠ descriptor → (d.detach descriptor).opened other = d.opened other :=
    fun other differs => Function.update_of_ne differs ..
  have shrunk : ∀ j other, (Function.update v i ((v i).detach descriptor) j).Holds other →
      other ≠ descriptor ∧ (v j).Holds other := by
    rw [Function.forall_update_iff v (p := fun j y => ∀ other, y.Holds other →
      other ≠ descriptor ∧ (v j).Holds other)]
    exact ⟨fewer, fun j differs other held' => ⟨others j other differs held', held'⟩⟩
  constructor
  · intro j other held'
    obtain ⟨differs, held'⟩ := shrunk j other held'
    rw [older other differs]
    exact handles.given j other held'
  · intro j k other first second
    exact handles.apart j k other (shrunk j other first).2 (shrunk k other second).2
  · rw [Function.forall_update_iff v (p := fun _ y => ∀ other, y.descriptor = some other →
      ∃ e, y.entry = some e ∧ (d.detach descriptor).opened other = some ⟨e, y.offset⟩)]
    constructor
    · intro other attached
      obtain ⟨differs, -⟩ := fewer other (.inl attached)
      rw [older other differs]
      unfold View.detach at attached
      dsimp only at attached
      split at attached
      · cases attached
      · exact handles.refers i other attached
    · intro j differs other attached
      rw [older other (others j other differs (.inl attached))]
      exact handles.refers j other attached

/-- A session reads on. -/
theorem seek {entry : Entry} {offset : Nat} (handles : Handles d v)
    (mine : (v i).descriptor = some descriptor) (opened : (v i).entry = some entry) :
    Handles (d.attach descriptor entry offset) (Function.update v i { v i with offset }) := by
  have holds : ∀ j other, (Function.update v i { v i with offset } j).Holds other ↔ (v j).Holds other := by
    rw [Function.forall_update_iff v (p := fun j y => ∀ other, y.Holds other ↔ (v j).Holds other)]
    exact ⟨fun _ => Iff.rfl, fun _ _ _ => Iff.rfl⟩
  constructor
  · intro j other held
    by_cases same : other = descriptor
    · subst same
      rw [Disk.attach]
      dsimp only
      rw [Function.update_self]
      exact Option.some_ne_none _
    · rw [Disk.attach]
      dsimp only
      rw [Function.update_of_ne same]
      exact handles.given j other ((holds _ _).mp held)
  · intro j k other first second
    exact handles.apart j k other ((holds _ _).mp first) ((holds _ _).mp second)
  · rw [Function.forall_update_iff v (p := fun _ y => ∀ other, y.descriptor = some other →
      ∃ e, y.entry = some e ∧ (d.attach descriptor entry offset).opened other = some ⟨e, y.offset⟩)]
    constructor
    · intro other attached
      cases mine.symm.trans attached
      exact ⟨entry, opened, Function.update_self ..⟩
    · intro j differs other attached
      have apart : other ≠ descriptor := by
        intro same
        subst same
        exact differs (handles.apart j i other (.inl attached) (.inl mine))
      rw [Disk.attach]
      dsimp only
      rw [Function.update_of_ne apart]
      exact handles.refers j other attached

end Handles

/-! ## Files -/

section Stages

variable (c : LocalConnector) (requests : ι → LocalRequest)

/-- The session has made this file. -/
def Owner (v : ι → View) (i : ι) (n : Nat) : Prop :=
  (∃ q, requests i = .write q) ∧ (v i).entry = some (.file n)

/-- What the views say of the files. A name leads to a file that was there at the start,
to a staging file, or to one that its session has published and will not change. -/
structure Stages (start dir : Directory Text) (v : ι → View) : Prop where
  older : start.next ≤ dir.next
  kept : ∀ n, n < start.next → (dir.nodes n).content = (start.nodes n).content
  unopened : ∀ i, (v i).entry = none →
    (v i).named = false ∧ (v i).published = false ∧ (v i).content = [] ∧ (v i).offset = 0
  stored : ∀ i n, (v i).entry = some (.file n) →
    n < dir.next ∧ (dir.nodes n).content = (v i).content
  regular : ∀ i q entry, requests i = .write q → (v i).entry = some entry → ∃ n, entry = .file n
  new : ∀ i n, Owner requests v i n → start.next ≤ n
  single : ∀ i j n, Owner requests v i n → Owner requests v j n → i = j
  staged : ∀ i q, requests i = .write q → (v i).entry ≠ none →
    dir.entries (q.stage c) = if (v i).named then (v i).entry else none
  places : ∀ path n, dir.entries path = some (.file n) → n < start.next ∨
    ∃ i q, requests i = .write q ∧ (v i).entry = some (.file n) ∧
      (path = q.stage c ∨ (v i).published = true ∧ path = q.destination c)
  whole : ∀ i q, requests i = .write q → (v i).published = true →
    Accepted q.filename ∧ (v i).content = q.bytes
  reader : ∀ i q, requests i = .read q → (v i).named = false ∧ (v i).published = false
  frozen : ∀ i q n, requests i = .read q → (v i).entry = some (.file n) → n < start.next ∨
    ∃ j q', requests j = .write q' ∧ (v j).entry = some (.file n) ∧ (v j).published = true

end Stages

section StageRules

variable {c : LocalConnector} {requests : ι → LocalRequest} {start dir dir' : Directory Text}
  {v : ι → View} {i : ι} {x : View} {q : WriteRequest} {n : Nat} {filename : Text}

/-- Two write sessions have different staging names. -/
def DistinctStages (requests : ι → LocalRequest) : Prop :=
  ∀ i j q q', requests i = .write q → requests j = .write q' → q.stagingId = q'.stagingId → i = j

omit [DecidableEq ι] in
theorem DistinctStages.apart (distinct : DistinctStages requests) {i j : ι} {q q' : WriteRequest}
    (first : requests i = .write q) (second : requests j = .write q') (differs : j ≠ i) :
    q'.stage c ≠ q.stage c :=
  fun same => differs (distinct j i q' q second first (stage_inj same))

namespace Stages

theorem entries_update (same : x.entry = (v i).entry) (j : ι) :
    (Function.update v i x j).entry = (v j).entry := by
  revert j
  rw [Function.forall_update_iff v (p := fun j y => y.entry = (v j).entry)]
  exact ⟨same, fun _ _ => rfl⟩

omit [DecidableEq ι] in
/-- Under a visible name is a file that no session will change. -/
theorem settled (stages : Stages c requests start dir v) (visible : Visible filename)
    (entry : dir.entries (posixJoin c.root filename) = some (.file n)) : n < start.next ∨
    ∃ j q', requests j = .write q' ∧ (v j).entry = some (.file n) ∧ (v j).published = true := by
  rcases stages.places _ _ entry with old | ⟨j, q', session, owned, staged | ⟨published, -⟩⟩
  · exact .inl old
  · exact absurd staged (visible_ne_stage visible)
  · exact .inr ⟨j, q', session, owned, published⟩

omit [DecidableEq ι] in
/-- What an unpublished session has made is under no visible name, and nobody reads it. -/
theorem hidden (stages : Stages c requests start dir v) (session : requests i = .write q)
    (owned : (v i).entry = some (.file n)) (unpublished : (v i).published = false)
    (settled : n < start.next ∨ ∃ j q', requests j = .write q' ∧ (v j).entry = some (.file n) ∧
      (v j).published = true) : False := by
  rcases settled with old | ⟨j, q', session', owned', published⟩
  · have new := stages.new i n ⟨⟨q, session⟩, owned⟩
    omega
  · obtain rfl := stages.single i j n ⟨⟨q, session⟩, owned⟩ ⟨⟨q', session'⟩, owned'⟩
    rw [unpublished] at published
    cases published

/-- Changes of the descriptors. -/
theorem congr (stages : Stages c requests start dir v) (entry : x.entry = (v i).entry)
    (content : x.content = (v i).content) (named : x.named = (v i).named)
    (published : x.published = (v i).published) (offset : x.entry = none → x.offset = (v i).offset) :
    Stages c requests start dir (Function.update v i x) := by
  have fields : ∀ j, (Function.update v i x j).entry = (v j).entry ∧
      (Function.update v i x j).content = (v j).content ∧
      (Function.update v i x j).named = (v j).named ∧
      (Function.update v i x j).published = (v j).published ∧
      ((Function.update v i x j).entry = none → (Function.update v i x j).offset = (v j).offset) := by
    rw [Function.forall_update_iff v (p := fun j y => y.entry = (v j).entry ∧
      y.content = (v j).content ∧ y.named = (v j).named ∧ y.published = (v j).published ∧
      (y.entry = none → y.offset = (v j).offset))]
    exact ⟨⟨entry, content, named, published, offset⟩, fun _ _ => ⟨rfl, rfl, rfl, rfl, fun _ => rfl⟩⟩
  have owner : ∀ j n, Owner requests (Function.update v i x) j n ↔ Owner requests v j n := by
    intro j n
    rw [Owner, Owner, (fields j).1]
  constructor
  · exact stages.older
  · exact stages.kept
  · intro j none
    rw [(fields j).2.2.2.2 none, (fields j).2.1, (fields j).2.2.1, (fields j).2.2.2.1]
    rw [(fields j).1] at none
    exact stages.unopened j none
  · intro j n owned
    rw [(fields j).1] at owned
    rw [(fields j).2.1]
    exact stages.stored j n owned
  · intro j q entry session opened
    rw [(fields j).1] at opened
    exact stages.regular j q entry session opened
  · intro j n owned
    exact stages.new j n ((owner j n).mp owned)
  · intro j k n first second
    exact stages.single j k n ((owner j n).mp first) ((owner k n).mp second)
  · intro j q session opened
    rw [(fields j).1] at opened ⊢
    rw [(fields j).2.2.1]
    exact stages.staged j q session opened
  · intro path n entry
    rcases stages.places path n entry with old | ⟨j, q, session, owned, place⟩
    · exact .inl old
    · refine .inr ⟨j, q, session, ?_, ?_⟩
      · rw [(fields j).1]
        exact owned
      · rw [(fields j).2.2.2.1]
        exact place
  · intro j q session published
    rw [(fields j).2.2.2.1] at published
    rw [(fields j).2.1]
    exact stages.whole j q session published
  · intro j q session
    rw [(fields j).2.2.1, (fields j).2.2.2.1]
    exact stages.reader j q session
  · intro j q n session opened
    rw [(fields j).1] at opened
    rcases stages.frozen j q n session opened with old | ⟨k, q', session', owned, published⟩
    · exact .inl old
    · refine .inr ⟨k, q', session', ?_, ?_⟩
      · rw [(fields k).1]
        exact owned
      · rw [(fields k).2.2.2.1]
        exact published

/-- A step of a write session after it has made its file: only this file changes, while
it is not published, and only the staging name and the destination do. -/
theorem advance (stages : Stages c requests start dir v) (distinct : DistinctStages requests)
    (session : requests i = .write q) (opened : (v i).entry ≠ none) (entry : x.entry = (v i).entry)
    (next : dir'.next = dir.next)
    (nodes : ∀ n, (dir'.nodes n).content ≠ (dir.nodes n).content →
      Owner requests v i n ∧ (v i).published = false)
    (stored : ∀ n, (v i).entry = some (.file n) → (dir'.nodes n).content = x.content)
    (staged : dir'.entries (q.stage c) = if x.named then x.entry else none)
    (moved : ∀ path, path ≠ q.stage c → dir'.entries path = dir.entries path ∨
      path = q.destination c ∧ x.published = true ∧ dir'.entries path = x.entry)
    (grown : (v i).published = true → x.published = true)
    (whole : x.published = true → Accepted q.filename ∧ x.content = q.bytes) :
    Stages c requests start dir' (Function.update v i x) := by
  have entries := entries_update (v := v) entry
  have owner : ∀ j n, Owner requests (Function.update v i x) j n ↔ Owner requests v j n := by
    intro j n
    rw [Owner, Owner, entries j]
  have unchanged : ∀ n, ¬(Owner requests v i n ∧ (v i).published = false) →
      (dir'.nodes n).content = (dir.nodes n).content := by
    intro n other
    by_contra differs
    exact other (nodes n differs)
  have published : ∀ j, (v j).published = true → (Function.update v i x j).published = true := by
    rw [Function.forall_update_iff v (p := fun j y => (v j).published = true → y.published = true)]
    exact ⟨grown, fun _ _ same => same⟩
  have names : ∀ j, j ≠ i → ∀ q', requests j = .write q' →
      (dir'.entries (q'.stage c) = dir.entries (q'.stage c)) := by
    intro j differs q' session'
    rcases moved _ (distinct.apart session session' differs) with same | ⟨place, said, -⟩
    · exact same
    · exact absurd place.symm (visible_ne_stage (whole said).1.visible)
  constructor
  · rw [next]
    exact stages.older
  · intro n old
    rw [unchanged n fun own => by have := stages.new i n own.1; omega]
    exact stages.kept n old
  · intro j none
    by_cases same : j = i
    · subst same
      rw [Function.update_self, entry] at none
      exact absurd none opened
    · rw [Function.update_of_ne same] at none ⊢
      exact stages.unopened j none
  · intro j n owned
    rw [entries] at owned
    rw [next]
    refine ⟨(stages.stored j n owned).1, ?_⟩
    by_cases same : j = i
    · subst same
      rw [Function.update_self]
      exact stored n owned
    · rw [Function.update_of_ne same, ← (stages.stored j n owned).2]
      apply unchanged
      intro own
      cases kind : requests j with
      | write q' =>
        exact same (stages.single j i n ⟨⟨q', kind⟩, owned⟩ own.1)
      | read q' =>
        exact stages.hidden session own.1.2 own.2 (stages.frozen j q' n kind owned)
  · intro j q' e session' opened'
    rw [entries] at opened'
    exact stages.regular j q' e session' opened'
  · intro j n owned
    exact stages.new j n ((owner j n).mp owned)
  · intro j k n first second
    exact stages.single j k n ((owner j n).mp first) ((owner k n).mp second)
  · intro j q' session' opened'
    by_cases same : j = i
    · subst same
      cases session.symm.trans session'
      rw [Function.update_self]
      exact staged
    · rw [Function.update_of_ne same] at opened' ⊢
      rw [names j same q' session']
      exact stages.staged j q' session' opened'
  · intro path n found
    by_cases stage : path = q.stage c
    · subst stage
      rw [staged] at found
      split at found
      · rw [entry] at found
        exact .inr ⟨i, q, session, (entries i).trans found, .inl rfl⟩
      · cases found
    · rcases moved path stage with same | ⟨place, said, shown⟩
      · rw [same] at found
        rcases stages.places path n found with old | ⟨j, q', session', owned, place⟩
        · exact .inl old
        · exact .inr ⟨j, q', session', (entries j).trans owned,
            place.imp_right fun place => ⟨published j place.1, place.2⟩⟩
      · rw [shown, entry] at found
        refine .inr ⟨i, q, session, (entries i).trans found, .inr ⟨?_, place⟩⟩
        rw [Function.update_self]
        exact said
  · intro j q' session' said
    by_cases same : j = i
    · subst same
      cases session.symm.trans session'
      rw [Function.update_self] at said ⊢
      exact whole said
    · rw [Function.update_of_ne same] at said ⊢
      exact stages.whole j q' session' said
  · intro j q' session'
    have differs : j ≠ i := by
      intro same
      subst same
      cases session.symm.trans session'
    rw [Function.update_of_ne differs]
    exact stages.reader j q' session'
  · intro j q' n session' owned
    rw [entries] at owned
    rcases stages.frozen j q' n session' owned with old | ⟨k, q'', writer, owned', said⟩
    · exact .inl old
    · exact .inr ⟨k, q'', writer, (entries k).trans owned', published k said⟩

/-- A session makes its staging file. -/
theorem create {mode : Nat} (stages : Stages c requests start dir v)
    (distinct : DistinctStages requests) (session : requests i = .write q)
    (unopened : (v i).entry = none) (entry : x.entry = some (.file dir.next))
    (named : x.named = true) (content : x.content = (v i).content)
    (published : x.published = (v i).published) :
    Stages c requests start (dir.create (q.stage c) mode) (Function.update v i x) := by
  have fresh : ∀ j, (v j).entry ≠ some (.file dir.next) := by
    intro j owned
    exact lt_irrefl _ (stages.stored j _ owned).1
  have node : ∀ n, n < dir.next → ((dir.create (q.stage c) mode).nodes n) = dir.nodes n :=
    fun n old => Directory.create_nodes_of_lt old
  have owner : ∀ j n, Owner requests (Function.update v i x) j n →
      j = i ∧ n = dir.next ∨ Owner requests v j n := by
    intro j n owned
    by_cases same : j = i
    · subst same
      obtain ⟨-, owned⟩ := owned
      rw [Function.update_self, entry] at owned
      cases owned
      exact .inl ⟨rfl, rfl⟩
    · rw [Owner, Function.update_of_ne same] at owned
      exact .inr owned
  have empty := stages.unopened i unopened
  constructor
  · rw [Directory.create_next]
    exact Nat.le_succ_of_le stages.older
  · intro n old
    rw [node n (Nat.lt_of_lt_of_le old stages.older)]
    exact stages.kept n old
  · intro j none
    by_cases same : j = i
    · subst same
      rw [Function.update_self, entry] at none
      cases none
    · rw [Function.update_of_ne same] at none ⊢
      exact stages.unopened j none
  · intro j n owned
    rw [Directory.create_next]
    by_cases same : j = i
    · subst same
      rw [Function.update_self] at owned ⊢
      rw [entry] at owned
      cases owned
      exact ⟨Nat.lt_succ_self _, by rw [Directory.create_nodes_next, content, empty.2.2.1]⟩
    · rw [Function.update_of_ne same] at owned ⊢
      obtain ⟨old, content⟩ := stages.stored j n owned
      exact ⟨Nat.lt_succ_of_lt old, by rw [node n old]; exact content⟩
  · intro j q' e session' opened
    by_cases same : j = i
    · subst same
      rw [Function.update_self, entry] at opened
      cases opened
      exact ⟨_, rfl⟩
    · rw [Function.update_of_ne same] at opened
      exact stages.regular j q' e session' opened
  · intro j n owned
    rcases owner j n owned with ⟨-, rfl⟩ | owned
    · exact stages.older
    · exact stages.new j n owned
  · intro j k n first second
    rcases owner j n first with ⟨left, made⟩ | mine
    · rcases owner k n second with ⟨right, -⟩ | other
      · exact left.trans right.symm
      · rw [made] at other
        exact absurd other.2 (fresh k)
    · rcases owner k n second with ⟨-, made⟩ | other
      · rw [made] at mine
        exact absurd mine.2 (fresh j)
      · exact stages.single j k n mine other
  · intro j q' session' opened
    by_cases same : j = i
    · subst same
      cases session.symm.trans session'
      rw [Function.update_self, named, entry]
      exact Directory.create_entries_self
    · rw [Function.update_of_ne same] at opened ⊢
      rw [Directory.create_entries_of_ne (distinct.apart session session' same)]
      exact stages.staged j q' session' opened
  · intro path n found
    by_cases stage : path = q.stage c
    · subst stage
      rw [Directory.create_entries_self] at found
      cases found
      exact .inr ⟨i, q, session, by rw [Function.update_self, entry], .inl rfl⟩
    · rw [Directory.create_entries_of_ne stage] at found
      rcases stages.places path n found with old | ⟨j, q', session', owned, place⟩
      · exact .inl old
      · have differs : j ≠ i := by
          intro same
          subst same
          rw [unopened] at owned
          cases owned
        refine .inr ⟨j, q', session', ?_, ?_⟩
        · rw [Function.update_of_ne differs]
          exact owned
        · rw [Function.update_of_ne differs]
          exact place
  · intro j q' session' said
    by_cases same : j = i
    · subst same
      rw [Function.update_self, published, empty.2.1] at said
      cases said
    · rw [Function.update_of_ne same] at said ⊢
      exact stages.whole j q' session' said
  · intro j q' session'
    have differs : j ≠ i := by
      intro same
      subst same
      cases session.symm.trans session'
    rw [Function.update_of_ne differs]
    exact stages.reader j q' session'
  · intro j q' n session' owned
    have differs : j ≠ i := by
      intro same
      subst same
      cases session.symm.trans session'
    rw [Function.update_of_ne differs] at owned
    rcases stages.frozen j q' n session' owned with old | ⟨k, q'', writer, owned', said⟩
    · exact .inl old
    · have apart : k ≠ i := by
        intro same
        subst same
        rw [unopened] at owned'
        cases owned'
      refine .inr ⟨k, q'', writer, ?_, ?_⟩
      · rw [Function.update_of_ne apart]
        exact owned'
      · rw [Function.update_of_ne apart]
        exact said

/-- A session opens a file to read it. -/
theorem look {r : ReadRequest} {e : Entry} (stages : Stages c requests start dir v)
    (session : requests i = .read r) (visible : Visible r.filename)
    (found : dir.entries (r.path c) = some e) (entry : x.entry = some e)
    (content : ∀ n, e = .file n → x.content = (dir.nodes n).content)
    (named : x.named = (v i).named) (published : x.published = (v i).published) :
    Stages c requests start dir (Function.update v i x) := by
  have writer : ∀ j q, requests j = .write q → Function.update v i x j = v j := by
    intro j q session'
    apply Function.update_of_ne
    intro same
    subst same
    cases session.symm.trans session'
  have owner : ∀ j n, Owner requests (Function.update v i x) j n → Owner requests v j n := by
    intro j n owned
    obtain ⟨⟨q, session'⟩, owned⟩ := owned
    rw [writer j q session'] at owned
    exact ⟨⟨q, session'⟩, owned⟩
  have settled : ∀ n, e = .file n → n < start.next ∨ ∃ j q', requests j = .write q' ∧
      (v j).entry = some (.file n) ∧ (v j).published = true := by
    intro n same
    subst same
    exact stages.settled visible found
  have kept : ∀ n, (n < start.next ∨ ∃ j q', requests j = .write q' ∧ (v j).entry = some (.file n) ∧
      (v j).published = true) → n < start.next ∨ ∃ j q', requests j = .write q' ∧
      (Function.update v i x j).entry = some (.file n) ∧
      (Function.update v i x j).published = true := by
    intro n settled
    rcases settled with old | ⟨j, q', session', owned, said⟩
    · exact .inl old
    · refine .inr ⟨j, q', session', ?_, ?_⟩
      · rw [writer j q' session']
        exact owned
      · rw [writer j q' session']
        exact said
  constructor
  · exact stages.older
  · exact stages.kept
  · intro j none
    by_cases same : j = i
    · subst same
      rw [Function.update_self, entry] at none
      cases none
    · rw [Function.update_of_ne same] at none ⊢
      exact stages.unopened j none
  · intro j n owned
    by_cases same : j = i
    · subst same
      rw [Function.update_self] at owned ⊢
      rw [entry] at owned
      cases owned
      exact ⟨dir.bounded _ _ found, (content n rfl).symm⟩
    · rw [Function.update_of_ne same] at owned ⊢
      exact stages.stored j n owned
  · intro j q e session' opened
    rw [writer j q session'] at opened
    exact stages.regular j q e session' opened
  · intro j n owned
    exact stages.new j n (owner j n owned)
  · intro j k n first second
    exact stages.single j k n (owner j n first) (owner k n second)
  · intro j q session' opened
    rw [writer j q session'] at opened ⊢
    exact stages.staged j q session' opened
  · intro path n found
    rcases stages.places path n found with old | ⟨j, q, session', owned, place⟩
    · exact .inl old
    · refine .inr ⟨j, q, session', ?_, ?_⟩
      · rw [writer j q session']
        exact owned
      · rw [writer j q session']
        exact place
  · intro j q session' said
    rw [writer j q session'] at said ⊢
    exact stages.whole j q session' said
  · intro j q session'
    have known := stages.reader j q session'
    by_cases same : j = i
    · subst same
      rw [Function.update_self, named, published]
      exact known
    · rw [Function.update_of_ne same]
      exact known
  · intro j q n session' owned
    apply kept
    by_cases same : j = i
    · subst same
      rw [Function.update_self, entry] at owned
      cases owned
      exact settled n rfl
    · rw [Function.update_of_ne same] at owned
      exact stages.frozen j q n session' owned

end Stages

/-! ## What the names show -/

theorem LocalConnector.shown_congr (same : ∀ filename, Visible filename →
    dir'.entries (posixJoin c.root filename) = dir.entries (posixJoin c.root filename) ∧
    ∀ n, dir.entries (posixJoin c.root filename) = some (.file n) →
      (dir'.nodes n).content = (dir.nodes n).content) : c.shown dir' = c.shown dir := by
  funext filename
  unfold LocalConnector.shown
  split
  · rename_i visible
    obtain ⟨entries, nodes⟩ := same filename visible
    rw [entries]
    cases found : dir.entries (posixJoin c.root filename) with
    | none => rfl
    | some entry =>
      cases entry with
      | file n =>
        rw [Option.map_some, Option.map_some, revealed, revealed, nodes n found]
      | directory => rfl
  · rfl

omit [DecidableEq ι] in
/-- A step on a staging file shows nothing. -/
theorem Stages.shown_same (stages : Stages c requests start dir v) (session : requests i = .write q)
    (entries : ∀ path, path ≠ q.stage c → dir'.entries path = dir.entries path)
    (nodes : ∀ n, n < dir.next → (dir'.nodes n).content ≠ (dir.nodes n).content →
      Owner requests v i n ∧ (v i).published = false) : c.shown dir' = c.shown dir := by
  apply LocalConnector.shown_congr
  intro filename visible
  refine ⟨entries _ (visible_ne_stage visible), fun n found => ?_⟩
  by_contra differs
  obtain ⟨own, unpublished⟩ := nodes n (dir.bounded _ _ found) differs
  exact stages.hidden session own.2 unpublished (stages.settled visible found)

/-- A publication shows the file under its name. -/
theorem shown_publish (accepted : Accepted q.filename)
    (entries : ∀ path, path ≠ q.stage c → path ≠ q.destination c →
      dir'.entries path = dir.entries path)
    (destination : dir'.entries (q.destination c) = some (.file n)) (nodes : dir'.nodes = dir.nodes)
    (whole : (dir.nodes n).content = q.bytes) :
    c.shown dir' = Function.update (c.shown dir) q.filename (some (.file q.bytes)) := by
  funext filename
  by_cases same : filename = q.filename
  · subst same
    rw [Function.update_self, LocalConnector.shown, if_pos accepted.visible]
    rw [WriteRequest.destination] at destination
    rw [destination, Option.map_some, revealed, nodes, whole]
  · rw [Function.update_of_ne same]
    unfold LocalConnector.shown
    split
    · rename_i visible
      have apart : posixJoin c.root filename ≠ q.destination c :=
        fun place => same (visible_inj visible accepted.visible place)
      rw [entries _ (visible_ne_stage visible) apart]
      congr 1
      funext entry
      unfold revealed
      rw [nodes]
    · rfl

end StageRules

/-! ## The history -/

/-- What a session that reads has opened. -/
def View.showing (entry : Entry) (content : Bytes) : Shown Bytes :=
  match entry with
  | .file _ => .file content
  | .directory => .directory

/-- The run so far is one of the shelf. -/
structure History (c : LocalConnector) (requests : ι → LocalRequest) (start dir : Directory Text)
    (l : List (ι × Effect.Exchange LocalEffect)) (v : ι → View) : Prop where
  run : ∃ seen, Trace (Shelf.Step fun i => (requests i).onShelf) ⟨c.shown start, fun _ => none⟩
    (shelfEvents l) ⟨c.shown dir, seen⟩ ∧ ∀ i q entry, requests i = .read q →
      (v i).entry = some entry → seen i = some (View.showing entry (v i).content)
  published : ∀ i, .publish i ∈ shelfEvents l ↔ (v i).published = true
  looked : ∀ i, .look i ∈ shelfEvents l → (v i).entry ≠ none
  once : (shelfEvents l).Nodup

section HistoryRules

variable {c : LocalConnector} {requests : ι → LocalRequest} {start dir dir' : Directory Text}
  {l : List (ι × Effect.Exchange LocalEffect)} {v : ι → View} {i : ι} {x : View} {q : WriteRequest}
  {exchange : Effect.Exchange LocalEffect}

omit [DecidableEq ι] in
theorem shelfEvents_concat (l : List (ι × Effect.Exchange LocalEffect)) (last : ι × Effect.Exchange LocalEffect) :
    shelfEvents (l ++ [last]) = shelfEvents l ++ (shelfEvent last).toList := by
  rw [shelfEvents, shelfEvents, List.filterMap_append, List.append_cancel_left_eq]
  cases event : shelfEvent last with
  | none => rw [List.filterMap_cons_none event, List.filterMap_nil]; rfl
  | some e => rw [List.filterMap_cons_some event, List.filterMap_nil]; rfl

namespace History

/-- A step that nobody sees. -/
theorem quiet (history : History c requests start dir l v) (silent : shelfEvent (i, exchange) = none)
    (shown : c.shown dir' = c.shown dir) (published : x.published = (v i).published)
    (opened : (v i).entry ≠ none → x.entry ≠ none)
    (reader : ∀ q, requests i = .read q → x.entry = (v i).entry ∧ x.content = (v i).content) :
    History c requests start dir' (l ++ [(i, exchange)]) (Function.update v i x) := by
  have events : shelfEvents (l ++ [(i, exchange)]) = shelfEvents l := by
    rw [shelfEvents_concat, silent, Option.toList_none, List.append_nil]
  constructor
  · rw [events, shown]
    obtain ⟨seen, run, views⟩ := history.run
    refine ⟨seen, run, fun j q entry session owned => ?_⟩
    by_cases same : j = i
    · subst same
      obtain ⟨entries, contents⟩ := reader q session
      rw [Function.update_self] at owned ⊢
      rw [contents]
      rw [entries] at owned
      exact views j q entry session owned
    · rw [Function.update_of_ne same] at owned ⊢
      exact views j q entry session owned
  · rw [events, Function.forall_update_iff v (p := fun j y =>
      .publish j ∈ shelfEvents l ↔ y.published = true)]
    exact ⟨by rw [published]; exact history.published i, fun j _ => history.published j⟩
  · rw [events, Function.forall_update_iff v (p := fun j y =>
      .look j ∈ shelfEvents l → y.entry ≠ none)]
    exact ⟨fun event => opened (history.looked i event), fun j _ => history.looked j⟩
  · rw [events]
    exact history.once

theorem publish (history : History c requests start dir l v) (session : requests i = .write q)
    (event : shelfEvent (i, exchange) = some (.publish i)) (unpublished : (v i).published = false)
    (shown : c.shown dir' = Function.update (c.shown dir) q.filename (some (.file q.bytes)))
    (solid : c.shown dir q.filename ≠ some .directory)
    (exclusive : q.overwrite = false → c.shown dir q.filename = none)
    (published : x.published = true) (opened : (v i).entry ≠ none → x.entry ≠ none) :
    History c requests start dir' (l ++ [(i, exchange)]) (Function.update v i x) := by
  have events : shelfEvents (l ++ [(i, exchange)]) = shelfEvents l ++ [.publish i] := by
    rw [shelfEvents_concat, event, Option.toList_some]
  constructor
  · rw [events, shown]
    obtain ⟨seen, run, views⟩ := history.run
    refine ⟨seen, run.concat ?_, fun j r entry session' owned => ?_⟩
    · apply Shelf.Step.publish (i := i) (p := ⟨q.filename, q.bytes, !q.overwrite⟩)
      · show (requests i).onShelf = _
        rw [session]
        rfl
      · exact solid
      · intro chosen
        exact exclusive (by simpa using chosen)
    · have differs : j ≠ i := by
        intro same
        subst same
        cases session.symm.trans session'
      rw [Function.update_of_ne differs] at owned ⊢
      exact views j r entry session' owned
  · intro j
    rw [events]
    by_cases same : j = i
    · subst same
      rw [Function.update_self, published]
      simp
    · rw [Function.update_of_ne same, ← history.published j]
      simp [same]
  · intro j looked
    rw [events] at looked
    have earlier : .look j ∈ shelfEvents l := by simpa using looked
    by_cases same : j = i
    · subst same
      rw [Function.update_self]
      exact opened (history.looked j earlier)
    · rw [Function.update_of_ne same]
      exact history.looked j earlier
  · rw [events]
    have absent : .publish i ∉ shelfEvents l := by
      rw [history.published i, unpublished]
      exact Bool.false_ne_true
    exact List.nodup_append.mpr ⟨history.once, List.nodup_singleton _, by
      intro a member b last
      rw [List.mem_singleton.mp last]
      exact fun same => absent (same ▸ member)⟩

theorem look {r : ReadRequest} {entry : Entry} (history : History c requests start dir l v)
    (session : requests i = .read r) (event : shelfEvent (i, exchange) = some (.look i))
    (unopened : (v i).entry = none) (opened : x.entry = some entry)
    (shows : c.shown dir r.filename = some (View.showing entry x.content))
    (published : x.published = (v i).published) :
    History c requests start dir (l ++ [(i, exchange)]) (Function.update v i x) := by
  have events : shelfEvents (l ++ [(i, exchange)]) = shelfEvents l ++ [.look i] := by
    rw [shelfEvents_concat, event, Option.toList_some]
  constructor
  · rw [events]
    obtain ⟨seen, run, views⟩ := history.run
    refine ⟨Function.update seen i (some (View.showing entry x.content)), run.concat ?_, ?_⟩
    · refine Shelf.Step.look (i := i) (s := ⟨c.shown dir, seen⟩) ?_ shows
      show (requests i).onShelf = _
      rw [session]
      rfl
    · intro j r' e session' owned
      by_cases same : j = i
      · subst same
        rw [Function.update_self] at owned ⊢
        rw [Function.update_self]
        cases opened.symm.trans owned
        rfl
      · rw [Function.update_of_ne same] at owned ⊢
        rw [Function.update_of_ne same]
        exact views j r' e session' owned
  · intro j
    rw [events]
    have earlier : .publish j ∈ shelfEvents l ++ [ShelfEvent.look i] ↔ (v j).published = true := by
      rw [← history.published j]
      simp
    rw [earlier]
    by_cases same : j = i
    · subst same
      rw [Function.update_self, published]
    · rw [Function.update_of_ne same]
  · intro j looked
    rw [events] at looked
    by_cases same : j = i
    · subst same
      rw [Function.update_self, opened]
      exact Option.some_ne_none _
    · rw [Function.update_of_ne same]
      apply history.looked j
      simpa [same] using looked
  · rw [events]
    have absent : .look i ∉ shelfEvents l := fun member => history.looked i member unopened
    exact List.nodup_append.mpr ⟨history.once, List.nodup_singleton _, by
      intro a member b last
      rw [List.mem_singleton.mp last]
      exact fun same => absent (same ▸ member)⟩

end History

end HistoryRules

/-! ## The coupling -/

/-- The views describe the disk, and the run so far is one of the shelf. -/
structure Coupled (c : LocalConnector) (requests : ι → LocalRequest) (start : Directory Text)
    (l : List (ι × Effect.Exchange LocalEffect)) (d : Disk) (v : ι → View) : Prop where
  handles : Handles d v
  stages : Stages c requests start d.dir v
  history : History c requests start d.dir l v

section CouplingRules

variable {c : LocalConnector} {requests : ι → LocalRequest} {start : Directory Text}
  {l : List (ι × Effect.Exchange LocalEffect)} {d d' : Disk} {v : ι → View} {i : ι} {x : View}
  {q : WriteRequest} {r : ReadRequest} {β : Type} {b : β}

namespace Coupled

/-- A call that changes nothing. -/
theorem still {exchange : Effect.Exchange LocalEffect} (coupled : Coupled c requests start l d v)
    (silent : shelfEvent (i, exchange) = none) :
    Coupled c requests start (l ++ [(i, exchange)]) d (Function.update v i (v i)) where
  handles := coupled.handles.congr rfl ⟨rfl, rfl, rfl, rfl⟩
  stages := coupled.stages.congr rfl rfl rfl rfl fun _ => rfl
  history := coupled.history.quiet silent rfl rfl id fun _ _ => ⟨rfl, rfl⟩

/-- A call that only concerns descriptors. -/
theorem redirect {exchange : Effect.Exchange LocalEffect} (coupled : Coupled c requests start l d v)
    (silent : shelfEvent (i, exchange) = none) (handles : Handles d' (Function.update v i x))
    (dir : d'.dir = d.dir) (entry : x.entry = (v i).entry) (content : x.content = (v i).content)
    (named : x.named = (v i).named) (published : x.published = (v i).published)
    (offset : x.entry = none → x.offset = (v i).offset) :
    Coupled c requests start (l ++ [(i, exchange)]) d' (Function.update v i x) where
  handles := handles
  stages := by
    rw [dir]
    exact coupled.stages.congr entry content named published offset
  history := by
    rw [dir]
    exact coupled.history.quiet silent rfl published (fun opened => by rwa [entry])
      fun _ _ => ⟨entry, content⟩

/-- A change of the own file, while it is staged. -/
theorem alter {exchange : Effect.Exchange LocalEffect} {n : Nat} {f : Node → Node}
    (coupled : Coupled c requests start l d v) (distinct : DistinctStages requests)
    (silent : shelfEvent (i, exchange) = none) (session : requests i = .write q)
    (owned : (v i).entry = some (.file n)) (entry : x.entry = (v i).entry)
    (named : x.named = (v i).named) (published : x.published = (v i).published)
    (content : x.content = (f (d.dir.nodes n)).content)
    (mine : x.content ≠ (v i).content → (v i).published = false)
    (same : x.descriptor = (v i).descriptor ∧ x.directory = (v i).directory ∧
      x.offset = (v i).offset) :
    Coupled c requests start (l ++ [(i, exchange)]) (d.withFiles (d.dir.modify n f))
      (Function.update v i x) := by
  have stored := (coupled.stages.stored i n owned).2
  have nodes : ∀ m, ((d.dir.modify n f).nodes m).content ≠ (d.dir.nodes m).content →
      Owner requests v i m ∧ (v i).published = false := by
    intro m differs
    by_cases own : m = n
    · subst own
      refine ⟨⟨⟨q, session⟩, owned⟩, mine ?_⟩
      rw [Directory.modify_nodes_self, ← content, stored] at differs
      exact differs
    · rw [Directory.modify_nodes_of_ne own] at differs
      exact absurd rfl differs
  have opened : (v i).entry ≠ none := by
    rw [owned]
    exact Option.some_ne_none _
  constructor
  · exact coupled.handles.congr rfl ⟨same.1, same.2.1, entry, same.2.2⟩
  · refine coupled.stages.advance distinct session opened entry rfl nodes ?_ ?_ ?_ ?_ ?_
    · intro m own
      cases owned.symm.trans own
      exact (congrArg Node.content Directory.modify_nodes_self).trans content.symm
    · rw [named, entry]
      exact coupled.stages.staged i q session opened
    · intro path _
      exact .inl rfl
    · rw [published]
      exact id
    · intro said
      rw [published] at said
      have whole := coupled.stages.whole i q session said
      refine ⟨whole.1, ?_⟩
      by_contra other
      have unpublished := mine fun same => other (same.trans whole.2)
      rw [said] at unpublished
      cases unpublished
  · apply coupled.history.quiet silent _ published (fun opened => by rwa [entry])
    · intro r reader
      cases session.symm.trans reader
    · exact coupled.stages.shown_same session (fun _ _ => rfl) fun m _ => nodes m

/-- The calls on a descriptor. -/
theorem file_step {op : FileCall β} (coupled : Coupled c requests start l d v)
    (distinct : DistinctStages requests) (may : ∃ b v', FileCall.onView op (v i) b v')
    (answer : FileCall.onDisk op d b d') : ∃ x, FileCall.onView op (v i) b x ∧
      Coupled c requests start (l ++ [(i, ⟨.inl op, b⟩)]) d' (Function.update v i x) := by
  -- Only a write session has a staging name.
  have writer : (v i).named = true → ∃ q, requests i = .write q := by
    intro named
    cases kind : requests i with
    | write q => exact ⟨q, rfl⟩
    | read r =>
      rw [(coupled.stages.reader i r kind).1] at named
      cases named
  cases op with
  | write descriptor data =>
    obtain ⟨-, -, mine, named, unpublished, -⟩ := may
    obtain ⟨q, session⟩ := writer named
    rcases answer with ⟨n, offset, count, opened, fits, some, rfl, rfl⟩ | ⟨failed, rfl⟩
    · obtain ⟨entry, owned, opened'⟩ := coupled.handles.refers i descriptor mine
      cases opened.symm.trans opened'
      have stored : (v i).content ++ data.take count = (d.dir.nodes n).content ++ data.take count := by
        rw [(coupled.stages.stored i n owned).2]
      exact ⟨_, ⟨mine, named, unpublished, .inl ⟨count, fits, some, rfl, rfl⟩⟩,
        coupled.alter (x := { v i with content := (v i).content ++ data.take count }) distinct rfl
          session owned rfl rfl rfl stored (fun _ => unpublished) ⟨rfl, rfl, rfl⟩⟩
    · exact ⟨v i, ⟨mine, named, unpublished, .inr ⟨failed, rfl⟩⟩, coupled.still rfl⟩
  | fsync descriptor =>
    obtain ⟨done, rfl⟩ := answer
    exact ⟨v i, ⟨done, rfl⟩, coupled.still rfl⟩
  | fileSize descriptor =>
    obtain ⟨-, -, mine, -⟩ := may
    obtain ⟨⟨n, offset, opened, rfl⟩ | failed, rfl⟩ := answer
    · obtain ⟨entry, owned, opened'⟩ := coupled.handles.refers i descriptor mine
      cases opened.symm.trans opened'
      refine ⟨v i, ⟨mine, .inl ?_, rfl⟩, coupled.still rfl⟩
      rw [(coupled.stages.stored i n owned).2]
    · exact ⟨v i, ⟨mine, .inr failed, rfl⟩, coupled.still rfl⟩
  | fchmod descriptor mode =>
    obtain ⟨-, -, mine, named, -⟩ := may
    obtain ⟨q, session⟩ := writer named
    rcases answer with ⟨n, offset, opened, rfl, rfl⟩ | ⟨failed, rfl⟩
    · obtain ⟨entry, owned, opened'⟩ := coupled.handles.refers i descriptor mine
      cases opened.symm.trans opened'
      have stored := (coupled.stages.stored i n owned).2.symm
      exact ⟨v i, ⟨mine, named, .inl rfl, rfl⟩, coupled.alter (x := v i) distinct rfl session owned
        rfl rfl rfl stored (fun other => absurd rfl other) ⟨rfl, rfl, rfl⟩⟩
    · exact ⟨v i, ⟨mine, named, .inr failed, rfl⟩, coupled.still rfl⟩
  | close descriptor =>
    obtain ⟨-, -, held, -⟩ := may
    have given_back : ∀ {b : Except Exc Unit}, Coupled c requests start
        (l ++ [(i, ⟨.inl (.close descriptor), b⟩)]) (d.detach descriptor)
        (Function.update v i ((v i).detach descriptor)) :=
      coupled.redirect rfl (coupled.handles.detach held) rfl rfl rfl rfl rfl fun _ => rfl
    rcases answer with ⟨rfl, rfl⟩ | ⟨failed, rfl | rfl⟩
    · exact ⟨_, ⟨held, .inl ⟨rfl, rfl⟩⟩, given_back⟩
    · exact ⟨v i, ⟨held, .inr ⟨failed, .inl rfl⟩⟩, coupled.still rfl⟩
    · exact ⟨_, ⟨held, .inr ⟨failed, .inr rfl⟩⟩, given_back⟩

/-- The staging name of a session that has not lost it leads to its file. -/
theorem owned (coupled : Coupled c requests start l d v) (session : requests i = .write q)
    (named : (v i).named = true) : (v i).entry ≠ none ∧ d.dir.entries (q.stage c) = (v i).entry := by
  have opened : (v i).entry ≠ none := by
    intro none
    rw [(coupled.stages.unopened i none).1] at named
    cases named
  refine ⟨opened, ?_⟩
  rw [coupled.stages.staged i q session opened, named]
  rfl

/-- The publication of a complete file. -/
theorem publish {exchange : Effect.Exchange LocalEffect} {dir' : Directory Text} {n : Nat} {named : Bool}
    (coupled : Coupled c requests start l d v) (distinct : DistinctStages requests)
    (event : shelfEvent (i, exchange) = some (.publish i)) (session : requests i = .write q)
    (ready : q.Ready (v i)) (found : d.dir.entries (q.stage c) = some (.file n))
    (solid : d.dir.entries (q.destination c) ≠ some .directory)
    (exclusive : q.overwrite = false → d.dir.entries (q.destination c) = none)
    (nodes : dir'.nodes = d.dir.nodes) (next : dir'.next = d.dir.next)
    (destination : dir'.entries (q.destination c) = some (.file n))
    (stage : dir'.entries (q.stage c) = if named then some (.file n) else none)
    (others : ∀ path, path ≠ q.stage c → path ≠ q.destination c →
      dir'.entries path = d.dir.entries path) :
    Coupled c requests start (l ++ [(i, exchange)]) (d.withFiles dir')
      (Function.update v i { v i with named, published := true }) := by
  obtain ⟨accepted, staged, unpublished, whole⟩ := ready
  obtain ⟨opened, entries⟩ := coupled.owned session staged
  have owned : (v i).entry = some (.file n) := entries.symm.trans found
  have content := (coupled.stages.stored i n owned).2.trans whole
  have shown : c.shown d.dir q.filename = (d.dir.entries (q.destination c)).map (revealed d.dir) :=
    if_pos accepted.visible
  constructor
  · exact coupled.handles.congr rfl ⟨rfl, rfl, rfl, rfl⟩
  · refine coupled.stages.advance distinct session opened rfl next ?_ ?_ ?_ ?_ ?_ ?_
    · intro m differs
      exact absurd (congrArg (fun nodes => (nodes m).content) nodes) differs
    · intro m own
      cases owned.symm.trans own
      exact (congrArg (fun nodes => (nodes n).content) nodes).trans
        (coupled.stages.stored i n owned).2
    · rw [← owned] at stage
      exact stage
    · intro path apart
      by_cases place : path = q.destination c
      · subst place
        exact .inr ⟨rfl, rfl, destination.trans owned.symm⟩
      · exact .inl (others path apart place)
    · exact fun _ => rfl
    · exact fun _ => ⟨accepted, whole⟩
  · refine coupled.history.publish session event unpublished ?_ ?_ ?_ ?_ ?_
    · exact shown_publish accepted others destination nodes content
    · rw [shown]
      cases there : d.dir.entries (q.destination c) with
      | none => exact fun impossible => by cases impossible
      | some e =>
        cases e with
        | file m => exact fun impossible => by cases impossible
        | directory => exact absurd there solid
    · intro chosen
      rw [shown, exclusive chosen]
      rfl
    · rfl
    · exact fun opened => opened

/-- The other calls of a write session. -/
theorem write_step {op : DiskCall β} (coupled : Coupled c requests start l d v)
    (distinct : DistinctStages requests) (session : requests i = .write q)
    (may : ∃ b v', q.alone c op (v i) b v') (answer : DiskCall.sem op d b d') :
    ∃ x, q.alone c op (v i) b x ∧
      Coupled c requests start (l ++ [(i, ⟨.inr op, b⟩)]) d' (Function.update v i x) := by
  cases op with
  | resolve path =>
    obtain ⟨done, rfl⟩ := answer
    exact ⟨v i, ⟨done, rfl⟩, coupled.still rfl⟩
  | isDirectory path =>
    obtain ⟨done, rfl⟩ := answer
    exact ⟨v i, ⟨done, rfl⟩, coupled.still rfl⟩
  | stat path =>
    obtain ⟨⟨entry, mode, -, -, rfl⟩ | failed, rfl⟩ := answer
    · exact ⟨v i, ⟨.inl ⟨mode, rfl⟩, rfl⟩, coupled.still rfl⟩
    · exact ⟨v i, ⟨.inr failed, rfl⟩, coupled.still rfl⟩
  | openNew path mode =>
    obtain ⟨-, -, rfl, unopened, -⟩ := may
    rcases answer with ⟨descriptor, absent, free, rfl, rfl⟩ | ⟨failed, rfl⟩
    · refine ⟨_, ⟨rfl, unopened, .inl ⟨descriptor, d.dir.next, rfl, rfl⟩⟩, ?_, ?_, ?_⟩
      · refine coupled.handles.attach free rfl ?_ ?_
        · intro other held
          rcases held with attached | directory
          · exact .inl (Option.some.inj attached).symm
          · exact .inr (.inr directory)
        · intro other attached
          cases attached
          refine ⟨_, rfl, ?_⟩
          show _ = some (Descriptor.mk _ (v i).offset)
          rw [(coupled.stages.unopened i unopened).2.2.2]
          exact Function.update_self ..
      · exact coupled.stages.create distinct session unopened rfl rfl rfl rfl
      · refine coupled.history.quiet rfl (coupled.stages.shown_same session ?_ ?_) rfl ?_ ?_
        · intro path apart
          exact Directory.create_entries_of_ne apart
        · intro n old differs
          exact absurd (congrArg Node.content (Directory.create_nodes_of_lt old)) differs
        · intro opened
          exact absurd unopened opened
        · intro r reader
          cases session.symm.trans reader
    · exact ⟨v i, ⟨rfl, unopened, .inr ⟨failed, rfl⟩⟩, coupled.still rfl⟩
  | openRead path =>
    obtain ⟨-, -, ⟨⟩⟩ := may
  | openDirectory path =>
    obtain ⟨-, -, undirected, -⟩ := may
    rcases answer with ⟨descriptor, free, rfl, rfl⟩ | ⟨failed, rfl⟩
    · refine ⟨_, ⟨undirected, .inl ⟨descriptor, rfl, rfl⟩⟩, ?_⟩
      refine coupled.redirect rfl ?_ rfl rfl rfl rfl rfl fun _ => rfl
      refine coupled.handles.attach free rfl ?_ ?_
      · intro other held
        rcases held with attached | directory
        · exact .inr (.inl attached)
        · exact .inl (Option.some.inj directory).symm
      · intro other attached
        obtain ⟨entry, opened, refers⟩ := coupled.handles.refers i other attached
        refine ⟨entry, opened, ?_⟩
        rw [Disk.attach]
        dsimp only
        rw [Function.update_of_ne]
        · exact refers
        · intro same
          rw [same, free] at refers
          cases refers
    · exact ⟨v i, ⟨undirected, .inr ⟨failed, rfl⟩⟩, coupled.still rfl⟩
  | fstat descriptor =>
    obtain ⟨-, -, ⟨⟩⟩ := may
  | setBlocking descriptor =>
    obtain ⟨-, -, ⟨⟩⟩ := may
  | read descriptor size =>
    obtain ⟨-, -, ⟨⟩⟩ := may
  | replace source target =>
    obtain ⟨-, -, ⟨rfl, rfl, chosen, ready⟩, -⟩ := may
    rcases answer with ⟨n, found, solid, rfl, rfl⟩ | ⟨failed, rfl⟩
    · refine ⟨_, ⟨⟨rfl, rfl, chosen, ready⟩, .inl ⟨rfl, rfl⟩⟩, ?_⟩
      obtain ⟨-, entries⟩ := coupled.owned session ready.2.1
      have owned : (v i).entry = some (.file n) := entries.symm.trans found
      have apart : q.destination c ≠ q.stage c := visible_ne_stage ready.1.visible
      have other : d.dir.entries (q.destination c) ≠ some (.file n) := fun same =>
        coupled.stages.hidden session owned ready.2.2.1 (coupled.stages.settled ready.1.visible same)
      rw [if_neg other]
      exact coupled.publish distinct rfl session ready found solid
        (fun unchosen => by rw [chosen] at unchosen; cases unchosen) Directory.rename_nodes
        Directory.rename_next (Directory.rename_entries_new.trans found)
        (Directory.rename_entries_old apart.symm)
        fun path left right => Directory.rename_entries_of_ne left right
    · obtain ⟨e, isOSError, rfl⟩ := failed
      exact ⟨v i, ⟨⟨rfl, rfl, chosen, ready⟩, .inr ⟨osFails_error isOSError, rfl⟩⟩, coupled.still rfl⟩
  | link source target =>
    obtain ⟨-, -, ⟨rfl, rfl, chosen, ready⟩, -⟩ := may
    rcases answer with ⟨n, found, absent, rfl, rfl⟩ | ⟨failed, rfl⟩
    · refine ⟨_, ⟨⟨rfl, rfl, chosen, ready⟩, .inl ⟨rfl, rfl⟩⟩, ?_⟩
      have apart : q.destination c ≠ q.stage c := visible_ne_stage ready.1.visible
      refine coupled.publish distinct rfl session ready found ?_ (fun _ => absent)
        Directory.link_nodes Directory.link_next (Directory.link_entries_new.trans found) ?_
        fun path _ right => Directory.link_entries_of_ne right
      · rw [absent]
        exact fun impossible => by cases impossible
      · rw [Directory.link_entries_of_ne apart.symm, found, ready.2.1]
        rfl
    · obtain ⟨e, isOSError, rfl⟩ := failed
      exact ⟨v i, ⟨⟨rfl, rfl, chosen, ready⟩, .inr ⟨osFails_error isOSError, rfl⟩⟩, coupled.still rfl⟩
  | unlink path =>
    obtain ⟨-, -, rfl, opened, -⟩ := may
    rcases answer with ⟨n, found, rfl, rfl⟩ | ⟨failed, rfl⟩
    · refine ⟨_, ⟨rfl, opened, .inl ⟨rfl, rfl⟩⟩, ?_, ?_, ?_⟩
      · exact coupled.handles.congr rfl ⟨rfl, rfl, rfl, rfl⟩
      · refine coupled.stages.advance distinct session opened rfl rfl ?_ ?_ ?_ ?_ ?_ ?_
        · exact fun m differs => absurd rfl differs
        · exact fun m own => (coupled.stages.stored i m own).2
        · exact Directory.unlink_entries_self
        · exact fun path apart => .inl (Directory.unlink_entries_of_ne apart)
        · exact id
        · exact coupled.stages.whole i q session
      · refine coupled.history.quiet rfl (coupled.stages.shown_same session ?_ ?_) rfl id ?_
        · exact fun path apart => Directory.unlink_entries_of_ne apart
        · exact fun m _ differs => absurd rfl differs
        · intro r reader
          cases session.symm.trans reader
    · exact ⟨v i, ⟨rfl, opened, .inr ⟨failed, rfl⟩⟩, coupled.still rfl⟩

/-- The other calls of a read session. -/
theorem read_step {op : DiskCall β} (coupled : Coupled c requests start l d v)
    (session : requests i = .read r) (may : ∃ b v', r.alone c op (v i) b v')
    (answer : DiskCall.sem op d b d') : ∃ x, r.alone c op (v i) b x ∧
      Coupled c requests start (l ++ [(i, ⟨.inr op, b⟩)]) d' (Function.update v i x) := by
  cases op with
  | resolve path =>
    obtain ⟨done, rfl⟩ := answer
    exact ⟨v i, ⟨done, rfl⟩, coupled.still rfl⟩
  | isDirectory path =>
    obtain ⟨done, rfl⟩ := answer
    exact ⟨v i, ⟨done, rfl⟩, coupled.still rfl⟩
  | openRead path =>
    obtain ⟨-, -, ⟨rfl, accepted, unopened⟩, -⟩ := may
    rcases answer with ⟨descriptor, entry, found, free, rfl, rfl⟩ | ⟨failed, rfl⟩
    · -- The view takes over what the file holds now.
      have content : ∃ content, ∀ n, entry = .file n → content = (d.dir.nodes n).content := by
        cases entry with
        | file n =>
          refine ⟨(d.dir.nodes n).content, fun m same => ?_⟩
          cases same
          rfl
        | directory => exact ⟨[], fun m same => by cases same⟩
      obtain ⟨content, holds⟩ := content
      refine ⟨_, ⟨⟨rfl, accepted, unopened⟩, .inl ⟨descriptor, entry, content, rfl, rfl⟩⟩, ?_, ?_, ?_⟩
      · refine coupled.handles.attach free rfl ?_ ?_
        · intro other held
          rcases held with attached | directory
          · exact .inl (Option.some.inj attached).symm
          · exact .inr (.inr directory)
        · intro other attached
          cases attached
          refine ⟨_, rfl, ?_⟩
          show _ = some (Descriptor.mk _ (v i).offset)
          rw [(coupled.stages.unopened i unopened).2.2.2]
          exact Function.update_self ..
      · exact coupled.stages.look session accepted.visible found rfl holds rfl rfl
      · refine coupled.history.look session rfl unopened rfl ?_ rfl
        rw [LocalConnector.shown, if_pos accepted.visible]
        rw [ReadRequest.path] at found
        rw [found, Option.map_some]
        cases entry with
        | file n =>
          rw [revealed, ← holds n rfl]
          rfl
        | directory => rfl
    · obtain ⟨e, isOSError, rfl⟩ := failed
      exact ⟨v i, ⟨⟨rfl, accepted, unopened⟩, .inr ⟨osFails_error isOSError, rfl⟩⟩, coupled.still rfl⟩
  | fstat descriptor =>
    obtain ⟨-, -, mine, -⟩ := may
    obtain ⟨⟨entry, offset, mode, size, opened, hasMode, hasSize, rfl⟩ | failed, rfl⟩ := answer
    · obtain ⟨entry', owned, opened'⟩ := coupled.handles.refers i descriptor mine
      cases opened.symm.trans opened'
      refine ⟨v i, ⟨mine, rfl, .inl ⟨mode, size, rfl, ?_⟩⟩, coupled.still rfl⟩
      intro regular
      cases entry with
      | file n =>
        exact ⟨⟨n, owned⟩, by rw [← (coupled.stages.stored i n owned).2]; exact hasSize⟩
      | directory =>
        have other : isRegular mode = false := hasMode
        rw [regular] at other
        cases other
    · exact ⟨v i, ⟨mine, rfl, .inr failed⟩, coupled.still rfl⟩
  | setBlocking descriptor =>
    obtain ⟨done, rfl⟩ := answer
    exact ⟨v i, ⟨done, rfl⟩, coupled.still rfl⟩
  | read descriptor size =>
    obtain ⟨-, -, mine, -⟩ := may
    rcases answer with ⟨n, offset, count, opened, fits, last, rfl, rfl⟩ | ⟨failed, rfl⟩
    · obtain ⟨entry, owned, opened'⟩ := coupled.handles.refers i descriptor mine
      cases opened.symm.trans opened'
      rw [(coupled.stages.stored i n owned).2] at fits last ⊢
      refine ⟨_, ⟨mine, .inl ⟨count, fits, last, rfl, rfl⟩⟩, ?_⟩
      refine coupled.redirect rfl (coupled.handles.seek mine owned) rfl rfl rfl rfl rfl ?_
      intro none
      exact absurd (owned.symm.trans none) (Option.some_ne_none _)
    · exact ⟨v i, ⟨mine, .inr ⟨failed, rfl⟩⟩, coupled.still rfl⟩
  | stat path =>
    obtain ⟨-, -, ⟨⟩⟩ := may
  | openNew path mode =>
    obtain ⟨-, -, ⟨⟩⟩ := may
  | openDirectory path =>
    obtain ⟨-, -, ⟨⟩⟩ := may
  | replace source target =>
    obtain ⟨-, -, ⟨⟩⟩ := may
  | link source target =>
    obtain ⟨-, -, ⟨⟩⟩ := may
  | unlink path =>
    obtain ⟨-, -, ⟨⟩⟩ := may

end Coupled

end CouplingRules

end DataBridge
