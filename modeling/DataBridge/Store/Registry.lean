import DataBridge.Connections.Registry
import DataBridge.Effect.Simulation
import DataBridge.Store.FirstStart
import DataBridge.Store.Lifecycle

/-!
# The store refines the registry

The rows of `connections` stand for the connections of a registry (`Represents`).
Each call answers what the registry answers, or raises an exception of SQLite and
changes nothing; transfers and restarts do not touch the rows. `store_refines` is
about every run from a represented file.
-/

namespace DataBridge

open Effect Routine Sqlite Json

/-- What SQLite may raise at a statement that keeps the constraints. -/
def disturbance (e : Exc) : Prop := ∃ name, e = .sqlite name ∧ ¬ lit "SQLITE_CONSTRAINT" <+: name

section Rows

variable {Φ : Type} (rt : Runtime Φ) (cipher : Fernet)

/-! ## What is written can be read -/

theorem Connection.Prepared.named {c : Connection} (prepared : c.Prepared) :
    connectionName c.name = .ok c.name := by
  cases c with
  | «local» c => exact prepared.1
  | sftp c => exact prepared.1

theorem decimal_port {n : Nat} (range : n ≤ 65535) : (decimal n).length ≤ intMaxDigits := by
  have short : (decimal n).length ≤ 5 := by
    rw [decimal_eq_numeral]
    exact length_numeral_le (by decide) (by decide) (by omega)
  exact short.trans (by decide)

theorem storable_settings {c : Connection} (prepared : c.Prepared) :
    Storable rt.float 1 (.object c.settings) := by
  cases c with
  | «local» c =>
    apply Writes.object
    · exact List.nodup_singleton _
    · intro member inside
      rw [List.mem_singleton.mp inside]
      exact unjoined_key rfl
    · intro member inside
      rw [List.mem_singleton.mp inside]
      exact .string prepared.2
  | sftp c =>
    obtain ⟨-, hosted, range, used, -, rooted⟩ := prepared
    apply Writes.object
    · change [lit "host", lit "port", lit "username", lit "root"].Nodup
      decide
    · intro member inside
      simp only [Connection.settings, List.mem_cons, List.not_mem_nil, or_false] at inside
      rcases inside with rfl | rfl | rfl | rfl
      · exact unjoined_key rfl
      · exact unjoined_key rfl
      · exact unjoined_key rfl
      · exact unjoined_key rfl
    · intro member inside
      simp only [Connection.settings, List.mem_cons, List.not_mem_nil, or_false] at inside
      rcases inside with rfl | rfl | rfl | rfl
      · exact .string (unjoined_of_plain (plain_of_hostName hosted))
      · exact storable_nat rt.float (decimal_port range.2)
      · exact .string (unjoined_of_plain (plain_of_settingText used))
      · exact .string (unjoined_of_plain (plain_of_settingText rooted))

theorem storable_secrets {c : Connection} (prepared : c.Prepared) :
    Storable rt.float 1 (.object c.secrets) := by
  cases c with
  | «local» c =>
    apply Writes.object
    · exact List.nodup_nil
    · exact List.forall_mem_nil _
    · exact List.forall_mem_nil _
  | sftp c =>
    apply Writes.object
    · exact List.nodup_singleton _
    · intro member inside
      rw [List.mem_singleton.mp inside]
      exact unjoined_key rfl
    · intro member inside
      rw [List.mem_singleton.mp inside]
      exact .string (unjoined_of_plain (plain_of_secret prepared.2.2.2.2.1))

/-- The token of the secrets. -/
def secretsToken (nonce : Nat) : Fields Φ → Option Text
  | [] => none
  | secret :: secrets =>
    some (byteText (cipher.encrypt nonce (asciiBytes (jsonDumps rt.float (.object (secret :: secrets))))))

theorem encryptSecrets_eq {nonce : Nat} {secrets : Fields Φ}
    (storable : Storable rt.float 1 (.object secrets)) :
    encryptSecrets rt cipher nonce secrets = .ok (secretsToken rt cipher nonce secrets) := by
  cases secrets with
  | nil => rfl
  | cons secret secrets =>
    obtain ⟨encoded, -⟩ := @loadsBytes_encode _ _ rt.codecs _ _ _ storable rt.stack_pos
    have ascii : (cipher.encrypt nonce (asciiBytes (jsonDumps rt.float (.object (secret :: secrets))))).all
        (· < 128) = true := List.all_eq_true.mpr fun b member => decide_eq_true (cipher.ascii _ _ b member)
    rw [encryptSecrets, encoded]
    change (decodeAscii _ >>= fun token => Except.ok (some token)) = _
    rw [decodeAscii, if_pos ascii]
    rfl

/-- What `_columns` makes. -/
def rowOf (nonce : Nat) (c : Connection) : ConnectionRow where
  name := c.name
  type := c.kind.text
  settingsJson := jsonDumps rt.float (.object c.settings)
  secretsCiphertext := secretsToken rt cipher nonce c.secrets

theorem columns_eq {nonce : Nat} {c : Connection} (prepared : c.Prepared) :
    columns rt cipher nonce c = .ok (rowOf rt cipher nonce c) := by
  rw [columns, encryptSecrets_eq rt cipher (storable_secrets rt prepared)]
  rfl

theorem jsonLoads_settings {nonce : Nat} {c : Connection} (prepared : c.Prepared) :
    jsonLoads rt.float rt.stack (rowOf rt cipher nonce c).settingsJson = .ok (.object c.settings) :=
  jsonLoads_jsonDumps rt.float (storable_settings rt prepared) rt.stack_pos

theorem decryptSecrets_rowOf {nonce : Nat} {c : Connection} (prepared : c.Prepared) :
    decryptSecrets rt cipher (rowOf rt cipher nonce c) = .ok (.object c.secrets) := by
  have storable := storable_secrets rt prepared
  unfold rowOf
  generalize (c.secrets : Fields Φ) = secrets at storable ⊢
  cases secrets with
  | nil => rfl
  | cons secret secrets =>
    obtain ⟨-, loaded⟩ := @loadsBytes_encode _ _ rt.codecs _ _ _ storable rt.stack_pos
    have ascii : ∀ b ∈ cipher.encrypt nonce (asciiBytes (jsonDumps rt.float (.object (secret :: secrets)))),
        b < 128 := cipher.ascii _ _
    have small : ∀ c ∈ byteText (cipher.encrypt nonce
        (asciiBytes (jsonDumps rt.float (.object (secret :: secrets))))), c.val < 128 := by
      intro c member
      obtain ⟨b, inside, rfl⟩ := List.mem_map.mp member
      have range := UInt8.lt_iff_toNat_lt.mp (ascii b inside)
      rw [pointOf_small (range.trans (by decide))]
      exact range
    rw [decryptSecrets, secretsToken]
    dsimp only
    rw [encode_ascii small, asciiBytes_byteText]
    dsimp only [bind, Except.bind]
    rw [cipher.decrypt_encrypt]
    exact loaded

theorem connectionModels_text (kind : ConnectionType) : connectionModels kind.text = .ok kind := by
  cases kind with
  | «local» => rfl
  | sftp => rfl

theorem nodup_fields (c : Connection) : (Dict.keys (c.fields (Φ := Φ))).Nodup := by
  cases c with
  | «local» c =>
    change [lit "name", lit "type", lit "path"].Nodup
    decide
  | sftp c =>
    change [lit "name", lit "type", lit "host", lit "port", lit "username", lit "root",
      lit "password"].Nodup
    decide

theorem nodup_public (c : Connection) : (Dict.keys (c.head (Φ := Φ) ++ c.settings)).Nodup := by
  have all := nodup_fields (Φ := Φ) c
  rw [Connection.fields, ← List.append_assoc, Dict.keys, List.map_append] at all
  exact (List.nodup_append.mp all).1

/-- The row of a connection is read as the connection that validation makes of it. -/
theorem rowConnection_rowOf {nonce : Nat} {c : Connection} (prepared : c.Prepared) :
    rowConnection rt cipher c.name (rowOf rt cipher nonce c) =
      if c.Valid then .ok c else .error .validation := by
  have fields : Dict.ofItems (c.head ++ c.settings ++ c.secrets) = c.fields (Φ := Φ) := by
    rw [List.append_assoc]
    exact Dict.ofItems_of_nodup (nodup_fields c)
  have read : rowConnection rt cipher c.name (rowOf rt cipher nonce c) =
      validateInput rt.int c.kind (Dict.ofItems (c.head ++ c.settings ++ c.secrets)) := by
    rw [rowConnection, decryptSecrets_rowOf rt cipher prepared,
      jsonLoads_settings rt cipher prepared]
    change (connectionModels c.kind.text >>= _) = _
    rw [connectionModels_text]
    rfl
  rw [read, fields]
  split_ifs with valid
  · exact validateInput_fields rt.int valid
  · cases c with
    | «local» c => exact validateInput_refused rt.int valid
    | sftp c => exact absurd prepared valid

/-- The view of a connection, from its settings as they were dumped. -/
theorem view_settings (c : Connection) :
    view rt c.name c.kind.text (.object c.settings) = .ok c.view := by
  rw [view, connectionModels_text]
  change validateView rt.int c.kind (Dict.ofItems (c.head ++ c.settings)) = _
  rw [Dict.ofItems_of_nodup (nodup_public c), validateView_public]

theorem rowView_rowOf {nonce : Nat} {c : Connection} (prepared : c.Prepared) :
    rowView rt (rowOf rt cipher nonce c) = .ok c.view := by
  rw [rowView, jsonLoads_settings rt cipher prepared]
  exact view_settings rt c

/-! ## The relation -/

/-- Rows of connections, by name. -/
def connectionRows : Keyed.Encoding ConnectionRow Connection Text where
  rowKey := ConnectionRow.name
  key := Connection.name
  Stands row c := c.Prepared ∧ ∃ nonce, row = rowOf rt cipher nonce c
  keyed := by
    intro row c stands
    obtain ⟨-, nonce, rfl⟩ := stands
    rfl

/-- The rows of the file stand for the connections of the registry. -/
def Represents (db : Database) (r : Registry) : Prop :=
  ∃ t, db.connections = some t ∧ Keyed.Table (connectionRows rt cipher) t.rows r.connections

/-- A first start leaves an empty registry. -/
theorem represents_made (nonce : Nat) : Represents rt cipher (made cipher nonce) .empty :=
  ⟨⟨[], List.nodup_nil⟩, rfl, .nil⟩

variable {rt cipher} {db db' : Database} {r : Registry}

theorem Represents.of_connections (represents : Represents rt cipher db r)
    (same : db'.connections = db.connections) : Represents rt cipher db' r := by
  obtain ⟨t, found, table⟩ := represents
  exact ⟨t, same.trans found, table⟩

end Rows

/-! ## Statements on a represented file -/

section Statements

variable {Φ : Type} {rt : Runtime Φ} {cipher : Fernet} {db : Database} {r : Registry}

theorem bindParameters_plain {texts : List Text} (plain : ∀ text ∈ texts, Text.Plain text) :
    bindParameters texts = .ok () := by
  have none : ¬ (texts.any fun text => text.any CodePoint.isSurrogate) = true := by
    intro some
    obtain ⟨text, member, some⟩ := List.any_eq_true.mp some
    obtain ⟨c, inside, surrogate⟩ := List.any_eq_true.mp some
    rw [plain text member c inside] at surrogate
    cases surrogate
  rw [bindParameters, if_neg none]
  rfl

theorem plain_of_small {text : Text} (small : ∀ c ∈ text, c.val < 0xD800) : text.Plain :=
  fun c member => not_isSurrogate_of_lt (small c member)

theorem plain_of_printable {text : Text} (printable : Printable text) : text.Plain := by
  apply plain_of_small
  intro c member
  have range := printable c member
  omega

theorem plain_name {c : Connection} (prepared : c.Prepared) : c.name.Plain := by
  apply plain_of_small
  intro d member
  have small := small_of_connectionName prepared.named member
  omega

/-- Every text of a row can be bound. -/
theorem plain_rowOf (rt : Runtime Φ) (cipher : Fernet) {c : Connection} (prepared : c.Prepared)
    (nonce : Nat) :
    (rowOf rt cipher nonce c).name.Plain ∧ (rowOf rt cipher nonce c).type.Plain ∧
      (rowOf rt cipher nonce c).settingsJson.Plain ∧
      ∀ text ∈ (rowOf rt cipher nonce c).secretsCiphertext.toList, Text.Plain text := by
  refine ⟨plain_name prepared, ?_, ?_, ?_⟩
  · cases c with
    | «local» c =>
      change Text.Plain (lit "local")
      exact plain_of_printable (printable_of_all rfl)
    | sftp c =>
      change Text.Plain (lit "sftp")
      exact plain_of_printable (printable_of_all rfl)
  · exact plain_of_printable (printable_jsonDumps rt.float (storable_settings rt prepared))
  · intro text member
    have token : secretsToken rt cipher nonce (c.secrets (Φ := Φ)) = some text :=
      Option.mem_toList.mp member
    generalize (c.secrets : Fields Φ) = secrets at token
    cases secrets with
    | nil => cases token
    | cons secret secrets =>
      cases token
      apply plain_of_small
      intro d inside
      obtain ⟨b, _, rfl⟩ := List.mem_map.mp inside
      have small := b.toNat_lt
      rw [pointOf_small (by omega)]
      omega

variable {c : Connection} {name : Text}

theorem Represents.names {t : ConnectionTable} (table : Keyed.Table (connectionRows rt cipher) t.rows
    r.connections) : t.rows.map ConnectionRow.name = r.names := table.keys

/-- INSERT on a represented file. -/
theorem Represents.insert (represents : Represents rt cipher db r) (prepared : c.Prepared)
    (nonce : Nat) :
    (∃ fresh : c.name ∉ r.names, ∃ db₁, Represents rt cipher db₁ (r.insert c fresh) ∧
      db.insertConnection (rowOf rt cipher nonce c) = .ok (db₁, 1)) ∨
    (c.name ∈ r.names ∧ db.insertConnection (rowOf rt cipher nonce c) =
      .error (sqliteError "SQLITE_CONSTRAINT_PRIMARYKEY")) := by
  obtain ⟨t, found, table⟩ := represents
  obtain ⟨named, kind, settings, secrets⟩ := plain_rowOf rt cipher prepared nonce
  have bound : bindParameters ([(rowOf rt cipher nonce c).name, (rowOf rt cipher nonce c).type,
      (rowOf rt cipher nonce c).settingsJson] ++
        (rowOf rt cipher nonce c).secretsCiphertext.toList) = .ok () := by
    apply bindParameters_plain
    intro text member
    rcases List.mem_append.mp member with member | member
    · simp only [List.mem_cons, List.not_mem_nil, or_false] at member
      rcases member with rfl | rfl | rfl
      · exact named
      · exact kind
      · exact settings
    · exact secrets text member
  have names := Represents.names table
  rw [Database.insertConnection, bound]
  dsimp only [bind, Except.bind]
  rw [found]
  dsimp only
  by_cases fresh : c.name ∉ r.names
  · have fresh' : (rowOf rt cipher nonce c).name ∉ t.rows.map ConnectionRow.name := by
      rw [names]
      exact fresh
    refine .inl ⟨fresh, { db with connections := some (t.insert _ fresh') }, ?_, ?_⟩
    · exact ⟨_, rfl, table.append ⟨prepared, nonce, rfl⟩⟩
    · rw [dif_pos fresh']
  · refine .inr ⟨Decidable.not_not.mp fresh, ?_⟩
    rw [dif_neg]
    rw [names]
    exact fresh

theorem Registry.replace_absent (absent : c.name ∉ r.names) :
    (r.replace c).connections = r.connections := by
  refine (List.map_congr_left fun old member => ?_).trans (List.map_id r.connections)
  rw [if_neg, id]
  intro same
  exact absent (same ▸ List.mem_map_of_mem member)

theorem Registry.remove_absent (absent : name ∉ r.names) :
    (r.remove name).connections = r.connections := by
  apply List.filter_eq_self.mpr
  intro old member
  rw [decide_eq_true_eq]
  intro same
  exact absent (same ▸ List.mem_map_of_mem member)

theorem Represents.of_registry {r' : Registry} (represents : Represents rt cipher db r)
    (same : r'.connections = r.connections) : Represents rt cipher db r' := by
  obtain ⟨t, found, table⟩ := represents
  exact ⟨t, found, same ▸ table⟩

/-- How many rows a WHERE name = ? selects. -/
theorem Represents.count {t : ConnectionTable}
    (table : Keyed.Table (connectionRows rt cipher) t.rows r.connections) (name : Text) :
    t.rows.countP (·.name = name) = if name ∈ r.names then 1 else 0 := by
  have rows := (table.count name).trans (Keyed.countP_of_nodup r.distinct name)
  by_cases member : name ∈ r.names
  · rw [if_pos member]
    exact rows.trans (if_pos member)
  · rw [if_neg member]
    exact rows.trans (if_neg member)

/-- UPDATE on a represented file. -/
theorem Represents.update (represents : Represents rt cipher db r) (prepared : c.Prepared)
    (nonce : Nat) :
    ∃ db₁, Represents rt cipher db₁ (r.replace c) ∧
      db.updateConnection (rowOf rt cipher nonce c) =
        .ok (db₁, if c.name ∈ r.names then 1 else 0) := by
  obtain ⟨t, found, table⟩ := represents
  obtain ⟨named, kind, settings, secrets⟩ := plain_rowOf rt cipher prepared nonce
  have bound : bindParameters ([(rowOf rt cipher nonce c).type,
      (rowOf rt cipher nonce c).settingsJson] ++
        (rowOf rt cipher nonce c).secretsCiphertext.toList ++ [(rowOf rt cipher nonce c).name]) =
      .ok () := by
    apply bindParameters_plain
    intro text member
    rcases List.mem_append.mp member with member | member
    · rcases List.mem_append.mp member with member | member
      · simp only [List.mem_cons, List.not_mem_nil, or_false] at member
        rcases member with rfl | rfl
        · exact kind
        · exact settings
      · exact secrets text member
    · rw [List.mem_singleton.mp member]
      exact named
  refine ⟨{ db with connections := some (t.update (rowOf rt cipher nonce c)) }, ⟨_, rfl, ?_⟩, ?_⟩
  · apply table.replace
    intro row old stands same
    have key : row.name = old.name := (connectionRows rt cipher).keyed stands
    refine ⟨prepared, nonce, ?_⟩
    rw [key]
    change { rowOf rt cipher nonce c with name := old.name } = rowOf rt cipher nonce c
    rw [show old.name = c.name from same]
    rfl
  · rw [Database.updateConnection, bound]
    dsimp only [bind, Except.bind]
    rw [found]
    dsimp only
    rw [Represents.count table]
    rfl

/-- DELETE on a represented file. -/
theorem Represents.delete (represents : Represents rt cipher db r) (plain : name.Plain) :
    ∃ db₁, Represents rt cipher db₁ (r.remove name) ∧
      db.deleteConnection name = .ok (db₁, if name ∈ r.names then 1 else 0) := by
  obtain ⟨t, found, table⟩ := represents
  have bound : bindParameters [name] = .ok () := by
    apply bindParameters_plain
    intro text member
    rw [List.mem_singleton.mp member]
    exact plain
  refine ⟨{ db with connections := some (t.delete name) }, ⟨_, rfl, table.remove name⟩, ?_⟩
  rw [Database.deleteConnection, bound]
  dsimp only [bind, Except.bind]
  rw [found]
  dsimp only
  rw [Represents.count table]

/-- SELECT by name on a represented file. -/
theorem Represents.select (represents : Represents rt cipher db r) (plain : name.Plain) :
    (r.find name = none ∧ db.selectConnection name = .ok none) ∨
      ∃ c nonce, r.find name = some c ∧ c.Prepared ∧ c.name = name ∧
        db.selectConnection name = .ok (some (rowOf rt cipher nonce c)) := by
  obtain ⟨t, found, table⟩ := represents
  have bound : bindParameters [name] = .ok () := by
    apply bindParameters_plain
    intro text member
    rw [List.mem_singleton.mp member]
    exact plain
  rw [Database.selectConnection, bound]
  dsimp only [bind, Except.bind]
  rw [found]
  dsimp only
  rcases table.find name with ⟨noRow, none⟩ | ⟨row, c, row', found', prepared, nonce, rfl⟩
  · exact .inl ⟨none, congrArg Except.ok noRow⟩
  · have hit := List.find?_some found'
    have named : c.name = name := of_decide_eq_true hit
    exact .inr ⟨c, nonce, found', prepared, named, congrArg Except.ok row'⟩

/-- SELECT of all rows on a represented file. -/
theorem Represents.selectAll (represents : Represents rt cipher db r) :
    ∃ rows, db.selectConnections = .ok rows ∧
      Keyed.Table (connectionRows rt cipher) rows r.listed := by
  obtain ⟨t, found, table⟩ := represents
  rw [Database.selectConnections, found]
  exact ⟨_, rfl, table.sorted⟩

/-- The views of rows that stand for connections. -/
theorem rowViews {rows : List ConnectionRow} {connections : List Connection}
    (table : Keyed.Table (connectionRows rt cipher) rows connections) :
    rows.mapM (rowView rt) = .ok (connections.map Connection.view) := by
  induction table with
  | nil => rfl
  | @cons row c rows connections stands _ ih =>
    obtain ⟨prepared, nonce, rfl⟩ := stands
    rw [List.mapM_cons, rowView_rowOf rt cipher prepared, ih]
    rfl

end Statements

/-! ## Calls -/

/-- The routine behind a call. -/
def ConnectionCall.routine {Φ : Type} (rt : Runtime Φ) (cipher : Fernet) (nonce : Nat) :
    ConnectionCall → StoreRoutine ConnectionAnswer
  | .create item => do
    let v ← ConnectionStore.create rt cipher nonce item.connection
    pure (.view v)
  | .replace item => do
    let v ← ConnectionStore.replace rt cipher nonce item.connection
    pure (.view v)
  | .delete name => do
    ConnectionStore.delete name
    pure .done
  | .get name => do
    let c ← ConnectionStore.get rt cipher name
    pure (.connection c)
  | .getPublic name => do
    let v ← ConnectionStore.getPublic rt name
    pure (.view v)
  | .listPublic => do
    let vs ← ConnectionStore.listPublic rt
    pure (.views vs)

section Calls

variable {Φ : Type} {rt : Runtime Φ} {cipher : Fernet} {db : Database} {r : Registry}
  {nonce : Nat} {α β : Type}

theorem creationFailure_disturbance (name : Text) (e : Exc) (raised : disturbance e) :
    ConnectionStore.creationFailure name e = e := by
  obtain ⟨error, rfl, other⟩ := raised
  apply if_neg
  rintro rfl
  exact other (by decide)

theorem raise_or_ofExcept {p : Prop} [Decidable p] (e : Exc) (a : Except Exc α) :
    (if p then Routine.raise e else Routine.ofExcept a : StoreRoutine α) =
      Routine.ofExcept (if p then .error e else a) := by
  split
  · rfl
  · rfl

/-- A call of the store on the file `db` answers `a` and leaves `db₁`. -/
abbrev CallAnswers (fault : Exc → Prop) (x : StoreRoutine α) (db : Database) (a : Except Exc α)
    (db₁ : Database) : Prop :=
  x.Wp (driver fault (Lands db db₁)) (Concludes fault db (a, db₁)) () ⟨db, none⟩

variable {fault : Exc → Prop}

theorem lands_refl (db db₁ d : Database) : Lands db db₁ d d := .inl rfl

/-- A method around one statement that changes rows. -/
theorem callAnswers_write (fault : Exc → Prop) {change : Database → Except Exc (Database × Nat)}
    {a : Except Exc Nat} {db₁ : Database} (step : committed change db = (a, db₁)) :
    CallAnswers fault (connect (.invoke (.execute change))) db a db₁ := by
  have commits : Lands db db₁ db (committed change db).2 := by
    rw [step]
    exact .inr ⟨rfl, rfl⟩
  have run : Routine.Wp (driver fault (Lands db db₁)) (connect (.invoke (.execute change)))
      (Concludes fault db (committed change db)) () ⟨db, none⟩ :=
    writes_wp (lands_refl db db₁) commits
  rw [step] at run
  exact run

/-- What is left of `create` once the row is made. -/
theorem create_eq {c : Connection} (prepared : c.Prepared) :
    ConnectionStore.create rt cipher nonce c =
      .catching (connect (.invoke (.execute (Database.insertConnection (rowOf rt cipher nonce c)))))
        (fun e => .raise (ConnectionStore.creationFailure c.name e)) >>= fun _ =>
          .ofExcept (.ok c.view) := by
  rw [ConnectionStore.create, columns_eq rt cipher prepared, view_settings]
  rfl

theorem create_answers (mild : ∀ e, fault e → disturbance e) (represents : Represents rt cipher db r)
    (item : PreparedConnection) :
    ∃ db₁, Represents rt cipher db₁ (r.answer (.create item)).2 ∧
      CallAnswers fault ((ConnectionCall.create item).routine rt cipher nonce) db
        (r.answer (.create item)).1 db₁ := by
  obtain ⟨c, prepared⟩ := item
  have faults := fun e raised => creationFailure_disturbance c.name e (mild e raised)
  rw [ConnectionCall.routine, create_eq prepared]
  rcases represents.insert prepared nonce with ⟨fresh, db₁, after, step⟩ | ⟨taken, step⟩
  · have answer : r.answer (.create ⟨c, prepared⟩) = (.ok (.view c.view), r.insert c fresh) :=
      dif_pos fresh
    rw [answer]
    have run := callAnswers_write fault (committed_ok step)
    exact ⟨db₁, after, Concludes.next (Concludes.next (Concludes.translated faults run))⟩
  · have answer : r.answer (.create ⟨c, prepared⟩) = (.error (connectionExists c.name), r) :=
      dif_neg (not_not.mpr taken)
    rw [answer]
    have run := callAnswers_write fault (committed_error step)
    exact ⟨db, represents, Concludes.next (Concludes.next (Concludes.translated faults run))⟩

/-- A method that reads. -/
theorem callAnswers_read (fault : Exc → Prop) {query : Database → Except Exc α} {a : Except Exc α} (step : query db = a) :
    CallAnswers fault (connect do
        let db ← .invoke .select
        .ofExcept (query db)) db a db := by
  rw [← step]
  exact reads_wp (lands_refl db db) query

/-- What is left of `replace` once the row is made. -/
theorem replace_eq {c : Connection} (prepared : c.Prepared) :
    ConnectionStore.replace rt cipher nonce c =
      connect (.invoke (.execute (Database.updateConnection (rowOf rt cipher nonce c)))) >>=
        fun changed => .ofExcept
          (if changed ≠ 1 then .error (connectionNotFound c.name) else .ok c.view) := by
  rw [ConnectionStore.replace, columns_eq rt cipher prepared, view_settings]
  simp only [raise_or_ofExcept]
  rfl

theorem replace_answers (represents : Represents rt cipher db r) (item : PreparedConnection) :
    ∃ db₁, Represents rt cipher db₁ (r.answer (.replace item)).2 ∧
      CallAnswers fault ((ConnectionCall.replace item).routine rt cipher nonce) db
        (r.answer (.replace item)).1 db₁ := by
  obtain ⟨c, prepared⟩ := item
  rw [ConnectionCall.routine, replace_eq prepared]
  obtain ⟨db₁, after, step⟩ := represents.update prepared nonce
  have run := Concludes.next (Concludes.next (callAnswers_write fault (committed_ok step))
    (f := fun changed => if changed ≠ 1 then .error (connectionNotFound c.name) else .ok c.view))
    (f := fun v => .ok (ConnectionAnswer.view v))
  by_cases member : c.name ∈ r.names
  · have answer : r.answer (.replace ⟨c, prepared⟩) = (.ok (.view c.view), r.replace c) :=
      if_pos member
    rw [if_pos member] at run
    rw [answer]
    exact ⟨db₁, after, run⟩
  · have answer : r.answer (.replace ⟨c, prepared⟩) = (.error (connectionNotFound c.name), r) :=
      if_neg member
    rw [if_neg member] at run
    rw [answer]
    exact ⟨db₁, after.of_registry (Registry.replace_absent member).symm, run⟩

theorem delete_eq (name : Text) : ConnectionStore.delete name =
    connect (.invoke (.execute (Database.deleteConnection name))) >>= fun deleted =>
      .ofExcept (if deleted ≠ 1 then .error (connectionNotFound name) else .ok ()) := by
  have quiet : (pure () : StoreRoutine Unit) = .ofExcept (.ok ()) := rfl
  rw [ConnectionStore.delete, quiet]
  simp only [raise_or_ofExcept]

theorem bindParameters_surrogate {name : Text}
    (surrogate : name.any CodePoint.isSurrogate = true) : bindParameters [name] = .error .unicodeEncode := by
  rw [bindParameters, List.any_cons, surrogate]
  rfl

theorem plain_of_not_any {name : Text} (plain : ¬ name.any CodePoint.isSurrogate = true) :
    name.Plain := by
  intro c member
  cases surrogate : c.isSurrogate with
  | false => rfl
  | true => exact absurd (List.any_eq_true.mpr ⟨c, member, surrogate⟩) plain

/-- `find` looks in the names. -/
theorem Registry.find_isSome (r : Registry) (name : Text) :
    (r.find name).isSome = true ↔ name ∈ r.names := by
  rw [Registry.find, List.find?_isSome, Registry.names, List.mem_map]
  simp only [decide_eq_true_eq]

theorem delete_answers (represents : Represents rt cipher db r) (name : Text) :
    ∃ db₁, Represents rt cipher db₁ (r.answer (.delete name)).2 ∧
      CallAnswers fault ((ConnectionCall.delete name).routine rt cipher nonce) db
        (r.answer (.delete name)).1 db₁ := by
  rw [ConnectionCall.routine, delete_eq]
  rw [Registry.answer, Registry.lookup]
  by_cases surrogate : name.any CodePoint.isSurrogate = true
  · have step : db.deleteConnection name = .error .unicodeEncode := by
      rw [Database.deleteConnection, bindParameters_surrogate surrogate]
      rfl
    rw [if_pos surrogate]
    exact ⟨db, represents, Concludes.next (Concludes.next (callAnswers_write fault (committed_error step)))⟩
  · rw [if_neg surrogate]
    obtain ⟨db₁, after, step⟩ := represents.delete (plain_of_not_any surrogate)
    have run := Concludes.next (Concludes.next (callAnswers_write fault (committed_ok step))
      (f := fun deleted => if deleted ≠ 1 then .error (connectionNotFound name) else .ok ()))
      (f := fun _ => .ok ConnectionAnswer.done)
    have named := r.find_isSome name
    cases found : r.find name with
    | some c =>
      rw [found] at named
      rw [if_pos (named.mp rfl)] at run
      exact ⟨db₁, after, run⟩
    | none =>
      rw [found] at named
      have absent : name ∉ r.names := fun member => Bool.noConfusion (named.mpr member)
      rw [if_neg absent] at run
      exact ⟨db₁, after.of_registry (Registry.remove_absent absent).symm, run⟩

/-- The SELECT of `get` and `get_public`, and what is read from the row. -/
def selected (name : Text) (read : ConnectionRow → Except Exc α) : StoreRoutine α := do
  let row ← connect do
    let db ← .invoke .select
    .ofExcept (db.selectConnection name)
  .ofExcept (row.elim (.error (connectionNotFound name)) read)

theorem get_eq (name : Text) :
    ConnectionStore.get rt cipher name = selected name (rowConnection rt cipher name) := by
  unfold ConnectionStore.get selected
  congr 1
  funext row
  cases row with
  | none => rfl
  | some row => rfl

theorem getPublic_eq (name : Text) :
    ConnectionStore.getPublic rt name = selected name (rowView rt) := by
  unfold ConnectionStore.getPublic selected
  congr 1
  funext row
  cases row with
  | none => rfl
  | some row => rfl

theorem selected_answers (fault : Exc → Prop) (represents : Represents rt cipher db r) (name : Text)
    {read : ConnectionRow → Except Exc α} {result : Connection → Except Exc α}
    (reads : ∀ c nonce, c.Prepared → c.name = name → read (rowOf rt cipher nonce c) = result c) :
    CallAnswers fault (selected name read) db ((r.lookup name).bind result) db := by
  rw [Registry.lookup]
  by_cases surrogate : name.any CodePoint.isSurrogate = true
  · have step : db.selectConnection name = .error .unicodeEncode := by
      rw [Database.selectConnection, bindParameters_surrogate surrogate]
      rfl
    rw [if_pos surrogate]
    exact Concludes.next (callAnswers_read fault step)
  · rw [if_neg surrogate]
    rcases represents.select (plain_of_not_any surrogate) with
      ⟨absent, step⟩ | ⟨c, nonce, found, prepared, named, step⟩
    · have run := Concludes.next (callAnswers_read fault step)
        (f := fun row => row.elim (.error (connectionNotFound name)) read)
      rw [absent]
      exact run
    · have run := Concludes.next (callAnswers_read fault step)
        (f := fun row => row.elim (.error (connectionNotFound name)) read)
      rw [found]
      dsimp only [Except.bind, Option.elim] at run ⊢
      rw [reads c nonce prepared named] at run
      exact run

theorem get_answers (represents : Represents rt cipher db r) (name : Text) :
    CallAnswers fault ((ConnectionCall.get name).routine rt cipher nonce) db (r.answer (.get name)).1 db := by
  rw [ConnectionCall.routine, get_eq]
  have reads : ∀ c nonce, c.Prepared → c.name = name →
      rowConnection rt cipher name (rowOf rt cipher nonce c) =
        if c.Valid then .ok c else .error .validation := by
    intro c nonce prepared named
    rw [← named]
    exact rowConnection_rowOf rt cipher prepared
  have run := Concludes.next (selected_answers fault represents name reads)
    (f := fun c => .ok (ConnectionAnswer.connection c))
  have answer : (r.answer (.get name)).1 = ((r.lookup name).bind fun c =>
      if c.Valid then .ok c else .error .validation).bind fun c => .ok (.connection c) := by
    rw [Registry.answer]
    cases r.lookup name with
    | error e => rfl
    | ok c =>
      dsimp only [Except.bind]
      split_ifs
      · rfl
      · rfl
  rw [answer]
  exact run

theorem getPublic_answers (represents : Represents rt cipher db r) (name : Text) :
    CallAnswers fault ((ConnectionCall.getPublic name).routine rt cipher nonce) db
      (r.answer (.getPublic name)).1 db := by
  rw [ConnectionCall.routine, getPublic_eq]
  have reads : ∀ c nonce, c.Prepared → c.name = name →
      rowView rt (rowOf rt cipher nonce c) = .ok c.view :=
    fun _ _ prepared _ => rowView_rowOf rt cipher prepared
  have run := Concludes.next (selected_answers fault represents name reads)
    (f := fun v => .ok (ConnectionAnswer.view v))
  have answer : (r.answer (.getPublic name)).1 =
      ((r.lookup name).bind fun c => .ok c.view).bind fun v => .ok (.view v) := by
    rw [Registry.answer]
    cases r.lookup name with
    | error e => rfl
    | ok c => rfl
  rw [answer]
  exact run

theorem listPublic_answers (represents : Represents rt cipher db r) :
    CallAnswers fault (ConnectionCall.listPublic.routine rt cipher nonce) db (r.answer .listPublic).1 db := by
  obtain ⟨rows, step, table⟩ := represents.selectAll
  have run := Concludes.next (Concludes.next (callAnswers_read fault step)
    (f := fun rows => rows.mapM (rowView rt))) (f := fun vs => .ok (ConnectionAnswer.views vs))
  dsimp only [Except.bind] at run
  rw [rowViews table] at run
  exact run

/-- Every call answers what the registry answers, and leaves a file that represents
what the registry leaves. -/
theorem ConnectionCall.answers (call : ConnectionCall) (mild : ∀ e, fault e → disturbance e)
    (represents : Represents rt cipher db r) (nonce : Nat) : ∃ db₁, Represents rt cipher db₁ (r.answer call).2 ∧
      CallAnswers fault (call.routine rt cipher nonce) db (r.answer call).1 db₁ := by
  cases call with
  | create item => exact create_answers mild represents item
  | replace item => exact replace_answers represents item
  | delete name => exact delete_answers represents name
  | get name => exact ⟨db, represents, get_answers represents name⟩
  | getPublic name => exact ⟨db, represents, getPublic_answers represents name⟩
  | listPublic => exact ⟨db, represents, listPublic_answers represents⟩

end Calls

/-! ## Transfers and restarts -/

section Records

variable {db : Database}

/-- A change that leaves the table of connections alone. -/
def SameConnections (d d' : Database) : Prop := d'.connections = d.connections

theorem start_connections {id : Text} {request : TransferRequest} {now : Instant} {db' : Database}
    (step : db.start id request now = .ok db') : SameConnections db db' := by
  unfold Database.start Database.insertTransfer at step
  cases bound : bindParameters [(startedRecord id request now).id,
      (startedRecord id request now).source, (startedRecord id request now).sourceFile,
      (startedRecord id request now).destination, (startedRecord id request now).destinationFile] with
  | error e =>
    rw [bound] at step
    cases step
  | ok _ =>
    rw [bound] at step
    dsimp only [bind, Except.bind] at step
    cases found : db.transfers with
    | none =>
      rw [found] at step
      cases step
    | some t =>
      rw [found] at step
      dsimp only at step
      split at step
      · cases step
        rfl
      · cases step

theorem transition_connections {id : Text} {states : List TransferStatus} {update : TransferChange}
    {db' : Database} (step : db.transition id states update = .ok db') : SameConnections db db' := by
  unfold Database.transition Database.updateTransfer at step
  cases bound : bindParameters (id :: update.texts) update.numbers with
  | error e =>
    rw [bound] at step
    cases step
  | ok _ =>
    rw [bound] at step
    dsimp only [bind, Except.bind] at step
    cases found : db.transfers with
    | none =>
      rw [found] at step
      cases step
    | some t =>
      rw [found] at step
      dsimp only at step
      split at step
      · cases step
      · rename_i result step'
        split at step'
        · cases step'
        · cases step'
          split at step
          · cases step
          · cases step
            rfl

theorem recover_connections {now : Instant} {db' : Database} {n : Nat}
    (step : db.recover now = .ok (db', n)) : SameConnections db db' := by
  unfold Database.recover at step
  split at step
  · cases step
  · cases step
    rfl

/-- A call around a transfer, whatever it returns. -/
theorem keeps_of_bind {α : Type} {x : StoreRoutine α} {f : α → Option TransferRecord}
    {Q : Except Exc α → Unit → Handle Database → Prop}
    (run : x.Wp (driver sqliteFault SameConnections) Q () ⟨db, none⟩) :
    (x >>= fun a => pure (f a)).Wp (driver sqliteFault SameConnections) (fun _ _ _ => True)
      () ⟨db, none⟩ :=
  .bind (.mono run fun _ _ _ _ => trivial) (fun _ _ _ _ => .pure (Setting.settled_alone.mpr trivial))
    fun _ _ _ _ => Setting.settled_alone.mpr trivial

/-- A transfer or a restart, finished or stopped, leaves the connections alone. -/
theorem StoreCall.keeps_connections (call : StoreCall) (existing : db.connections.isSome)
    {c : Prog (Sql Database Exc) (Except Exc (Option TransferRecord) × Unit) × Handle Database}
    (reach : Prog.Reach (Sql.sem sqliteFault) (call.routine (), ⟨db, none⟩) c) :
    c.2.file.connections = db.connections := by
  have still : ∀ d, SameConnections d d := fun _ => rfl
  have tables : db.tables ≠ [] := by
    intro none
    simp only [Database.tables, List.append_eq_nil_iff] at none
    simp [existing] at none
  have run : call.routine.Wp (driver sqliteFault SameConnections) (fun _ _ _ => True) () ⟨db, none⟩ := by
    cases call with
    | startTransfer id request now =>
      exact keeps_of_bind (startTransfer_wp still fun _ step => start_connections step)
    | recordProgress id bytes now =>
      exact keeps_of_bind (transition_wp still fun _ step => transition_connections step)
    | markPublishing id bytes now =>
      exact keeps_of_bind (transition_wp still fun _ step => transition_connections step)
    | failTransfer id bytes phase code message now =>
      exact keeps_of_bind (transition_wp still fun _ step => transition_connections step)
    | finishTransfer id now =>
      exact keeps_of_bind (finishTransfer_wp still fun _ step => transition_connections step)
    | startup cipher nonce now =>
      exact keeps_of_bind (initializeStore_existing_wp still
        (fun _ _ step => recover_connections step) tables)
  refine Prog.Wp.invariant (I := fun c => c.file.connections = db.connections) run rfl ?_ reach
  intro c₁ c₂ same moved
  exact moved.trans same

end Records

/-! ## Runs -/

/-- What happens to the store: a call that ended, a call that was stopped, or a call on
the records of transfers, ended or stopped, with every startup. -/
inductive StoreEvent
  | answered (call : ConnectionCall) (answer : Except Exc ConnectionAnswer)
  | stopped (call : ConnectionCall)
  | records (call : StoreCall)

namespace StoreEvent

/-- An event on the file. -/
def Happens {Φ : Type} (rt : Runtime Φ) (cipher : Fernet) : StoreEvent → Database → Database → Prop
  | answered call answer, db, db' => ∃ nonce c,
      Prog.Reach (Sql.sem disturbance) (call.routine rt cipher nonce (), ⟨db, none⟩)
        (.ret (answer, ()), c) ∧ c.file = db'
  | stopped call, db, db' => ∃ nonce c,
      Prog.Reach (Sql.sem disturbance) (call.routine rt cipher nonce (), ⟨db, none⟩) c ∧
        c.2.file = db'
  | records call, db, db' => ∃ c,
      Prog.Reach (Sql.sem sqliteFault) (call.routine (), ⟨db, none⟩) c ∧ c.2.file = db'

/-- An event on the registry. -/
def Allowed : StoreEvent → Registry → Registry → Prop
  | answered call answer, r, r' => (answer, r') = r.answer call ∨
      (∃ e, disturbance e ∧ answer = .error e) ∧ r' = r
  | stopped call, r, r' => r' = r ∨ r' = (r.answer call).2
  | records _, r, r' => r' = r

end StoreEvent

section Refinement

variable {Φ : Type} {rt : Runtime Φ} {cipher : Fernet}

theorem store_simulates :
    Simulates (StoreEvent.Happens rt cipher) StoreEvent.Allowed (Represents rt cipher) := by
  intro event db db' r represents happens
  cases event with
  | answered call answer =>
    obtain ⟨nonce, c, reach, rfl⟩ := happens
    obtain ⟨db₁, after, run⟩ := call.answers (fun _ raised => raised) represents nonce
    obtain ⟨-, ended⟩ := Prog.Wp.result run reach
    rcases ended with ⟨same, file⟩ | ⟨e, raised, same, file⟩
    · refine ⟨(r.answer call).2, .inl (Prod.ext same rfl), ?_⟩
      rw [file]
      exact after
    · refine ⟨r, .inr ⟨⟨e, raised, same⟩, rfl⟩, ?_⟩
      rw [file]
      exact represents
  | stopped call =>
    obtain ⟨nonce, c, reach, rfl⟩ := happens
    obtain ⟨db₁, after, run⟩ := call.answers (fun _ raised => raised) represents nonce
    rcases stopped_lands run reach with same | same
    · rw [same]
      exact ⟨r, .inl rfl, represents⟩
    · rw [same]
      exact ⟨_, .inr rfl, after⟩
  | records call =>
    obtain ⟨c, reach, rfl⟩ := happens
    obtain ⟨t, found, table⟩ := represents
    have kept := call.keeps_connections (by rw [found]; rfl) reach
    exact ⟨r, rfl, t, kept.trans found, table⟩

/-- A driver without faults is one that may have some. -/
theorem sem_of_faultless {fault : Exc → Prop} ⦃β : Type⦄ (op : Sql Database Exc β)
    (c : Handle Database) (r : β) (c' : Handle Database)
    (answer : Sql.sem (fun _ => False) op c r c') : Sql.sem fault op c r c' := by
  cases op with
  | execute change =>
    rcases answer with ⟨_, impossible, _⟩ | answer
    · exact impossible.elim
    · exact .inr answer
  | define change =>
    rcases answer with ⟨_, impossible, _⟩ | answer
    · exact impossible.elim
    · exact .inr answer
  | select =>
    rcases answer with ⟨same, read | ⟨_, impossible, _⟩⟩
    · exact ⟨same, .inl read⟩
    · exact impossible.elim
  | commit =>
    rcases answer with ⟨_, impossible, _⟩ | answer
    · exact impossible.elim
    · exact .inr answer
  | close => exact answer

/-- Every call can end with the answer of the registry. -/
theorem ConnectionCall.happens (call : ConnectionCall) {db : Database} {r : Registry}
    (represents : Represents rt cipher db r) : ∃ db', Represents rt cipher db' (r.answer call).2 ∧
      StoreEvent.Happens rt cipher (.answered call (r.answer call).1) db db' := by
  obtain ⟨db₁, after, run⟩ := @ConnectionCall.answers _ rt cipher db r (fun _ => False) call
    (fun _ impossible => impossible.elim) represents 0
  obtain ⟨⟨answer, s⟩, c, reach⟩ := (Prog.Wp.ends run).outcome
  obtain ⟨-, ended⟩ := Prog.Wp.result run reach
  rcases ended with ⟨same, file⟩ | ⟨_, impossible, _⟩
  · refine ⟨c.file, ?_, 0, c, ?_, rfl⟩
    · rw [file]
      exact after
    · cases same
      exact Prog.Reach.mono sem_of_faultless reach
  · exact impossible.elim

/-- A runtime without floats whose decoders know ASCII. -/
def plainRuntime : Runtime Unit where
  float := ⟨fun _ => (), fun _ => []⟩
  int := strictInt
  codecs := {
    decode := fun _ data => decodeAscii data
    decode_utf8 := by
      intro data ascii
      exact if_pos (List.all_eq_true.mpr fun b member => decide_eq_true (ascii b member)) }
  stack := 900
  stack_pos := by decide

/-- The connection of `clientFields`. -/
def remoteItem : PreparedConnection where
  connection := clientConnection
  prepared :=
    have accepted : validateInput (Φ := Unit) strictInt .sftp clientFields = .ok clientConnection := rfl
    (valid_of_validateInput accepted).1

/-- The registry with that connection alone. -/
def remoteRegistry : Registry := (Registry.empty.answer (.create remoteItem)).2

theorem create_remote : (Registry.empty.answer (.create remoteItem)).1 =
    .ok (.view clientConnection.view) := by
  rfl

theorem get_remote : (remoteRegistry.answer (.get (lit "remote"))).1 =
    .ok (.connection clientConnection) := by
  have looked : remoteRegistry.lookup (lit "remote") = .ok clientConnection := by rfl
  have valid : clientConnection.Valid := remoteItem.prepared
  dsimp only [Registry.answer]
  rw [looked]
  dsimp only [Except.bind]
  rw [if_pos valid]

/-- The store is a registry of connections. In every run from a file that represents a
registry, with calls that end or are stopped at any statement, transfers and restarts,
the answers are those of the registry or exceptions of SQLite, and the last file
represents the registry that these answers leave. -/
theorem store_refines {db db' : Database} {r : Registry} (represents : Represents rt cipher db r)
    {events : List StoreEvent} (run : Trace (StoreEvent.Happens rt cipher) db events db') :
    ∃ r', Trace StoreEvent.Allowed r events r' ∧ Represents rt cipher db' r' :=
  store_simulates.trace run represents

/-- A connection is created and read in a new file. -/
def remoteEvents : List StoreEvent :=
  [.answered (.create remoteItem) (.ok (.view clientConnection.view)),
    .answered (.get (lit "remote")) (.ok (.connection clientConnection))]

theorem store_refines_remote : ∃ db, Trace (StoreEvent.Happens plainRuntime default)
    (made default 0) remoteEvents db ∧ ∃ r, Trace StoreEvent.Allowed .empty remoteEvents r ∧
      Represents plainRuntime default db r := by
  have start := represents_made plainRuntime default 0
  obtain ⟨db₁, represents₁, created⟩ := (ConnectionCall.create remoteItem).happens start
  obtain ⟨db₂, -, read⟩ := (ConnectionCall.get (lit "remote")).happens represents₁
  rw [create_remote] at created
  change StoreEvent.Happens _ _ (.answered _ (remoteRegistry.answer _).1) _ _ at read
  rw [get_remote] at read
  have run : Trace (StoreEvent.Happens plainRuntime default) (made default 0) remoteEvents db₂ :=
    .cons created (.cons read .nil)
  exact ⟨db₂, run, store_refines start run⟩

/-! ## What was written is read -/

/-- A call that may change the stored connection of a name. -/
def ConnectionCall.Changes (name : Text) : ConnectionCall → Prop
  | .replace item => item.connection.name = name
  | .delete other => other = name
  | .create _ | .get _ | .getPublic _ | .listPublic => False

/-- An event that may change the stored connection of a name. -/
def StoreEvent.Changes (name : Text) : StoreEvent → Prop
  | .answered call _ | .stopped call => call.Changes name
  | .records _ => False

variable {r r' : Registry} {c : Connection} {name : Text}

theorem Registry.find_insert {new : Connection} (fresh : new.name ∉ r.names)
    (found : r.find name = some c) : (r.insert new fresh).find name = some c := by
  rw [Registry.find, Registry.insert, List.find?_append]
  change (r.find name).or _ = _
  rw [found, Option.some_or]

theorem Registry.find_replace {new : Connection} (differs : new.name ≠ name)
    (found : r.find name = some c) : (r.replace new).find name = some c := by
  rw [Registry.find, Registry.replace, List.find?_map]
  have same : ((fun c : Connection => decide (c.name = name)) ∘ fun old : Connection =>
      if old.name = new.name then new else old) = fun c => decide (c.name = name) := by
    funext old
    rw [Function.comp_apply]
    split_ifs with hit
    · rw [hit]
    · rfl
  rw [same]
  change (r.find name).map _ = _
  have named : c.name = name := by simpa using List.find?_some found
  rw [found, Option.map_some, if_neg]
  rw [named]
  exact differs.symm

theorem Registry.find_remove {other : Text} (differs : other ≠ name)
    (found : r.find name = some c) : (r.remove other).find name = some c := by
  rw [Registry.find, Registry.remove, List.find?_filter]
  have same : (fun c : Connection => decide (decide (c.name ≠ other) = true ∧
      decide (c.name = name) = true)) = fun c => decide (c.name = name) := by
    funext old
    apply Bool.decide_congr
    rw [decide_eq_true_eq, decide_eq_true_eq, and_iff_right_iff_imp]
    intro hit
    rw [hit]
    exact differs.symm
  rw [same]
  exact found

/-- A call that does not change a stored connection leaves it stored. -/
theorem Registry.answer_keeps {call : ConnectionCall} (unchanged : ¬ call.Changes name)
    (found : r.find name = some c) : (r.answer call).2.find name = some c := by
  cases call with
  | create item =>
    rw [Registry.answer]
    split_ifs with fresh
    · exact found
    · exact Registry.find_insert fresh found
  | replace item =>
    rw [Registry.answer]
    split_ifs with member
    · exact Registry.find_replace unchanged found
    · exact found
  | delete other =>
    rw [Registry.answer]
    cases r.lookup other with
    | ok _ => exact Registry.find_remove unchanged found
    | error _ => exact found
  | get _ => exact found
  | getPublic _ => exact found
  | listPublic => exact found

theorem StoreEvent.Allowed.keeps {event : StoreEvent} (allowed : event.Allowed r r')
    (unchanged : ¬ event.Changes name) (found : r.find name = some c) : r'.find name = some c := by
  cases event with
  | answered call answer =>
    rcases allowed with same | ⟨-, same⟩
    · have left := congrArg Prod.snd same
      rw [show r' = (r.answer call).2 from left]
      exact Registry.answer_keeps unchanged found
    · rw [same]
      exact found
  | stopped call =>
    rcases allowed with same | same
    · rw [same]
      exact found
    · rw [same]
      exact Registry.answer_keeps unchanged found
  | records call =>
    rw [show r' = r from allowed]
    exact found

theorem keeps_of_trace {events : List StoreEvent} (run : Trace StoreEvent.Allowed r events r')
    (unchanged : ∀ event ∈ events, ¬ event.Changes name) (found : r.find name = some c) :
    r'.find name = some c := by
  induction run with
  | nil => exact found
  | cons first _ ih =>
    have kept := first.keeps (unchanged _ List.mem_cons_self) found
    exact ih (fun event member => unchanged event (List.mem_cons_of_mem _ member)) kept

/-- A connection that was just stored is found. -/
theorem Registry.find_stored {item : PreparedConnection} {call : ConnectionCall}
    (stores : call = .create item ∨ call = .replace item) {v : ConnectionView}
    (answered : (r.answer call).1 = .ok (.view v)) :
    (r.answer call).2.find item.connection.name = some item.connection := by
  have hit : decide (item.connection.name = item.connection.name) = true := decide_eq_true rfl
  rcases stores with rfl | rfl
  · rw [Registry.answer] at answered ⊢
    by_cases fresh : item.connection.name ∉ r.names
    · rw [dif_pos fresh]
      have absent : r.find item.connection.name = none := by
        rw [← Option.not_isSome_iff_eq_none, r.find_isSome]
        exact fresh
      rw [Registry.find, Registry.insert, List.find?_append]
      change (r.find item.connection.name).or _ = _
      rw [absent, Option.none_or]
      exact List.find?_cons_of_pos hit
    · rw [dif_neg fresh] at answered
      cases answered
  · rw [Registry.answer] at answered ⊢
    by_cases member : item.connection.name ∈ r.names
    · rw [if_pos member]
      obtain ⟨old, inside, named⟩ := List.mem_map.mp member
      have stored : item.connection ∈ (r.replace item.connection).connections :=
        List.mem_map.mpr ⟨old, inside, if_pos named⟩
      obtain ⟨c', found⟩ := Option.isSome_iff_exists.mp
        ((Registry.find_isSome _ item.connection.name).mpr (List.mem_map_of_mem stored))
      have named' : c'.name = item.connection.name := by simpa using List.find?_some found
      rw [found, List.inj_on_of_nodup_map (r.replace item.connection).distinct
        (List.mem_of_find?_eq_some found) stored named']
    · rw [if_neg member] at answered
      cases answered

theorem Registry.lookup_of_find {item : PreparedConnection}
    (found : r.find item.connection.name = some item.connection) :
    r.lookup item.connection.name = .ok item.connection := by
  have plain := plain_name item.prepared
  rw [Registry.lookup, if_neg, found]
  · rfl
  · intro surrogate
    obtain ⟨d, member, is⟩ := List.any_eq_true.mp surrogate
    rw [plain d member] at is
    cases is

/-- A connection that was created or replaced with success is what every later read
shows, in this process and in later ones, until a call that may change it. `get` returns
it exactly when it is valid: the path that a valid local connection was resolved to need
not be. -/
theorem store_keeps {db db₁ db₂ db₃ : Database} (represents : Represents rt cipher db r)
    {item : PreparedConnection} {call : ConnectionCall}
    (stores : call = .create item ∨ call = .replace item) {v : ConnectionView}
    (stored : StoreEvent.Happens rt cipher (.answered call (.ok (.view v))) db db₁)
    {events : List StoreEvent} (run : Trace (StoreEvent.Happens rt cipher) db₁ events db₂)
    (unchanged : ∀ event ∈ events, ¬ event.Changes item.connection.name)
    {read : ConnectionCall} {answer : Except Exc ConnectionAnswer}
    (reads : StoreEvent.Happens rt cipher (.answered read answer) db₂ db₃) :
    (∃ e, disturbance e ∧ answer = .error e) ∨
      (read = .get item.connection.name → answer =
        if item.connection.Valid then .ok (.connection item.connection) else .error .validation) ∧
      (read = .getPublic item.connection.name → answer = .ok (.view item.connection.view)) ∧
      (read = .listPublic → ∃ vs, answer = .ok (.views vs) ∧ item.connection.view ∈ vs) := by
  obtain ⟨r₁, allowed, represents₁⟩ := store_simulates _ _ _ _ represents stored
  obtain ⟨r₂, trace, represents₂⟩ := store_simulates.trace run represents₁
  obtain ⟨r₃, allowed', -⟩ := store_simulates _ _ _ _ represents₂ reads
  have found₁ : r₁.find item.connection.name = some item.connection := by
    rcases allowed with same | ⟨⟨_, _, impossible⟩, _⟩
    · rw [show r₁ = (r.answer call).2 from congrArg Prod.snd same]
      exact Registry.find_stored stores (congrArg Prod.fst same).symm
    · cases impossible
  have found₂ := keeps_of_trace trace unchanged found₁
  have looked := Registry.lookup_of_find found₂
  rcases allowed' with same | ⟨raised, -⟩
  · refine .inr ?_
    have answered : answer = (r₂.answer read).1 := congrArg Prod.fst same
    refine ⟨?_, ?_, ?_⟩
    · rintro rfl
      rw [answered, Registry.answer, looked]
      rfl
    · rintro rfl
      rw [answered, Registry.answer, looked]
      rfl
    · rintro rfl
      refine ⟨_, answered, List.mem_map_of_mem ?_⟩
      rw [Registry.listed, List.mem_insertionSort]
      exact List.mem_of_find?_eq_some found₂
  · exact .inl raised

/-- The connection of a client is stored and read back. -/
theorem store_keeps_remote : ∃ db₁ db₂ answer,
    StoreEvent.Happens plainRuntime default (.answered (.create remoteItem)
      (.ok (.view clientConnection.view))) (made default 0) db₁ ∧
    StoreEvent.Happens plainRuntime default (.answered (.get (lit "remote")) answer) db₁ db₂ ∧
    ((∃ e, disturbance e ∧ answer = .error e) ∨
      answer = if clientConnection.Valid then .ok (.connection clientConnection)
        else .error .validation) := by
  have start := represents_made plainRuntime default 0
  obtain ⟨db₁, represents₁, created⟩ := (ConnectionCall.create remoteItem).happens start
  obtain ⟨db₂, -, read⟩ := (ConnectionCall.get (lit "remote")).happens represents₁
  rw [create_remote] at created
  have kept := store_keeps start (.inl rfl) created .nil (List.forall_mem_nil _) read
  exact ⟨db₁, db₂, _, created, read, kept.imp_right fun shown => shown.1 rfl⟩

end Refinement

end DataBridge
