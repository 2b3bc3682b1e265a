import DataBridge.Sqlite.Keyed
import DataBridge.Store.Connections

/-!
# The registry of connections

What the store of connections is for: a set of connections with distinct names, and
the answer of every call on it (`Registry.answer`). There are no rows here, no JSON
and no encryption; `Store/Registry.lean` shows that the store is such a registry.
-/

namespace DataBridge

open Json

/-- What `prepare_connection` hands to the store: a valid connection, or a local one
whose path was resolved. A path of the filesystem has no high surrogates. -/
def Connection.Prepared : Connection → Prop
  | .local c => connectionName c.name = .ok c.name ∧ Unjoined c.path
  | .sftp c => (Connection.sftp c).Valid

structure PreparedConnection where
  connection : Connection
  prepared : connection.Prepared

structure Registry where
  connections : List Connection
  distinct : (connections.map Connection.name).Nodup

namespace Registry

def empty : Registry := ⟨[], List.nodup_nil⟩

def names (r : Registry) : List Text := r.connections.map Connection.name

def find (r : Registry) (name : Text) : Option Connection := r.connections.find? (·.name = name)

def insert (r : Registry) (c : Connection) (fresh : c.name ∉ r.names) : Registry where
  connections := r.connections ++ [c]
  distinct := by
    rw [List.map_append, List.nodup_append]
    refine ⟨r.distinct, by simp, ?_⟩
    intro a member b single same
    rw [List.map_singleton, List.mem_singleton] at single
    rw [same, single] at member
    exact fresh member

/-- The connection takes the place of the one with its name. -/
def replace (r : Registry) (c : Connection) : Registry where
  connections := r.connections.map fun old => if old.name = c.name then c else old
  distinct := by
    have names : (r.connections.map fun old => if old.name = c.name then c else old).map
        Connection.name = r.connections.map Connection.name := by
      rw [List.map_map]
      apply List.map_congr_left
      intro old _
      rw [Function.comp_apply]
      split_ifs with same
      · exact same.symm
      · rfl
    rw [names]
    exact r.distinct

def remove (r : Registry) (name : Text) : Registry where
  connections := r.connections.filter (·.name ≠ name)
  distinct := r.distinct.sublist (List.filter_sublist.map _)

/-- The connections by name. -/
def listed (r : Registry) : List Connection :=
  r.connections.insertionSort fun c c' => c.name ≤ c'.name

end Registry

/-! ## Calls -/

inductive ConnectionCall
  | create (item : PreparedConnection)
  | replace (item : PreparedConnection)
  | delete (name : Text)
  | get (name : Text)
  | getPublic (name : Text)
  | listPublic

inductive ConnectionAnswer
  | done
  | connection (c : Connection)
  | view (v : ConnectionView)
  | views (vs : List ConnectionView)

namespace Registry

/-- The connection with a name. A name with a surrogate cannot be bound. -/
def lookup (r : Registry) (name : Text) : Except Exc Connection :=
  if name.any CodePoint.isSurrogate then .error .unicodeEncode
  else (r.find name).elim (.error (connectionNotFound name)) .ok

/-- What a call answers, and the registry it leaves. -/
def answer (r : Registry) : ConnectionCall → Except Exc ConnectionAnswer × Registry
  | .create item =>
    if fresh : item.connection.name ∉ r.names then
      (.ok (.view item.connection.view), r.insert item.connection fresh)
    else (.error (connectionExists item.connection.name), r)
  | .replace item =>
    if item.connection.name ∈ r.names then
      (.ok (.view item.connection.view), r.replace item.connection)
    else (.error (connectionNotFound item.connection.name), r)
  | .delete name =>
    match r.lookup name with
    | .ok _ => (.ok .done, r.remove name)
    | .error e => (.error e, r)
  | .get name =>
    ((r.lookup name).bind fun c => if c.Valid then .ok (.connection c) else .error .validation, r)
  | .getPublic name => ((r.lookup name).map fun c => .view c.view, r)
  | .listPublic => (.ok (.views (r.listed.map Connection.view)), r)

end Registry

end DataBridge
