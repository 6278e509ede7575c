import Tabular.Journal
import Tabular.Versioned.Call

/-!
# Tabular.Versioned.Basic — the versioned store

`VersionedStore` is the state, `perform` the effect of a call on it.  A key of a table has a cell per
version, a row or the mark that the key is deleted; a transaction reads the cell of the largest version
that it sees.  A key without cells is not kept.
-/

namespace Tabular

/-- The cells of a key by version; `none` marks the key as deleted. -/
abbrev Versions := Std.ExtTreeMap Nat (Option Row)

/-- The cells of a table by key. -/
abbrev VersionedTable := Std.ExtTreeMap RowKey Versions

/-- The state of a versioned store. -/
structure VersionedStore where
  tables : Std.ExtTreeMap String VersionedTable := ∅
  metadata : Std.ExtTreeMap String String := ∅

/-- The row in the newest cell that a transaction sees. -/
def Versions.visible? (versions : Versions) (tx : Transaction) : Option Row :=
  (versions.toList.reverse.find? fun cell => tx.isVisible cell.1).bind (·.2)

namespace VersionedTable

/-- The cells of a key. -/
def versions (t : VersionedTable) (key : RowKey) : Versions := t.getD key ∅

/-- The table with the cells of a key replaced. -/
def setVersions (t : VersionedTable) (key : RowKey) (versions : Versions) : VersionedTable :=
  if versions.isEmpty then t.erase key else t.insert key versions

/-- The row of a key that a transaction sees. -/
def read (t : VersionedTable) (key : RowKey) (tx : Transaction) : Option Row :=
  (t.versions key).visible? tx

/-- The rows that a transaction sees. -/
def scan (t : VersionedTable) (tx : Transaction) : List (RowKey × Row) :=
  t.toList.filterMap fun entry => (entry.2.visible? tx).map (entry.1, ·)

def write (t : VersionedTable) (key : RowKey) (version : Nat) (cell : Option Row) : VersionedTable :=
  t.setVersions key ((t.versions key).insert version cell)

/-- Removes a cell. -/
def undo (t : VersionedTable) (key : RowKey) (version : Nat) : VersionedTable :=
  t.setVersions key ((t.versions key).erase version)

/-- The number of cells. -/
def cellCount (t : VersionedTable) : Nat := t.foldl (fun count _ versions => count + versions.size) 0

end VersionedTable

namespace VersionedStore

instance : Inhabited VersionedStore := ⟨{ }⟩

def table (s : VersionedStore) (name : String) : Except StoreError VersionedTable :=
  match s.tables[name]? with
  | some t => .ok t
  | none => .error (.tableNotFound name)

/-- The number of cells of a table. -/
def cellCount (s : VersionedStore) (name : String) : Except StoreError Nat :=
  VersionedTable.cellCount <$> s.table name

/-- Adds an empty table. -/
def createTable (s : VersionedStore) (name : String) : Except StoreError VersionedStore :=
  if name ∈ s.tables then .error (.tableAlreadyExists name)
  else .ok { s with tables := s.tables.insert name ∅ }

/-- Removes a table. -/
def dropTable (s : VersionedStore) (name : String) : Except StoreError VersionedStore :=
  if name ∈ s.tables then .ok { s with tables := s.tables.erase name }
  else .error (.tableNotFound name)

def alter (s : VersionedStore) (name : String) (change : VersionedTable → VersionedTable) :
    Except StoreError VersionedStore := do
  let t ← s.table name
  return { s with tables := s.tables.insert name (change t) }

/-- The metadata keys from `start` on as long as they start with it. -/
def metadataKeys (s : VersionedStore) (start : String) : List String :=
  (s.metadata.keys.dropWhile (· < start)).takeWhile (start.isPrefixOf ·)

/-- The effect of a call. -/
def perform (s : VersionedStore) :
    (call : VersionedCall) → Except StoreError (call.Answer × VersionedStore)
  | .createTable name => ((), ·) <$> s.createTable name
  | .dropTable name => ((), ·) <$> s.dropTable name
  | .tableExists name => .ok (decide (name ∈ s.tables), s)
  | .read name key tx => return ((← s.table name).read key tx, s)
  | .scan name tx => return ((← s.table name).scan tx, s)
  | .write name key version cell => ((), ·) <$> s.alter name (·.write key version cell)
  | .undo name key version => ((), ·) <$> s.alter name (·.undo key version)
  | .metadataGet key => .ok (s.metadata[key]?, s)
  | .metadataAdd key value =>
    if key ∈ s.metadata then .ok (false, s)
    else .ok (true, { s with metadata := s.metadata.insert key value })
  | .metadataDelete key =>
    .ok (decide (key ∈ s.metadata), { s with metadata := s.metadata.erase key })
  | .metadataKeys start => .ok (s.metadataKeys start, s)

/-- What a call in the given state reports. -/
def events (s : VersionedStore) : VersionedCall → List Event
  | .createTable name => if name ∈ s.tables then [] else [.debug s!"Created key-value table {name}"]
  | .dropTable name => if name ∈ s.tables then [.debug s!"Dropped key-value table {name}"] else []
  | _ => []

end VersionedStore

end Tabular
