import Tabular.Changes
import Tabular.Pool.Checkout
import Tabular.Relational.Call
import Tabular.Sql.Statement

/-!
# Tabular.Relational.Basic — the embedded relational database

`Database` is the state, `perform` the effect of a call on it.  A connection with an open transaction
keeps its changes aside, table by table; committing applies them all at once, or none of them if a
changed table is no longer there.  Tables are created and dropped at once, transaction or not.
-/

namespace Tabular

/-- The changes that a transaction keeps aside, by table. -/
abbrev Staged := Std.ExtTreeMap String Changes

/-- The state of a database. -/
structure Database where
  /-- Which database this is. -/
  url : String
  /-- How long an opening waits for a session, in milliseconds. -/
  waitMs : Nat
  sessions : Pool Nat
  /-- The next new session number. -/
  nextSession : Nat := 1
  /-- The committed rows of each table. -/
  tables : Std.ExtTreeMap String Rows := ∅
  /-- The open connections by session, each with the changes of its open transaction if it has one. -/
  connections : Std.ExtTreeMap Nat (Option Staged) := ∅
  failCommits : Bool := false
deriving Inhabited

namespace Database

/-- A database without tables that allows a number of connections. -/
def empty (url : String) (connectionLimit waitMs : Nat) : Database where
  url := url
  waitMs := waitMs
  sessions := { maxSize := connectionLimit }

/-- The changes of the open transaction of a connection, if it has one. -/
def staged? (db : Database) (session : Nat) : Option Staged := db.connections.getD session none

/-- The database with other changes for a connection. -/
def setStaged (db : Database) (session : Nat) (staged : Option Staged) : Database :=
  { db with connections := db.connections.insert session staged }

/-- The committed rows of a table. -/
def rows (db : Database) (table : String) : Except StoreError Rows :=
  match db.tables[table]? with
  | some rows => .ok rows
  | none => .error (.tableNotFound table)

/-- The number of committed rows of a table. -/
def rowCount (db : Database) (table : String) : Except StoreError Nat :=
  (·.size) <$> db.rows table

/-- The changes that a connection keeps aside for a table. -/
def stagedFor (db : Database) (session : Nat) (table : String) : Changes :=
  match db.staged? session with
  | some staged => staged.getD table ∅
  | none => ∅

/-- The rows of a table as a connection sees them. -/
def seen (db : Database) (session : Nat) (table : String) : Except StoreError Rows :=
  (db.stagedFor session table).applyTo <$> db.rows table

/-! ### Connections and transactions -/

/-- Opens a connection. -/
def connect (db : Database) : Except StoreError Nat × Database :=
  match db.sessions.taken with
  | .item session => (.ok session, { db with sessions := db.sessions.take }.setStaged session none)
  | .slot =>
    (.ok db.nextSession,
      { db with sessions := db.sessions.take.fill, nextSession := db.nextSession + 1 }.setStaged
        db.nextSession none)
  | .nothing =>
    (.error (.poolTimeout "sql connection" db.waitMs), { db with sessions := db.sessions.take })

/-- Closes a connection. -/
def close (db : Database) (session : Nat) : Database :=
  { db with
    connections := db.connections.erase session
    sessions := db.sessions.put session true }

/-- Starts a transaction. -/
def begin (db : Database) (session : Nat) : Except StoreError Database :=
  match db.staged? session with
  | some _ => .error (.connection s!"session {session} already has an open transaction")
  | none => .ok (db.setStaged session (some ∅))

/-- The first changed table that is no longer there. -/
def missingTable? (db : Database) (staged : Staged) : Option String :=
  staged.keys.find? (· ∉ db.tables)

/-- The tables after the changes of a transaction. -/
def applied (db : Database) (staged : Staged) : Std.ExtTreeMap String Rows :=
  db.tables.map fun table rows => (staged.getD table ∅).applyTo rows

/-- Ends the transaction of a connection and applies its changes, or fails without applying any. -/
def commit (db : Database) (session : Nat) : Except StoreError Unit × Database :=
  match db.staged? session with
  | none => (.error (.connection s!"session {session} has no open transaction"), db)
  | some staged =>
    let ended := db.setStaged session none
    if db.failCommits then (.error (.connection s!"session {session}: commit failed"), ended)
    else
      match db.missingTable? staged with
      | some table =>
        (.error (.connection
          s!"session {session}: table {table} was dropped during the transaction"), ended)
      | none => (.ok (), { ended with tables := db.applied staged })

/-! ### Tables and rows -/

/-- Adds an empty table. -/
def createTable (db : Database) (schema : TableSchema) : Except StoreError Database :=
  if schema.name ∈ db.tables then .error (.tableAlreadyExists schema.name)
  else .ok { db with tables := db.tables.insert schema.name ∅ }

/-- Removes a table. -/
def dropTable (db : Database) (table : String) : Except StoreError Database :=
  if table ∈ db.tables then .ok { db with tables := db.tables.erase table }
  else .error (.tableNotFound table)

/-- Changes the row of a key: aside in a transaction, at once outside one. -/
def change (db : Database) (session : Nat) (table : String) (key : RowKey) (cell : Option Row) :
    Except StoreError Database := do
  let rows ← db.rows table
  return match db.staged? session with
    | some staged =>
      db.setStaged session (some (staged.insert table ((staged.getD table ∅).insert key cell)))
    | none => { db with tables := db.tables.insert table (rows.change key cell) }

/-- An answer with the database after it, where a failure leaves the database as it was. -/
def answered {α : Type} (db : Database) :
    Except StoreError (α × Database) → Except StoreError α × Database
  | .ok (a, after) => (.ok a, after)
  | .error e => (.error e, db)

/-- The effect of a call. -/
def perform (db : Database) : (call : RelationalCall) → Except StoreError call.Answer × Database
  | .connect => db.connect
  | .begin session => db.answered (((), ·) <$> db.begin session)
  | .commit session => db.commit session
  | .rollback session => (.ok (), db.setStaged session none)
  | .tableExists _ table => (.ok (decide (table ∈ db.tables)), db)
  | .createTable _ schema => db.answered (((), ·) <$> db.createTable schema)
  | .dropTable _ table => db.answered (((), ·) <$> db.dropTable table)
  | .upsert session schema row => db.answered do
    let key ← schema.keyOf row
    return ((), ← db.change session schema.name key (some row))
  | .read session schema key => ((·[key]?) <$> db.seen session schema.name, db)
  | .delete session schema key => db.answered (((), ·) <$> db.change session schema.name key none)
  | .scan session schema => ((·.values) <$> db.seen session schema.name, db)

/-! ### Events -/

/-- What a session reports. -/
def said (session : Nat) (what : String) : String := s!"[session {session}] " ++ what

/-- The report of a statement. -/
def statement (level : Level) (session : Nat) (s : Sql.Statement) : Event :=
  ⟨level, said session (Sql.render s)⟩

/-- What a call in the given state reports. -/
def events (db : Database) (call : RelationalCall) : List Event :=
  match call with
  | .connect =>
    match db.sessions.taken with
    | .nothing => [Pool.timeoutEvent "sql connection" db.waitMs db.sessions.outstanding]
    | _ => []
  | .begin session => if (db.staged? session).isSome then [] else [.trace (said session "BEGIN")]
  | .commit session => if (db.commit session).1.isOk then [.trace (said session "COMMIT")] else []
  | .rollback session =>
    if (db.staged? session).isSome then [.trace (said session "ROLLBACK")] else []
  | .tableExists _ _ => []
  | .createTable session schema =>
    if schema.name ∈ db.tables then []
    else (Sql.createTable schema :: Sql.createIndexes schema).map (statement .debug session)
  | .dropTable session table =>
    if table ∈ db.tables then [statement .debug session (Sql.dropTable table)] else []
  | .upsert session schema row =>
    if (schema.keyOf row).isOk then [statement .debug session (Sql.upsert schema row)] else []
  | .read session schema key => [statement .trace session (Sql.selectByKey schema key)]
  | .delete session schema key => [statement .debug session (Sql.deleteByKey schema key)]
  | .scan session schema => [statement .trace session (Sql.selectAll schema)]

/-- What closing a connection reports. -/
def closeEvents (db : Database) (session : Nat) : List Event :=
  if (db.staged? session).isSome then
    [.warn (said session "closed with an open transaction, rolling back")]
  else []

end Database

end Tabular
