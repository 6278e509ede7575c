import Tabular.Coordinator.Call
import Tabular.Relational.Call
import Tabular.Versioned.Call

/-!
# Tabular.Bench.Recorder — recorded calls and planned faults

A `Recorder` notes the calls to collaborators by name and lets chosen ones fail.  A fault is planned
under the method of a call, or under its method and subject, which counts first; it lets some calls
pass and then strikes, each time or a number of times.
-/

namespace Tabular.Bench

structure CallName where
  method : String
  /-- What it is about, if the method has a subject. -/
  subject? : Option String := none

/-- How a call is noted. -/
def CallName.text (name : CallName) : String :=
  match name.subject? with
  | some subject => name.method ++ ":" ++ subject
  | none => name.method

/-- A planned fault. -/
structure Fault where
  /-- How many calls it lets pass first. -/
  skip : Nat := 0
  /-- How many more times it strikes, or `none` if always. -/
  times : Option Nat := none
  error : StoreError
  /-- Whether a struck call answers false instead, if it answers a truth value at all. -/
  deny : Bool := false

/-- What becomes of a call. -/
inductive Verdict where
  | pass
  | fail (e : StoreError)
  /-- It answers false, if it can. -/
  | deny

namespace Fault

/-- The error of a fault for which none is given. -/
def defaultError (name : String) : StoreError :=
  if "co.".isPrefixOf name then .coordinator s!"injected {name}" else .connection s!"injected {name}"

/-- What a call gets that is struck. -/
def verdict (f : Fault) : Verdict := if f.deny then .deny else .fail f.error

/-- What the next call gets, and the fault after it. -/
def next (f : Fault) : Verdict × Fault :=
  match f.skip, f.times with
  | skip + 1, _ => (.pass, { f with skip })
  | 0, some 0 => (.pass, f)
  | 0, some (times + 1) => (f.verdict, { f with times := some times })
  | 0, none => (f.verdict, f)

end Fault

/-- The noted calls and the planned faults. -/
structure Recorder where
  /-- The calls, the last one first. -/
  calls : List String := []
  faults : Std.ExtTreeMap String Fault := ∅

namespace Recorder

instance : Inhabited Recorder := ⟨{ }⟩

/-- The name of the fault that counts for a call. -/
def faultName? (r : Recorder) (name : CallName) : Option String :=
  [name.text, name.method].find? (· ∈ r.faults)

/-- Notes a call and decides what becomes of it. -/
def call (r : Recorder) (name : CallName) : Verdict × Recorder :=
  let noted := { r with calls := name.text :: r.calls }
  match r.faultName? name with
  | none => (.pass, noted)
  | some key =>
    match r.faults[key]? with
    | none => (.pass, noted)
    | some fault =>
      let (verdict, after) := fault.next
      (verdict, { noted with faults := r.faults.insert key after })

/-- Takes the noted calls out, in their order. -/
def drain (r : Recorder) : List String × Recorder := (r.calls.reverse, { r with calls := [] })

end Recorder

/-! ### The names of calls -/

def changesText (changes : ChangeSet) : String := ";".intercalate (changes.toList.map Change.text)

def coordinatorCallName : CoordinatorCall → CallName
  | .connect => ⟨"co.connect", none⟩
  | .begin _ => ⟨"co.begin", none⟩
  | .canCommit _ tx changes =>
    ⟨"co.can_commit", some (toString tx.writePointer ++ ":" ++ changesText changes)⟩
  | .commit _ tx => ⟨"co.commit", some (toString tx.writePointer)⟩
  | .abort _ tx => ⟨"co.abort", some (toString tx.writePointer)⟩
  | .invalidate _ tx => ⟨"co.invalidate", some (toString tx.writePointer)⟩

/-- What a denied call to a coordinator answers. -/
def coordinatorDenial? : (call : CoordinatorCall) → Option call.Answer
  | .canCommit _ _ _ => some false
  | .commit _ _ => some false
  | _ => none

/-- The name of a call to a versioned store. -/
def versionedCallName : VersionedCall → CallName
  | .createTable table => ⟨"kv.create_table", some table⟩
  | .dropTable table => ⟨"kv.drop_table", some table⟩
  | .tableExists table => ⟨"kv.table_exists", some table⟩
  | .read table _ _ => ⟨"kv.read", some table⟩
  | .scan table _ => ⟨"kv.scan", some table⟩
  | .write table _ _ _ => ⟨"kv.write", some table⟩
  | .undo table _ _ => ⟨"kv.undo", some table⟩
  | .metadataGet key => ⟨"kv.metadata_get", some key⟩
  | .metadataAdd key _ => ⟨"kv.metadata_put_if_absent", some key⟩
  | .metadataDelete key => ⟨"kv.metadata_delete", some key⟩
  | .metadataKeys start => ⟨"kv.metadata_keys", some start⟩

/-- What a denied call to a versioned store answers. -/
def versionedDenial? : (call : VersionedCall) → Option call.Answer
  | .metadataAdd _ _ => some false
  | .metadataDelete _ => some false
  | _ => none

/-- The name of a call to a relational database. -/
def relationalCallName : RelationalCall → CallName
  | .connect => ⟨"sql.connection", none⟩
  | .begin _ => ⟨"sql.begin", none⟩
  | .commit _ => ⟨"sql.commit", none⟩
  | .rollback _ => ⟨"sql.rollback", none⟩
  | .tableExists _ table => ⟨"sql.table_exists", some table⟩
  | .createTable _ schema => ⟨"sql.create_table", some schema.name⟩
  | .dropTable _ table => ⟨"sql.drop_table", some table⟩
  | .upsert _ schema _ => ⟨"sql.upsert", some schema.name⟩
  | .read _ schema _ => ⟨"sql.read", some schema.name⟩
  | .delete _ schema _ => ⟨"sql.delete", some schema.name⟩
  | .scan _ schema => ⟨"sql.scan", some schema.name⟩

/-- What a denied call to a relational database answers. -/
def relationalDenial? : (call : RelationalCall) → Option call.Answer
  | .tableExists _ _ => some false
  | _ => none

end Tabular.Bench
