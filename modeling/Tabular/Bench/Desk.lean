import Tabular.Bench.Site

/-!
# Tabular.Bench.Desk — sessions, leases and connections by name

A scenario speaks of sessions, threads and leases by names.  A session is opened when its name is first
used, a thread is started then; a name can be given again, which ends what it stood for.
-/

namespace Tabular.Bench.Site

/-! ### Sessions -/

/-- Opens a session under a name, in place of any other of that name. -/
def openSession (connect : Attempt SiteM Nat) (close : Nat → SiteM Unit) (name : String) :
    Attempt SiteM Nat := do
  let session ← connect
  if let some old := (← get).names.sessions[name]? then close old
  modifyNames fun n => { n with sessions := n.sessions.insert name session }
  return session

/-- The session of a name, which is opened if there is none. -/
def namedSession (connect : Attempt SiteM Nat) (name : String) : Attempt SiteM Nat := do
  match (← get).names.sessions[name]? with
  | some session => return session
  | none => openSession connect (fun _ => return ()) name

/-- Closes the session of a name and answers whether there was one. -/
def closeSession (close : Nat → SiteM Unit) (name : String) : SiteM Bool := do
  match (← get).names.sessions[name]? with
  | none => return false
  | some session =>
    close session
    modifyNames fun n => { n with sessions := n.sessions.erase name }
    return true

/-- Closes all sessions in the order of their names. -/
def closeSessions (close : Nat → SiteM Unit) : SiteM Unit := do
  (← get).names.sessions.values.forM close
  modifyNames fun n => { n with sessions := ∅ }

/-! ### Leases -/

/-- The thread of a name, which is started if it does not run. -/
def namedThread (name : String) : SiteM Nat := do
  match (← get).names.threads[name]? with
  | some thread => return thread
  | none =>
    let thread ← startThread
    modifyNames fun n => { n with threads := n.threads.insert name thread }
    return thread

/-- The leases of a thread, which is started if it does not run. -/
def leasesOf (thread : String) : SiteM (Std.ExtTreeMap String Lease) := do
  let _ ← namedThread thread
  return (← get).names.leases.getD thread ∅

/-- Replaces the leases of a thread. -/
def setLeases (thread : String) (leases : Std.ExtTreeMap String Lease) : SiteM Unit :=
  modifyNames fun n => { n with leases := n.leases.insert thread leases }

def giveBack (source : SessionSource SiteM) (thread : Nat) (lease : Lease) : SiteM Unit :=
  onThread thread (source.release lease.session lease.reusable)

/-- Acquires a lease on a thread, in place of any other of that name. -/
def acquireLease (source : SessionSource SiteM) (thread lease : String) : Attempt SiteM Unit := do
  let number ← namedThread thread
  let session ← (ExceptT.mk (onThread number source.acquire.run) : Attempt SiteM Nat)
  let leases ← leasesOf thread
  if let some old := leases[lease]? then giveBack source number old
  setLeases thread (leases.insert lease { session })

/-- Releases a lease and answers whether there was one. -/
def releaseLease (source : SessionSource SiteM) (thread lease : String) : SiteM Bool := do
  let number ← namedThread thread
  let leases ← leasesOf thread
  if let some held := leases[lease]? then giveBack source number held
  setLeases thread (leases.erase lease)
  return (lease ∈ leases)

/-- Marks the session of a lease as broken; answers whether it was so before and is so now. -/
def discardLease (thread lease : String) : SiteM (Option (Bool × Bool)) := do
  let leases ← leasesOf thread
  match leases[lease]? with
  | none => return none
  | some held =>
    setLeases thread (leases.insert lease held.discard)
    return some (!held.reusable, !held.discard.reusable)

/-- Ends a thread, which releases its leases in the order of their names; answers whether it ran. -/
def exitThread (source : SessionSource SiteM) (name : String) : SiteM Bool := do
  match (← get).names.threads[name]? with
  | none => return false
  | some number =>
    (← leasesOf name).values.forM (giveBack source number)
    endThread number
    setLeases name ∅
    modifyNames fun n => { n with threads := n.threads.erase name }
    return true

/-! ### Connections without a name -/

/-- Opens a connection and keeps it open. -/
def hold : Attempt SiteM Unit := do
  let session ← database.perform .connect
  modifyNames fun n => { n with held := n.held ++ [session] }

/-- Closes the connections that were kept open. -/
def unhold : SiteM Unit := do
  (← get).names.held.forM database.close
  modifyNames fun n => { n with held := [] }

/-! ### Lookups -/

/-- Finds a schema with an attempt to load it, and says whether the attempt was made. -/
def findNoting (catalog : Catalog SiteM) (table : String) (load : Except StoreError TableSchema) :
    SiteM (Except StoreError TableSchema × Bool) := do
  let noted : Attempt SiteM TableSchema := do
    keepAnswer (.ok .nothing)
    Attempt.of load
  let (result, notes) ← collectAnswers (catalog.findWith table noted).run
  return (result, !notes.isEmpty)

end Tabular.Bench.Site
