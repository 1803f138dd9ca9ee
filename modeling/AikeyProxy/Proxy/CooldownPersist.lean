import AikeyProxy.Proxy.CooldownFile

/-!
# Writing the state file

Calls that change the store raise its revision and leave a wake-up, of which there is at most one.
The persistence loop takes it, drops further ones for a moment, copies the store under its lock and
writes the copy. Flushes and the final close do the same, so several copies can be on their way, and
one that is older than what is in the file is not written. All writes succeed.
-/

namespace AikeyProxy.Proxy

open Lib

structure Captured where
  body : PoolCooldownFileBody
  revision : Nat

inductive LoopPc where
  | idle
  | coalescing
  | writing (c : Captured)
  | done

/-- Where `closePersistence` is; at the end, with the revision of its last copy. -/
inductive ClosePc where
  | notCalled
  | waiting
  | writing (c : Captured)
  | returned (revision : Nat)

structure PersistWorld where
  store : PoolCooldownStore
  persistWake : Bool
  persistStop : Bool
  loop : LoopPc
  flushes : List Captured
  close : ClosePc
  persistedRevision : Nat
  file : Option PoolCooldownFileBody
  /-- The revision of the copy that is in the file; the file that the process started with counts as
  the first. -/
  fileRevision : Nat
  clock : Int

def PersistWorld.init (file : Option PoolCooldownFileBody) (now : Int) : PersistWorld where
  store := hydrateFromFile file now
  persistWake := false
  persistStop := false
  loop := .idle
  flushes := []
  close := .notCalled
  persistedRevision := 0
  file := file
  fileRevision := 0
  clock := now

inductive PersistAct where
  | call (now : Int) (c : CooldownCall)
  | wake
  | drain
  /-- Its timer fires, and it copies the store. -/
  | copy (now : Int)
  | write
  | stop
  | flushCopy (now : Int)
  | flushWrite (i : Nat)
  | close
  /-- The loop is done, and the close copies the store. -/
  | closeCopy (now : Int)
  | closeWrite

namespace PersistWorld

/-- A critical section of the store; `persistLocked` leaves a wake-up if there is none. -/
def call (w : PersistWorld) (now : Int) (c : CooldownCall) : PersistWorld :=
  let store := w.store.call (now, c)
  { w with
    store
    persistWake := w.persistWake || store.persistRevision != w.store.persistRevision
    clock := now }

def captured (w : PersistWorld) (now : Int) : Captured :=
  ⟨w.store.persistenceSnapshotLocked now, w.store.persistRevision⟩

def writePersistenceSnapshot (w : PersistWorld) (c : Captured) : PersistWorld :=
  if c.revision < w.persistedRevision then w
  else
    { w with
      file := c.body.written
      fileRevision := c.revision
      persistedRevision := c.revision }

end PersistWorld

def persistStep (w : PersistWorld) : PersistAct → Option PersistWorld
  | .call now c => some (w.call now c)
  | .wake =>
    match w.loop, w.persistWake with
    | .idle, true => some { w with loop := .coalescing, persistWake := false }
    | _, _ => none
  | .drain =>
    match w.loop, w.persistWake with
    | .coalescing, true => some { w with persistWake := false }
    | _, _ => none
  | .copy now =>
    match w.loop with
    | .coalescing => some { w with loop := .writing (w.captured now), clock := now }
    | _ => none
  | .write =>
    match w.loop with
    | .writing c => some { w.writePersistenceSnapshot c with loop := .idle }
    | _ => none
  | .stop =>
    match w.loop, w.persistStop with
    | .idle, true | .coalescing, true => some { w with loop := .done }
    | _, _ => none
  | .flushCopy now => some { w with flushes := w.captured now :: w.flushes, clock := now }
  | .flushWrite i =>
    match w.flushes[i]? with
    | some c => some { w.writePersistenceSnapshot c with flushes := w.flushes.eraseIdx i }
    | none => none
  | .close =>
    match w.close with
    | .notCalled => some { w with close := .waiting, persistStop := true }
    | _ => none
  | .closeCopy now =>
    match w.close, w.loop with
    | .waiting, .done => some { w with close := .writing (w.captured now), clock := now }
    | _, _ => none
  | .closeWrite =>
    match w.close with
    | .writing c => some { w.writePersistenceSnapshot c with close := .returned c.revision }
    | _ => none

end AikeyProxy.Proxy
