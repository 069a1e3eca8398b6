/-
Local files on their way into the store.

An upload is digested before anything is stored. A stream can be read only once, so it is copied to a temporary file
while it is digested (`stage`); a local file is digested where it is (`describe`). A temporary file goes away again if
staging fails by an exception; an interruption passes the handler, and the file stays. Removing it never fails an upload:
the system's trouble with that is only put on record. A path that no call takes is nobody's task, so that fault is left as
it is.
-/
import Depot.Digest
import Depot.Service

namespace Depot.Upload

/-- a local file with the size and digest of its content -/
structure LocalFile where
  path : Disk.Path
  size : Nat
  digest : String
  /-- the name of the digest's algorithm -/
  algorithm : String
  temporary : Bool
  deriving DecidableEq

/-- fails with a fault at a local file: it is accounted for as a task that failed, if it is the system's -/
def failAt {α : Type} (task : Task) (f : Fault) : Op α :=
  .fail (if f.isSystemFault then .storage task f else .fault f)

/-- removes a temporary file, if it is there -/
def removeStaged (path : Disk.Path) : Op Unit := do
  match ← Op.ask (.removeFile path) with
  | .ok () => pure ()
  | .error f => if f.isSystemFault then Prog.record (.temporaryKept path) else .fail (.fault f)

/-- how a file was filled, where no exception ended that -/
inductive Filled where
  | whole (size : Nat) (digest : String)
  | interrupted (e : Failure)

/-- copies a stream into a file while digesting it; nothing is read for an algorithm that does not exist -/
def fill (path : Disk.Path) (s : Stream) (name : String) : Op Filled := do
  let algorithm ← Prog.ofExcept (Digest.algorithmOf name)
  let reading ← Op.ask (.drain s)
  let copied := Digest.copy reading.ending none reading.pieces
  Op.ask (.writeFile path copied.written)
  match copied.result name algorithm with
  | .ok (size, digest) => pure (.whole size digest)
  | .error e => if reading.interrupted then pure (.interrupted e) else .fail e

/-- copies a stream to a new temporary file -/
def stage (s : Stream) (algorithm : String) (folder : Disk.Path) : Op LocalFile := do
  match ← Op.ask (.createTemporary folder) with
  | .error f => failAt .createTemporary f
  | .ok path =>
    match ← (fill path s algorithm).attempt with
    | .ok (.whole size digest) =>
      Prog.record (.staged path size)
      pure ⟨path, size, digest, algorithm, true⟩
    | .ok (.interrupted e) => .fail e
    | .error e =>
      removeStaged path
      .fail e

/-- what trouble with a local file is accounted for as -/
def openTask (path : Disk.Path) : Fault → Task
  | .file .notFound _ => .findLocal path.name
  | _ => .openLocal path.name

/-- describes a local file where it is -/
def describe (path : Disk.Path) (algorithm : String) : Op LocalFile := do
  match ← Op.ask (.readFile path) with
  | .error f => failAt (openTask path f) f
  | .ok content =>
    let pass := Digest.digestCopy algorithm none ((Device.ofContent content).reading Digest.chunkSize)
    let (size, digest) ← Prog.ofExcept pass.outcome
    pure ⟨path, size, digest, algorithm, false⟩

end Depot.Upload
