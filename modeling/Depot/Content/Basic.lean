/-
The contents of files in the bucket, one file at a time.

The object of a file holds the uploaded bytes and, as texts, the time and the namespace of the file's entry
(`metadataOf`); `modifiedOf` and `namespaceOf` read them back. An object need not come from an upload: a time that
cannot be read counts as no time. Faults of the bucket are put on record and accounted for; all others stay as they
are.
-/
import Depot.Service
import Depot.Site
import Depot.Text.Percent
import Depot.Time.IsoReader

namespace Depot.Content

open Depot.Text

variable {α : Type}

/-! ## Texts of an object -/

def modifiedName : String := "modified"

def namespaceName : String := "namespace"

/-- the texts kept with the content of an entry; no namespace is no text -/
def metadataOf (e : Entry) : Metadata :=
  (modifiedName, e.modified.iso) :: (e.namespace_.map fun ns => (namespaceName, Percent.encode ns)).toList

def namespaceIn (metadata : Metadata) : Option String :=
  (metadata.lookup namespaceName).map Percent.decode

def namespaceOf (key : String) : Op (Option String) := do
  let metadata ← Prog.ofReply (← Op.ask (.headObject key))
  pure (namespaceIn metadata)

def modifiedOf (key : String) : Op (Option Time.Timestamp) := do
  let metadata ← Prog.ofReply (← Op.ask (.headObject key))
  match metadata.lookup modifiedName with
  | none => pure none
  | some text =>
    match Time.Timestamp.ofIso? text with
    | some time => pure (some time)
    | none =>
      Prog.record (.unreadableTime key text)
      pure none

def describe (key : String) : Op (Option String × Option Time.Timestamp) := do
  let modified ← modifiedOf key
  let ns ← namespaceOf key
  pure (ns, modified)

/-! ## One content -/

def put (site : Site) (e : Entry) (content : ByteArray) : Op Unit := do
  let key ← Prog.ofExcept (site.location.key e.space e.id)
  Op.account Fault.isBucketFault (.uploadFailed key) (.putContent e.id) do
    Prog.record (.uploading key)
    Prog.ofReply (← Op.ask (.putObject key content (metadataOf e)))
  Prog.record (.uploaded key)

/-- why a content was not given: there is none, or it cannot be read; a failed transfer is not accounted for -/
def openFailure (space id key : String) (f : Fault) : Op α :=
  if f.isMissingKey then .fail (.noContent space id f)
  else if f.isBucketFault && f != .transfer then
    .note (.openFailed key) (.fail (.storage (.readContent id) f))
  else .fail (.fault f)

/-- gives the content of a file, which is left open -/
def openContent (site : Site) (space id : String) : Op ByteArray := do
  let key ← Prog.ofExcept (site.location.key space id)
  match ← Op.ask (.getObject key) with
  | .ok content => pure content
  | .error f => openFailure space id key f

/-- hands the content of a file to a receiver and closes it however the receiver ends -/
def process (site : Site) (space id : String) (receive : ByteArray → Except Fault α) : Op (Except Fault α) := do
  let content ← openContent site space id
  Op.ask .closeContent
  pure (receive content)

/-- removes the content of a file, if there is one -/
def delete (site : Site) (space id : String) : Op Unit := do
  let key ← Prog.ofExcept (site.location.key space id)
  Op.account Fault.isBucketFault (.deleteFailed key) (.deleteContent id) do
    Prog.record (.deletingContent key)
    Prog.ofReply (← Op.ask (.deleteObject key))

end Depot.Content
