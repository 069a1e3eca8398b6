/-
The contents of many files at once.

`overKeys` goes through a listing key by key and asks for a page only when the keys of the page before are used up, so
keys may be deleted on the way: a page starts after the last key of the one before. `deleteMatching` deletes what a
`Selection` names. It collects keys and sends a request whenever `batchSize` of them are together; what is left at the
end goes with a last request. Its count is that of the keys sent less those that the bucket refused to delete.
-/
import Depot.Content.Basic

namespace Depot.Content

variable {σ : Type}

/-! ## Listings -/

/-- goes through the keys that start with a text, at most so many pages of them -/
def overKeys (start : String) (step : σ → String → Op σ) : Nat → Option String → σ → Op σ
  | 0, _, _ => .fail (.fault .endlessListing)
  | pages + 1, after, s => do
    let page ← Prog.ofReply (← Op.ask (.listObjects start after))
    let s ← page.keys.foldlM step s
    if page.more then overKeys start step pages page.keys.getLast? s else pure s

/-- goes through the keys of a space, or all keys -/
def overSpace (site : Site) (step : σ → String → Op σ) (s : σ) (space : Option String) : Op σ := do
  let start ← Prog.ofExcept (site.location.start space)
  overKeys start step site.pageLimit none s

/-- goes through the keys of some spaces, or of all -/
@[irreducible] def overSpaces (site : Site) (step : σ → String → Op σ) (s : σ) (spaces : List (Option String)) : Op σ :=
  spaces.foldlM (overSpace site step) s

/-! ## Deletion -/

/-- keys that wait to be deleted, and how many were deleted before them -/
structure Tally where
  waiting : List String
  deleted : Int
  deriving DecidableEq, Repr

namespace Tally

def zero : Tally := ⟨[], 0⟩

def flush (t : Tally) : Op Tally := do
  let refused ← Prog.ofReply (← Op.ask (.deleteObjects t.waiting))
  refused.forM fun r => Prog.record (.contentNotDeleted r.key r.text)
  pure ⟨[], t.deleted + (t.waiting.length - refused.length)⟩

/-- lets one more key wait, and deletes the waiting keys if there are so many -/
def add (site : Site) (t : Tally) (key : String) : Op Tally :=
  let t := { t with waiting := t.waiting ++ [key] }
  if t.waiting.length = site.batchSize then t.flush else pure t

/-- deletes the keys that are left, if any are -/
def finish (t : Tally) : Op Tally :=
  if t.waiting = [] then pure t else t.flush

end Tally

/-- where the keys of a selection are looked for -/
def searched : Selection → List (Option String)
  | .inNamespace space _ => [some space]
  | .inSpaces spaces => spaces.map some
  | .before _ => [none]

/-- whether the object at a key is selected; an object without a time is never old -/
def selects : Selection → String → Op Bool
  | .inNamespace _ ns, key => do pure ((← namespaceOf key) == ns)
  | .inSpaces _, _ => pure true
  | .before cutoff, key => do
    match ← modifiedOf key with
    | none => pure false
    | some time =>
      match time.isBefore? cutoff with
      | some old => pure old
      | none => .fail (.fault .unordered)

/-- one key of a bulk deletion -/
def consider (site : Site) (selection : Selection) (t : Tally) (key : String) : Op Tally := do
  if ← selects selection key then t.add site key else pure t

/-- deletes the contents of a selection, and counts them -/
def deleteMatching (site : Site) (selection : Selection) : Op Int := do
  let t ← Op.account Fault.isBucketFault (.contentsNotDeleted selection) (.deleteContents selection) do
    let t ← overSpaces site (consider site selection) .zero (searched selection)
    t.finish
  Prog.record (.contentsDeleted t.deleted selection)
  pure t.deleted

/-! ## Missing contents -/

def keysOf (site : Site) (spaces : List String) : Op (List String) :=
  overSpaces site (fun keys key => pure (key :: keys)) [] (spaces.map some)

def withoutContent (site : Site) (entries : List Entry) : Op (List Entry) := do
  let keys ← Op.account Fault.isBucketFault .contentsNotListed .listContents
    (keysOf site (entries.map (·.space)).eraseDups)
  let keyed ← entries.mapM fun e => do pure (e, ← Prog.ofExcept (site.location.key e.space e.id))
  pure ((keyed.filter fun (_, key) => !keys.contains key).map (·.1))

end Depot.Content
