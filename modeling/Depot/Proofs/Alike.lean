/-
Uploads of streams and uploads of local files are alike.

Both come to one program, the upload of some bytes (`Files.upload`): it asks for the digest of the bytes, for an id and
for the time, and then keeps the bytes and their row. An upload of a stream has its outcome, however the stream gives the
bytes, and leaves the world as it leaves it but for the disk and the note of how the stream was used (`add_upload`); an
upload of a local file runs as it does (`addExisting_upload`). None of its calls goes to the disk, so it does not matter
what is on it (`World.serve_elsewhere`).
- `uploads_agree`: both uploads, from worlds that agree in all but their disks, the use of streams and the output.
-/
import Depot.Proofs.RoundTrip
import Depot.Proofs.Staging
import Depot.Proofs.Undigested

namespace Depot

/-! ## Changes that a run does not see -/

namespace Prog

variable {I : Interface} {α σ : Type} {serve : (c : I.Call) → σ → I.Reply c × σ} {ok : I.Call → Prop} {p : Prog I α}

/-- **A change of the state that no call sees** stays, and changes nothing else. -/
theorem Only.runFrom_change (h : p.Only ok) (change : σ → σ)
    (unseen : ∀ c s, ok c → serve c (change s) = ((serve c s).1, change (serve c s).2)) (s : σ) (events : List Event) :
    p.runFrom serve (change s) events = ⟨(p.runFrom serve s events).outcome,
      change (p.runFrom serve s events).state, (p.runFrom serve s events).record⟩ := by
  induction h generalizing s events with
  | done a => rfl
  | fail e => rfl
  | note _ ih => exact ih s _
  | call hc _ ih =>
    unfold runFrom
    rw [unseen _ s hc]
    exact ih _ _ events

end Prog

/-- a call that storing an upload makes: none of them goes to the disk -/
def Call.Stores : Call → Prop
  | .freshId | .now | .putObject .. | .insertFile _ => True
  | _ => False

namespace World

variable {w v : World}

/-- the same world on another disk, with other uses of streams and another output -/
def elsewhere (w : World) (disk : Disk) (meter : Meter) (output : String) : World :=
  { w with disk := disk, meter := meter, output := output }

section Elsewhere

variable {α : Type} {disk : Disk} {meter : Meter} {output : String}

theorem strike_elsewhere (w : World) (e : Endpoint) : (w.elsewhere disk meter output).strike e =
    ((w.strike e).1, (w.strike e).2.elsewhere disk meter output) := rfl

theorem request_elsewhere {answer : Bucket → World → Except Fault α × World}
    (alike : ∀ b t, answer b (elsewhere t disk meter output) = ((answer b t).1, (answer b t).2.elsewhere disk meter output))
    (w : World) (e : Endpoint) (keys : List String) : (w.elsewhere disk meter output).request e keys answer =
      ((w.request e keys answer).1, (w.request e keys answer).2.elsewhere disk meter output) := by
  unfold request
  rw [strike_elsewhere]
  split
  · rfl
  · obtain ⟨hit, t⟩ := w.strike e
    have bucket : (t.elsewhere disk meter output).bucket = t.bucket := rfl
    cases hit with
    | some f => rfl
    | none =>
      dsimp only
      rw [bucket]
      cases t.bucket with
      | none => rfl
      | some b => exact alike b t

theorem statement_elsewhere {answer : World → Except Fault α × World}
    (alike : ∀ t, answer (elsewhere t disk meter output) = ((answer t).1, (answer t).2.elsewhere disk meter output))
    (w : World) (e : Endpoint) : (w.elsewhere disk meter output).statement e answer =
      ((w.statement e answer).1, (w.statement e answer).2.elsewhere disk meter output) := by
  unfold statement
  rw [strike_elsewhere]
  obtain ⟨hit, t⟩ := w.strike e
  cases hit with
  | some f => rfl
  | none => exact alike t

/-- **What stores an upload is answered alike elsewhere.** -/
theorem serve_elsewhere {c : Call} (h : c.Stores) (w : World) : serve c (w.elsewhere disk meter output) =
    ((serve c w).1, (serve c w).2.elsewhere disk meter output) := by
  cases c with
  | now => rfl
  | freshId =>
    unfold serve freshId elsewhere
    dsimp only
    split <;> rfl
  | putObject key content metadata => exact request_elsewhere (fun b t => rfl) w .putObject [key]
  | insertFile e =>
    refine statement_elsewhere (fun t => ?_) w .insertFiles
    have files : (t.elsewhere disk meter output).files = t.files := rfl
    unfold insertFile
    rw [files]
    cases t.files.insert? e <;> rfl
  | _ => exact h.elim

end Elsewhere

/-- worlds agree in all but their disks, the use of streams and the output -/
structure Alike (w v : World) : Prop extends Aside w v where
  executions : v.executions = w.executions
  tick : v.tick = w.tick

theorem alike_elsewhere (w : World) (disk disk' : Disk) (meter meter' : Meter) (output output' : String) :
    Alike (w.elsewhere disk meter output) (w.elsewhere disk' meter' output') :=
  ⟨⟨⟨rfl, rfl⟩, rfl, rfl, rfl, rfl, rfl, rfl⟩, rfl, rfl⟩

/-- a world that agrees with another is this one elsewhere -/
theorem Alike.eq_elsewhere (h : Alike w v) : v = w.elsewhere v.disk v.meter v.output := by
  obtain ⟨⟨⟨bucket, files⟩, locked, strikes, refusals, clock, ids, serial⟩, executions, tick⟩ := h
  unfold elsewhere
  rw [← bucket, ← files, ← locked, ← strikes, ← refusals, ← clock, ← ids, ← serial, ← executions, ← tick]

end World

/-! ## Digests of bytes -/

namespace Digest

/-- the size and the digest of bytes at hand -/
def ofBytes (name : String) (content : ByteArray) : Except Failure (Nat × String) :=
  (digestCopy name none ((Device.ofContent content).reading chunkSize)).outcome

/-- **How a stream gives its bytes does not matter,** if it gives them to the end. -/
theorem outcome_eq_ofBytes {r : Reading} (whole : r.breakage? = none) (name : String) :
    (digestCopy name none r).outcome = ofBytes name r.content := by
  have fits (r : Reading) : r.Fits none := nofun
  have same : ((Device.ofContent r.content).reading chunkSize).content = r.content :=
    Device.content_reading r.content (by decide)
  unfold ofBytes digestCopy
  cases algorithmOf name with
  | error e => rfl
  | ok a =>
    show (copy r.ending none r.pieces).result name a = (copy _ none _).result name a
    rw [result_of_whole (fits r) whole, result_of_whole (fits _) rfl, same]

end Digest

/-! ## The upload of bytes -/

namespace Files

open World

variable {w v : World} {events : List Event} {site : Site} {space name : String} {ns : Option String} {s : Stream}
  {content : ByteArray}

/-- keeps bytes with their size and digest, and then their row -/
def keep (site : Site) (space : String) (ns : Option String) (name : String) (size : Nat) (digest algorithm : String)
    (content : ByteArray) : Op Entry := do
  let id ← Op.ask .freshId
  let modified ← Op.ask .now
  let e : Entry := ⟨id, space, ns, name, size, digest, algorithm, modified⟩
  Content.put site e content
  statement (.insertEntry id) do
    let utc ← inUtc modified
    Prog.ofReply (← Op.ask (.insertFile { e with modified := utc }))
  Prog.record (.stored id name e.size space)
  pure e

/-- the algorithm of a site with the size and the digest of bytes -/
def digested (site : Site) (content : ByteArray) : Except Failure (String × Nat × String) :=
  match site.digestAlgorithm with
  | none => .error (.fault .missingSetting)
  | some algorithm => (Digest.ofBytes algorithm content).map fun result => (algorithm, result)

def upload (site : Site) (space : String) (ns : Option String) (name : String) (content : ByteArray) : Op Entry := do
  let (algorithm, size, digest) ← Prog.ofExcept (digested site content)
  keep site space ns name size digest algorithm content

theorem only_keep (size : Nat) (digest algorithm : String) :
    (keep site space ns name size digest algorithm content).Only Call.Stores := by
  have put (e : Entry) : (Content.put site e content).Only Call.Stores := by
    unfold Content.put
    refine (Prog.only_ofExcept _).bind fun key => Prog.Only.bind (Op.only_account ?_) fun _ => Prog.only_record _
    exact (Prog.only_record _).bind fun _ => (Op.only_ask trivial).bind fun reply => Prog.only_ofReply _
  unfold keep
  refine (Op.only_ask trivial).bind fun id => (Op.only_ask trivial).bind fun modified => (put _).bind fun _ =>
    Prog.Only.bind (Op.only_account ?_) fun _ => (Prog.only_record _).bind fun _ => Prog.only_pure _
  exact (only_inUtc _).bind fun utc => (Op.only_ask trivial).bind fun reply => Prog.only_ofReply _

theorem only_upload (site : Site) (space : String) (ns : Option String) (name : String) (content : ByteArray) :
    (upload site space ns name content).Only Call.Stores := by
  unfold upload
  exact (Prog.only_ofExcept _).bind fun result => only_keep _ _ _

theorem runFrom_ask_bind {α : Type} (c : Call) (f : c.Reply → Op α) (w : World) (events : List Event) :
    (Op.ask c >>= f).runFrom serve w events = (f (serve c w).1).runFrom serve (serve c w).2 events := rfl

theorem store_keep (file : Upload.LocalFile) (there : w.disk.read file.path = .ok content) (events : List Event) :
    (store site space ns name file).runFrom serve w events =
      (keep site space ns name file.size file.digest file.algorithm content).runFrom serve w events := by
  unfold store keep
  rw [runFrom_ask_bind, runFrom_ask_bind, runFrom_ask_bind, runFrom_ask_bind, runFrom_ask_bind]
  have disk : (serve .now (serve .freshId w).2).2.disk = w.disk := (freshId_keeps w).2.1
  have reply : serve (.readFile file.path) (serve .now (serve .freshId w).2).2 =
      (.ok content, (serve .now (serve .freshId w).2).2) := by
    show (ofDisk file.path ((serve .now (serve .freshId w).2).2.disk.read file.path), _) = _
    rw [disk, there]
    rfl
  rw [reply]

theorem ends_store_iff (file : Upload.LocalFile) (there : w.disk.read file.path = .ok content) (Q : Prog.Goal World Entry)
    (events : List Event) : (store site space ns name file).Ends serve Q w events ↔
      (keep site space ns name file.size file.digest file.algorithm content).Ends serve Q w events := by
  rw [Prog.ends_iff, Prog.ends_iff, store_keep file there]

/-- **An upload of a local file is the upload of its bytes.** -/
theorem addExisting_upload {path : Disk.Path} (there : w.disk.read path = .ok content) (events : List Event) :
    (addExisting site space ns name path).runFrom serve w events =
      (upload site space ns name content).runFrom serve w events := by
  have reply : serve (.readFile path) w = (.ok content, w) := by
    show (ofDisk path (w.disk.read path), w) = _
    rw [there]
    rfl
  unfold addExisting upload digested
  cases site.digestAlgorithm with
  | none => rfl
  | some algorithm =>
    dsimp only
    show (Upload.describe path algorithm >>= fun file => store site space ns name file).runFrom serve w events = _
    unfold Upload.describe
    rw [LawfulMonad.bind_assoc, runFrom_ask_bind, reply]
    show ((Prog.ofExcept (Digest.ofBytes algorithm content) >>= fun result =>
      pure (⟨path, result.1, result.2, algorithm, false⟩ : Upload.LocalFile)) >>= fun file =>
        store site space ns name file).runFrom serve w events = _
    rw [LawfulMonad.bind_assoc]
    cases Digest.ofBytes algorithm content with
    | error e => rfl
    | ok result =>
      rw [Prog.ofExcept_ok_bind, LawfulMonad.pure_bind]
      exact store_keep ⟨path, result.1, result.2, algorithm, false⟩ there events

end Files

/-! ## Uploads of streams -/

namespace Upload

open World

variable {w : World} {s : Stream} {before disk : Disk} {path folder : Disk.Path} {events : List Event}

theorem removeStaged_done (more : before.With path disk) (w : World) (meter : Meter) (output : String)
    (events : List Event) : (removeStaged path).Ends serve (fun r t _ => r = .ok () ∧
      ∃ d, t = w.elsewhere d meter output ∧ d.nodes = before.nodes) (w.elsewhere disk meter output) events := by
  obtain ⟨left, removed, nodes⟩ := more.remove
  have reply : serve (.removeFile path) (w.elsewhere disk meter output) = (.ok (), w.elsewhere left meter output) := by
    simp only [serve, elsewhere, removed]
  unfold removeStaged
  rw [Op.ends_ask_bind, reply]
  exact ⟨rfl, left, rfl, nodes⟩

/-- a stream that gives all its bytes fills a temporary file with them, unless there is no such algorithm -/
theorem fill_whole (tidy : before.Tidy) (made : before.createTemporary folder = .ok (path, w.disk))
    (whole : s.reading.breakage? = none) (name : String) (events : List Event) :
    (fill path s name).Ends serve (fun r t _ =>
      r = (Digest.ofBytes name s.reading.content).map (fun (size, digest) => .whole size digest) ∧
      ∃ d meter, t = w.elsewhere d meter w.output ∧ before.With path d ∧
        ∀ filled, r = .ok filled → d.read path = .ok s.reading.content) w events := by
  have more := Disk.with_temporary tidy made
  have outcome := Digest.outcome_eq_ofBytes whole name
  unfold Digest.digestCopy at outcome
  unfold fill
  cases known : Digest.algorithmOf name with
  | error e =>
    rw [known] at outcome
    exact ⟨congrArg (Except.map _) outcome, w.disk, w.meter, rfl, more, nofun⟩
  | ok a =>
    rw [known] at outcome
    have drained : serve (.drain s) w = (s.reading, (w.drain s).2) := rfl
    rw [Prog.ofExcept_ok_bind, Op.ends_ask_bind, drained, Op.ends_ask_bind]
    dsimp only at outcome ⊢
    rw [← outcome]
    cases digested : (Digest.copy s.reading.ending none s.reading.pieces).result name a with
    | ok result =>
      refine ⟨rfl, _, _, rfl, more.write _, fun _ _ => ?_⟩
      obtain ⟨-, written⟩ := Digest.result_ok (r := s.reading) known digested
      show (w.disk.write path (Digest.copy s.reading.ending none s.reading.pieces).written).read path = _
      rw [written]
      exact Disk.read_of_find (Disk.read_temporary made s.reading.content).1
    | error e =>
      rw [Reading.not_interrupted_of_whole whole]
      exact ⟨rfl, _, _, rfl, more.write _, nofun⟩

/-- **A stream that gives all its bytes is staged with them,** and where they have no digest nothing is left of it. -/
theorem stage_whole (tidy : w.disk.Tidy) (made : w.disk.createTemporary folder = .ok (path, disk))
    (whole : s.reading.breakage? = none) (algorithm : String) (events : List Event) :
    (stage s algorithm folder).Ends serve (fun r t _ => ∃ d meter, t = w.elsewhere d meter w.output ∧ match r with
      | .ok file => Digest.ofBytes algorithm s.reading.content = .ok (file.size, file.digest) ∧
          file.algorithm = algorithm ∧ w.disk.With file.path d ∧ d.read file.path = .ok s.reading.content
      | .error e => Digest.ofBytes algorithm s.reading.content = .error e ∧ d.nodes = w.disk.nodes) w events := by
  have reply : serve (.createTemporary folder) w = (.ok path, { w with disk := disk }) := by simp only [serve, made]
  unfold stage
  rw [Op.ends_ask_bind, reply]
  dsimp only
  rw [Prog.ends_bind, Prog.ends_attempt]
  refine (fill_whole (w := { w with disk := disk }) tidy made whole algorithm events).mono ?_
  intro r t more ⟨outcome, d, meter, left, staged, readable⟩
  subst left
  cases digested : Digest.ofBytes algorithm s.reading.content with
  | ok result =>
    rw [digested] at outcome
    subst outcome
    exact ⟨d, meter, rfl, rfl, rfl, staged, readable _ rfl⟩
  | error e =>
    rw [digested] at outcome
    subst outcome
    apply (removeStaged_done staged w meter w.output more).bind
    · intro _ u _ ⟨_, d', gone, nodes⟩
      exact ⟨d', meter, gone, rfl, nodes⟩
    · intro _ u _ ⟨failed, _⟩
      cases failed

end Upload

namespace Files

open World

variable {w v : World} {site : Site} {s : Stream} {disk : Disk} {path folder : Disk.Path}

theorem run_elsewhere {α : Type} {p : Op α} (h : p.Only Call.Stores) (w : World) (d : Disk) (meter : Meter)
    (output : String) : ((w.elsewhere d meter output).run p).outcome = (w.run p).outcome ∧
      ((w.elsewhere d meter output).run p).state = (w.run p).state.elsewhere d meter output := by
  have moved := h.runFrom_change (fun u => u.elsewhere d meter output)
    (fun _ u hc => serve_elsewhere hc u) w []
  have outcome := congrArg Prog.Run.outcome moved
  have state := congrArg Prog.Run.state moved
  exact ⟨outcome, state⟩

/-- bytes that were received are kept, and then nothing is left of the file that they were received in -/
theorem stored_whole {file : Upload.LocalFile} {before d : Disk} {content : ByteArray} {meter : Meter}
    (more : before.With file.path d) (readable : d.read file.path = .ok content) (space : String) (ns : Option String)
    (name : String) (events : List Event) :
    let kept := w.run (keep site space ns name file.size file.digest file.algorithm content)
    ((store site space ns name file).attempt >>= fun stored => Upload.removeStaged file.path >>= fun _ =>
      Prog.ofExcept stored).Ends serve (fun r t _ => r = kept.outcome ∧
        ∃ d', t = kept.state.elsewhere d' meter w.output ∧ d'.nodes = before.nodes)
      (w.elsewhere d meter w.output) events := by
  intro kept
  obtain ⟨outcome, state⟩ := run_elsewhere (only_keep file.size file.digest file.algorithm) w d meter w.output
  have there : (w.elsewhere d meter w.output).disk.read file.path = .ok content := readable
  rw [Prog.ends_bind, Prog.ends_attempt, ends_store_iff file there, Prog.ends_iff_run]
  unfold World.run at outcome state
  rw [outcome, state]
  apply (Upload.removeStaged_done more kept.state meter w.output _).bind
  · intro _ u more ⟨_, d', gone, nodes⟩
    rw [Prog.ends_ofExcept]
    exact ⟨rfl, d', gone, nodes⟩
  · intro _ u more ⟨failed, _⟩
    cases failed

/-- what was received of a stream: a file more that holds the bytes, with their digest, or nothing where there is none -/
def Received (site : Site) (content : ByteArray) (before d : Disk) : Except Failure Upload.LocalFile → Prop
  | .ok file => digested site content = .ok (file.algorithm, file.size, file.digest) ∧ before.With file.path d ∧
      d.read file.path = .ok content
  | .error e => digested site content = .error e ∧ d.nodes = before.nodes

section Whole

-- there is room for a temporary file, and the stream gives all its bytes
variable (tidy : w.disk.Tidy) (staged : site.stagingFolder = some folder)
  (made : w.disk.createTemporary folder = .ok (path, disk)) (whole : s.reading.breakage? = none)
include tidy staged made whole

theorem staging_whole (events : List Event) :
    (staging site s).Ends serve (fun r t _ => ∃ d meter, t = w.elsewhere d meter w.output ∧
      Received site s.reading.content w.disk d r) w events := by
  unfold staging Received digested
  rw [staged]
  cases site.digestAlgorithm with
  | none => exact ⟨w.disk, w.meter, rfl, rfl, rfl⟩
  | some algorithm =>
    dsimp only
    refine (Upload.stage_whole tidy made whole algorithm events).mono ?_
    intro r t _ ⟨d, meter, left, received⟩
    refine ⟨d, meter, left, ?_⟩
    cases r with
    | ok file =>
      obtain ⟨result, rfl, more, readable⟩ := received
      exact ⟨by rw [result]; rfl, more, readable⟩
    | error e =>
      obtain ⟨result, nodes⟩ := received
      exact ⟨by rw [result]; rfl, nodes⟩

/-- a stream that is closed without trouble is received as it was staged -/
theorem receive_whole (closable : s.closeFails = false) (harmless : s.clearsStaging = false) (events : List Event) :
    (receive site s).Ends serve (fun r t _ => ∃ d meter, t = w.elsewhere d meter w.output ∧
      Received site s.reading.content w.disk d r) w events := by
  rw [receive_eq, Prog.ends_bind, Prog.ends_attempt]
  refine (staging_whole tidy staged made whole events).mono ?_
  intro r t more ⟨d, meter, left, received⟩
  subst left
  have reply : serve (.close s) (w.elsewhere d meter w.output) =
      (.ok (), w.elsewhere d { meter with closes := meter.closes + 1 } w.output) := by
    simp only [serve, close, closable, harmless]
    rfl
  dsimp only
  rw [Op.ends_ask_bind, reply]
  show (Prog.ofExcept r : Op Upload.LocalFile).Ends _ _ _ _
  rw [Prog.ends_ofExcept]
  exact ⟨d, _, rfl, received⟩

/-- **An upload of a stream comes to the upload of its bytes,** and leaves the disk as it was. -/
theorem add_upload (closable : s.closeFails = false) (harmless : s.clearsStaging = false) (space : String)
    (ns : Option String) (name : String) :
    (add site space ns name s).Ends serve (fun r t _ =>
      r = (w.run (upload site space ns name s.reading.content)).outcome ∧
      ∃ d meter, t = (w.run (upload site space ns name s.reading.content)).state.elsewhere d meter w.output ∧
        d.nodes = w.disk.nodes) w [] := by
  unfold add
  apply (receive_whole tidy staged made whole closable harmless []).bind
  · intro file t events ⟨d, meter, left, result, more, readable⟩
    subst left
    unfold upload
    rw [result]
    refine (stored_whole more readable space ns name events).mono ?_
    intro r t _ ⟨outcome, d', kept, nodes⟩
    exact ⟨outcome, d', meter, kept, nodes⟩
  · intro e t events ⟨d, meter, left, result, nodes⟩
    refine ⟨?_, d, meter, ?_, nodes⟩
    · unfold upload
      rw [result]
      rfl
    · unfold upload
      rw [result]
      exact left

end Whole

end Files

/-- **Uploads of streams and of local files are alike.** Let a stream be read and closed without trouble, let there be
room for a temporary file, and let a local file hold what the stream gives. From worlds that agree in all but their disks,
the use of streams and the output, whatever strikes the bucket and the database and whatever the algorithm is, both uploads
give the same entry or the same failure, and leave worlds that agree so. The first leaves its disk as it was, without the
temporary file, and the second does not touch its disk. -/
theorem uploads_agree (site : Site) (space : String) (ns : Option String) (name : String) (s : Stream)
    (path folder : Disk.Path) (w v : World) (whole : s.reading.ending = .finished) (closable : s.closeFails = false)
    (harmless : s.clearsStaging = false) (staged : site.stagingFolder = some folder)
    (room : ∃ new, w.disk.createTemporary folder = .ok new) (tidy : w.disk.Tidy) (alike : World.Alike w v)
    (there : v.disk.read path = .ok s.reading.content) :
    let streamed := w.run (Files.add site space ns name s)
    let copied := v.run (Files.addExisting site space ns name path)
    copied.outcome = streamed.outcome ∧ World.Alike streamed.state copied.state ∧
      streamed.state.disk.nodes = w.disk.nodes ∧ copied.state.disk = v.disk := by
  intro streamed copied
  obtain ⟨⟨_, _⟩, made⟩ := room
  have unbroken : s.reading.breakage? = none := by rw [Reading.breakage?, whole]
  have ends := Files.add_upload tidy staged made unbroken closable harmless space ns name
  obtain ⟨outcome, d, meter, left, nodes⟩ := (Prog.ends_iff _ _ _ _).1 ends
  have bytes : copied = v.run (Files.upload site space ns name s.reading.content) := Files.addExisting_upload there []
  obtain ⟨outcome', left'⟩ :=
    Files.run_elsewhere (Files.only_upload site space ns name s.reading.content) w v.disk v.meter v.output
  rw [← alike.eq_elsewhere, ← bytes] at outcome' left'
  have streamedLeft : streamed.state = _ := left
  rw [streamedLeft, left']
  exact ⟨outcome'.trans outcome.symm, World.alike_elsewhere .., nodes, rfl⟩

def refusedRow : World :=
  { World.fresh with strikes := [⟨⟨.insertFiles, .database⟩, 0, some 1⟩] }

/-- the same, with a file on the disk -/
def refusedRowBeside : World :=
  { refusedRow with disk := Disk.fresh.put [.given "a.txt"] (.file ⟨#[97, 98, 99]⟩) }

theorem uploads_agree_refusedRow :
    let streamed := refusedRow.run (Files.add (.standard .top) "s" none "a.txt" inTwoReads)
    let copied := refusedRowBeside.run (Files.addExisting (.standard .top) "s" none "a.txt" ⟨[.given "a.txt"]⟩)
    copied.outcome = streamed.outcome ∧ streamed.outcome = .error (.storage (.insertEntry "id-0001") .database) ∧
      copied.state.bucket = streamed.state.bucket ∧ streamed.state.disk.nodes = Disk.fresh.nodes := by
  intro streamed copied
  have there : refusedRowBeside.disk.read ⟨[.given "a.txt"]⟩ = .ok inTwoReads.reading.content := by decide +kernel
  have alike : World.Alike refusedRow refusedRowBeside := ⟨⟨⟨rfl, rfl⟩, rfl, rfl, rfl, rfl, rfl, rfl⟩, rfl, rfl⟩
  have room : ∃ new, refusedRow.disk.createTemporary .staging = .ok new := ⟨_, rfl⟩
  obtain ⟨same, stores, nodes, -⟩ := uploads_agree (.standard .top) "s" none "a.txt" inTwoReads ⟨[.given "a.txt"]⟩ .staging
    refusedRow refusedRowBeside rfl rfl rfl rfl room Disk.tidy_fresh alike there
  exact ⟨same, by decide +kernel, stores.bucket, nodes⟩

end Depot
