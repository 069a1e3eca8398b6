/-
What an upload leaves in the staging folder.

An upload of a stream makes a temporary file and removes it again, whether or not the content can be stored. The name
of the file is new on a `Tidy` disk, which every run keeps (`run_tidy`), so after its removal the disk holds what it held
before. At two places nobody takes care of the file (`Files.Abandons`): while it is filled, where only exceptions are
handled and not an interruption, and between the end of staging and the start of storing, where the stream is closed. It
stays just if the one or the other happens (`add_leaves_staged_iff`). The stream is closed once on every path.
-/
import Depot.Proofs.Calls
import Depot.Proofs.Undigested
import Depot.Proofs.Uploads

namespace Depot

namespace Disk

variable {d d' : Disk} {p folder : Path} {place : List Name} {content : ByteArray}

/-! ## Temporary files -/

/-- no name of a temporary file to come is taken -/
def Tidy (d : Disk) : Prop :=
  ∀ x ∈ d.nodes, ∀ n, x.1.getLast? = some (.temporary n) → n < d.serial

theorem tidy_fresh : fresh.Tidy := by
  simp [Tidy, fresh, Path.staging]

theorem Tidy.mono (h : d.Tidy) (serial : d'.serial = d.serial) (places : ∀ x ∈ d'.nodes, ∃ y ∈ d.nodes, y.1 = x.1) :
    d'.Tidy := by
  intro x hx n last
  obtain ⟨y, hy, same⟩ := places x hx
  rw [serial]
  exact h y hy n (same ▸ last)

theorem follow_at {above names : List Name} {found : Option Node} (h : d.follow above names = .ok (place, found)) :
    found = d.at? place := by
  induction names generalizing above with
  | nil =>
    rw [follow] at h
    cases h
    rfl
  | cons n names ih =>
    rw [follow] at h
    split at h
    · cases h
    · cases h
    · split at h
      · cases h
      · exact ih h

theorem mem_of_find (found : d.find p = .ok (place, some (.file content))) : ∃ x ∈ d.nodes, x.1 = place := by
  have there := follow_at (find_ok found).2
  unfold at? at there
  split at there
  · cases there
  · obtain ⟨before, later, nodes, -⟩ := List.lookup_eq_some_iff.1 there.symm
    exact ⟨(place, .file content), by simp [nodes], rfl⟩

/-- a new temporary file takes the next name -/
theorem Tidy.createTemporary (h : d.Tidy) (made : d.createTemporary folder = .ok (p, d')) : d'.Tidy := by
  obtain ⟨path, rfl, -⟩ := find_temporary made
  intro x hx n last
  rcases List.mem_append.1 (show x ∈ d.nodes.filter _ ++ _ from hx) with old | new
  · have before := h x (List.mem_of_mem_filter old) n last
    exact Nat.lt_succ_of_lt before
  · rw [List.mem_singleton.1 new, path] at last
    obtain rfl : d.serial = n := by simpa [Path.child] using last
    exact Nat.lt_succ_self _

theorem Tidy.write (h : d.Tidy) (p : Path) (content : ByteArray) : (d.write p content).Tidy := by
  unfold Disk.write
  split
  · rename_i place old found
    have serial : (d.put place (.file content)).serial = d.serial := rfl
    apply h.mono serial
    intro x hx
    rcases List.mem_append.1 (show x ∈ d.nodes.filter _ ++ _ from hx) with kept | new
    · exact ⟨x, List.mem_of_mem_filter kept, rfl⟩
    · rw [List.mem_singleton.1 new]
      exact mem_of_find found
  · exact h

theorem Tidy.remove (h : d.Tidy) (removed : d.remove p = .ok d') : d'.Tidy := by
  unfold Disk.remove at removed
  split at removed
  · cases removed
    exact h
  · cases removed
  · cases removed
    exact h
  · cases removed
  · cases removed
    exact h.mono rfl fun x hx => ⟨x, List.mem_of_mem_filter hx, rfl⟩

theorem Tidy.clear (h : d.Tidy) (folder : Path) : (d.clear folder).Tidy :=
  h.mono rfl fun x hx => ⟨x, List.mem_of_mem_filter hx, rfl⟩

/-- a disk is another one with a file more, which a path leads to -/
structure With (d : Disk) (p : Path) (d' : Disk) : Prop where
  new : ∀ x ∈ d.nodes, x.1 ≠ p.names
  straight : Straight p.names
  file : ∃ content, d'.nodes = d.nodes ++ [(p.names, .file content)] ∧
    d'.find p = .ok (p.names, some (.file content))

theorem filter_new (new : ∀ x ∈ d.nodes, x.1 ≠ place) : d.nodes.filter (fun x => decide (x.1 ≠ place)) = d.nodes := by
  apply List.filter_eq_self.2
  intro x hx
  exact decide_eq_true (new x hx)

theorem with_temporary (tidy : d.Tidy) (made : d.createTemporary folder = .ok (p, d')) : d.With p d' := by
  obtain ⟨path, disk, found⟩ := find_temporary made
  have new : ∀ x ∈ d.nodes, x.1 ≠ p.names := by
    intro x hx same
    have last : x.1.getLast? = some (.temporary d.serial) := by
      rw [same, path]
      simp [Path.child]
    exact absurd (tidy x hx d.serial last) (lt_irrefl _)
  refine ⟨new, ?_, ByteArray.empty, ?_, found⟩
  · rw [path]
    exact straight_temporary folder d.serial
  · rw [disk]
    show d.nodes.filter (fun x => decide (x.1 ≠ p.names)) ++ _ = _
    rw [filter_new new]

namespace With

theorem not_above (h : d.With p d') : Path.isAbove p.names = false := by
  obtain ⟨content, -, found⟩ := h.file
  have there := (find_straight h.straight found).2
  unfold at? at there
  split at there
  · cases there
  · rename_i below
    simpa using below

theorem write (h : d.With p d') (content : ByteArray) : d.With p (d'.write p content) := by
  obtain ⟨old, nodes, found⟩ := h.file
  refine ⟨h.new, h.straight, content, ?_, ?_⟩
  · rw [Disk.write, found]
    show d'.nodes.filter (fun x => decide (x.1 ≠ p.names)) ++ _ = _
    rw [nodes, List.filter_append, filter_new h.new]
    simp
  · rw [Disk.write, found]
    exact read_put h.straight h.not_above found content

theorem remove (h : d.With p d') : ∃ d'', d'.remove p = .ok d'' ∧ d''.nodes = d.nodes := by
  obtain ⟨content, nodes, found⟩ := h.file
  refine ⟨d'.drop p.names, by rw [Disk.remove, found], ?_⟩
  show d'.nodes.filter (fun x => decide (x.1 ≠ p.names)) = _
  rw [nodes, List.filter_append, filter_new h.new]
  simp

end With

theorem remove_absent (straight : Straight p.names) (absent : ∀ x ∈ d.nodes, x.1 ≠ p.names)
    (removed : d.remove p = .ok d') : d'.nodes = d.nodes := by
  unfold remove at removed
  split at removed
  · cases removed
    rfl
  · cases removed
  · cases removed
    rfl
  · cases removed
  · rename_i place content found
    cases removed
    rw [(find_straight straight found).1]
    exact filter_new absent

/-! ## A folder that is emptied -/

/-- emptying a folder takes what stands at a place -/
def Takes (folder : Path) (place : List Name) : Prop :=
  folder.names <+: place ∧ place ≠ folder.names

instance (folder : Path) (place : List Name) : Decidable (Takes folder place) :=
  inferInstanceAs (Decidable (_ ∧ _))

theorem clear_nodes (d : Disk) (folder : Path) :
    (d.clear folder).nodes = d.nodes.filter fun x => decide ¬Takes folder x.1 := by
  apply List.filter_congr
  intro x _
  have takes : (folder.names.isPrefixOf x.1 && x.1 != folder.names) = decide (Takes folder x.1) := by
    rw [Bool.eq_iff_iff, decide_eq_true_iff]
    simp [Takes]
  show (!(folder.names.isPrefixOf x.1 && x.1 != folder.names)) = _
  rw [takes, decide_not]

theorem at?_clear_of_kept (kept : ¬Takes folder place) : (d.clear folder).at? place = d.at? place := by
  unfold at?
  split
  · rfl
  · rw [clear_nodes, lookup_filter (p := fun q => decide ¬Takes folder q)]
    simp [kept]

theorem not_takes_of_prefix {upper : List Name} (kept : ¬Takes folder place) (cut : upper <+: place) :
    ¬Takes folder upper := by
  intro ⟨below, other⟩
  apply kept
  refine ⟨below.trans cut, ?_⟩
  rintro rfl
  exact other (cut.eq_of_length (le_antisymm cut.length_le below.length_le))

theorem follow_clear (above : List Name) {names : List Name} (straight : Straight (above ++ names))
    (kept : ¬Takes folder (above ++ names)) : (d.clear folder).follow above names = d.follow above names := by
  induction names generalizing above with
  | nil =>
    rw [List.append_nil] at kept
    rw [follow, follow, at?_clear_of_kept kept]
  | cons n names ih =>
    have down : Path.step above n = above ++ [n] := straight above n ⟨names, by simp⟩
    have here := not_takes_of_prefix kept (List.prefix_append above (n :: names))
    have shape : above ++ n :: names = above ++ [n] ++ names := by simp
    rw [shape] at straight kept
    rw [follow, follow, at?_clear_of_kept here, down, ih _ straight kept]

namespace With

theorem clear_kept (h : d.With p d') (kept : ¬Takes folder p.names) : (d.clear folder).With p (d'.clear folder) := by
  obtain ⟨content, nodes, found⟩ := h.file
  refine ⟨?_, h.straight, content, ?_, ?_⟩
  · intro x hx
    exact h.new x (List.mem_of_mem_filter hx)
  · rw [clear_nodes, clear_nodes, nodes, List.filter_append]
    simp [kept]
  · obtain ⟨checked, followed⟩ := find_ok found
    rw [find_of_follow checked, follow_clear [] (by simpa using h.straight) (by simpa using kept), followed]

theorem clear_taken (h : d.With p d') (taken : Takes folder p.names) :
    (d'.clear folder).nodes = (d.clear folder).nodes ∧ ∀ x ∈ (d.clear folder).nodes, x.1 ≠ p.names := by
  obtain ⟨content, nodes, -⟩ := h.file
  constructor
  · rw [clear_nodes, clear_nodes, nodes, List.filter_append]
    simp [taken]
  · intro x hx
    exact h.new x (List.mem_of_mem_filter hx)

end With

end Disk

/-! ## Calls -/

/-- a call that neither changes the disk nor closes a stream -/
def Call.KeepsDisk : Call → Prop
  | .createTemporary _ | .writeFile .. | .removeFile _ | .close _ => False
  | _ => True

namespace World

variable {w t u : World} {s : Stream} {events : List Event}

/-- the disk is the same, and streams were closed as often -/
structure SameDisk (w t : World) : Prop where
  disk : t.disk = w.disk
  closes : t.meter.closes = w.meter.closes

theorem SameDisk.refl (w : World) : SameDisk w w := ⟨rfl, rfl⟩

theorem SameDisk.trans (h : SameDisk w t) (h' : SameDisk t u) : SameDisk w u :=
  ⟨h'.disk.trans h.disk, h'.closes.trans h.closes⟩

theorem serve_keepsDisk {c : Call} (h : c.KeepsDisk) (w : World) : SameDisk w (serve c w).2 := by
  have strikes : ∀ t strikes, SameDisk w t → SameDisk w { t with strikes := strikes } := fun _ _ h => ⟨h.disk, h.closes⟩
  cases c with
  | putObject | deleteObject | deleteObjects =>
    exact request_keeps strikes _ _ (fun b t ht => ⟨ht.disk, ht.closes⟩) (.refl w)
  | getObject | headObject =>
    refine request_keeps strikes _ _ (fun b t ht => ?_) (.refl w)
    split <;> exact ⟨ht.disk, ht.closes⟩
  | listObjects => exact request_keeps strikes _ _ (fun b t ht => ht) (.refl w)
  | selectFiles | countFiles | pageFiles | selectExecutions | countExecutions | pageExecutions =>
    exact statement_keeps strikes _ (fun t ht => ht) (.refl w)
  | insertFile e =>
    refine statement_keeps strikes _ (fun t ht => ?_) (.refl w)
    unfold insertFile
    split <;> exact ⟨ht.disk, ht.closes⟩
  | deleteFiles q =>
    refine statement_keeps strikes _ (fun t ht => ?_) (.refl w)
    unfold deleteFiles
    dsimp only
    split <;> exact ⟨ht.disk, ht.closes⟩
  | deleteExecution id => exact deleteExecution_keeps strikes (fun _ _ h => ⟨h.disk, h.closes⟩) id (.refl w)
  | now | drain | closeContent | readFile | print => exact ⟨rfl, rfl⟩
  | freshId =>
    unfold serve freshId
    split <;> exact ⟨rfl, rfl⟩
  | createTemporary | writeFile | removeFile | close => exact h.elim

/-- **No call takes the name of a temporary file to come.** -/
theorem serve_tidy (c : Call) (tidy : w.disk.Tidy) : (serve c w).2.disk.Tidy := by
  by_cases keeps : c.KeepsDisk
  · rw [(serve_keepsDisk keeps w).disk]
    exact tidy
  cases c with
  | createTemporary folder =>
    simp only [serve]
    split
    · rename_i path disk made
      exact tidy.createTemporary made
    · exact tidy
  | writeFile path content => exact tidy.write path content
  | removeFile path =>
    simp only [serve]
    split
    · rename_i disk removed
      exact tidy.remove removed
    · exact tidy
  | close s =>
    show (if s.clearsStaging then w.disk.clear .staging else w.disk).Tidy
    split
    · exact tidy.clear .staging
    · exact tidy
  | _ => exact absurd trivial keeps

/-- **No run does.** -/
theorem run_tidy {α : Type} (p : Op α) (tidy : w.disk.Tidy) : (w.run p).state.disk.Tidy := by
  have ends : p.Ends serve (fun _ (t : World) _ => t.disk.Tidy) w [] :=
    (Prog.only_any (fun _ => trivial) p).keeps (J := fun (t : World) => t.disk.Tidy) (fun c t _ ht => serve_tidy c ht) tidy
  exact (Prog.ends_iff _ _ _ _).1 ends

end World

/-! ## Uploads -/

namespace Upload

open World

variable {w t : World} {events : List Event} {s : Stream}

/-- after a temporary file is removed the disk holds what it holds without it, also if it is no longer there -/
theorem removeStaged_nodes {path : Disk.Path} {nodes : List (List Disk.Name × Disk.Node)}
    (removed : ∀ d, w.disk.remove path = .ok d → d.nodes = nodes)
    (failed : ∀ trouble, w.disk.remove path = .error trouble → w.disk.nodes = nodes) :
    (removeStaged path).Ends serve (fun _ t _ => t.meter.closes = w.meter.closes ∧ t.disk.nodes = nodes) w events := by
  unfold removeStaged
  rw [Op.ends_ask_bind]
  cases outcome : w.disk.remove path with
  | ok disk =>
    have reply : serve (.removeFile path) w = (.ok (), { w with disk := disk }) := by simp only [serve, outcome]
    rw [reply]
    exact ⟨rfl, removed disk outcome⟩
  | error trouble =>
    have reply : serve (.removeFile path) w = (.error (.file trouble path), w) := by simp only [serve, outcome]
    have same := failed trouble outcome
    rw [reply]
    dsimp only
    split
    · exact ⟨rfl, same⟩
    · exact ⟨rfl, same⟩

theorem removeStaged_with {path : Disk.Path} {d : Disk} (more : d.With path w.disk) :
    (removeStaged path).Ends serve (fun _ t _ => t.meter.closes = w.meter.closes ∧ t.disk.nodes = d.nodes) w events := by
  obtain ⟨left, removed, nodes⟩ := more.remove
  apply removeStaged_nodes
  · intro d' ok
    rw [← Except.ok.inj (removed.symm.trans ok), nodes]
  · intro trouble error
    cases removed.symm.trans error

/-- a file more is filled and stays one more; that is interrupted just if reading is, for an algorithm that exists -/
theorem fill_disk {path : Disk.Path} {d : Disk} (more : d.With path w.disk) (name : String) :
    (fill path s name).Ends serve (fun r t _ => t.meter.closes = w.meter.closes ∧ d.With path t.disk ∧
      ((∃ e, r = .ok (.interrupted e)) ↔ (∃ a, Digest.algorithmOf name = .ok a) ∧ s.reading.interrupted = true)) w
      events := by
  unfold fill
  cases known : Digest.algorithmOf name with
  | error failure => exact ⟨rfl, more, by simp⟩
  | ok a =>
    have drained : serve (.drain s) w = (s.reading, (w.drain s).2) := rfl
    rw [Prog.ofExcept_ok_bind, Op.ends_ask_bind, drained, Op.ends_ask_bind]
    dsimp only
    have written := more.write (Digest.copy s.reading.ending none s.reading.pieces).written
    cases reading : s.reading.interrupted with
    | true =>
      have fits : s.reading.Fits none := nofun
      obtain ⟨text, breaks⟩ := Reading.breakage?_of_interrupted reading
      rw [Digest.result_of_broken fits breaks]
      exact ⟨rfl, written, by simp⟩
    | false =>
      split
      · exact ⟨rfl, written, by simp⟩
      · exact ⟨rfl, written, by simp⟩

/-- staging a stream is interrupted once its file at a path was made: its algorithm exists, and a read is interrupted -/
structure Interrupted (s : Stream) (name : String) (folder : Disk.Path) (w : World) (path : Disk.Path) : Prop where
  made : ∃ d, w.disk.createTemporary folder = .ok (path, d)
  known : ∃ a, Digest.algorithmOf name = .ok a
  reading : s.reading.interrupted = true

/-- what staging leaves of a disk, where it may have been interrupted with a file made at some path -/
inductive Leaves (interrupted : Disk.Path → Prop) (d d' : Disk) : Except Failure LocalFile → Prop
  | staged {file : LocalFile} (more : d.With file.path d') (never : ∀ path, ¬interrupted path) :
    Leaves interrupted d d' (.ok file)
  | removed {e : Failure} (same : d'.nodes = d.nodes) (never : ∀ path, ¬interrupted path) :
    Leaves interrupted d d' (.error e)
  | left {e : Failure} {path : Disk.Path} (h : interrupted path) (more : d.With path d') :
    Leaves interrupted d d' (.error e)

/-- a stream is staged in a file more, or the disk holds what it held, unless staging was interrupted -/
theorem stage_disk (tidy : w.disk.Tidy) (s : Stream) (algorithm : String) (folder : Disk.Path) :
    (stage s algorithm folder).Ends serve (fun r t _ => t.meter.closes = w.meter.closes ∧
      Leaves (Interrupted s algorithm folder w) w.disk t.disk r) w events := by
  unfold stage
  rw [Op.ends_ask_bind]
  cases made : w.disk.createTemporary folder with
  | error trouble =>
    have reply : serve (.createTemporary folder) w = (.error (.file trouble folder), w) := by simp only [serve, made]
    have never : ∀ path, ¬Interrupted s algorithm folder w path := by
      intro path h
      obtain ⟨d, there⟩ := h.made
      cases made.symm.trans there
    rw [reply]
    exact ⟨rfl, .removed rfl never⟩
  | ok new =>
    obtain ⟨path, disk⟩ := new
    have reply : serve (.createTemporary folder) w = (.ok path, { w with disk := disk }) := by simp only [serve, made]
    have more := Disk.with_temporary tidy made
    rw [reply]
    dsimp only
    rw [Prog.ends_bind, Prog.ends_attempt]
    refine (fill_disk (w := { w with disk := disk }) more algorithm).mono ?_
    intro r t events' ⟨closes, filled, interrupted⟩
    have never : (∀ e, r ≠ .ok (.interrupted e)) → ∀ path, ¬Interrupted s algorithm folder w path := by
      intro other path h
      obtain ⟨e, same⟩ := interrupted.2 ⟨h.known, h.reading⟩
      exact other e same
    cases r with
    | ok left =>
      cases left with
      | whole size digest => exact ⟨closes, .staged filled (never nofun)⟩
      | interrupted e =>
        obtain ⟨known, reading⟩ := interrupted.1 ⟨e, rfl⟩
        exact ⟨closes, .left ⟨⟨disk, made⟩, known, reading⟩ filled⟩
    | error failure =>
      refine (removeStaged_with filled).bind ?_ ?_
      · intro _ u more ⟨closes', nodes⟩
        exact ⟨closes'.trans closes, .removed nodes (never nofun)⟩
      · intro _ u more ⟨closes', nodes⟩
        exact ⟨closes'.trans closes, .removed nodes (never nofun)⟩

end Upload

namespace Files

open World

variable {w : World} {events : List Event} {site : Site} {s : Stream}

/-- the stream of an upload as a temporary file, before it is closed -/
def staging (site : Site) (s : Stream) : Op Upload.LocalFile := do
  let algorithm ← setting site.digestAlgorithm
  let folder ← setting site.stagingFolder
  Upload.stage s algorithm folder

theorem receive_eq (site : Site) (s : Stream) : receive site s = (staging site s).attempt >>= fun staged =>
    Op.ask (.close s) >>= fun reply => Prog.ofReply reply >>= fun _ => Prog.ofExcept staged := rfl

/-- staging the stream of an upload is interrupted once its file at a path was made -/
def Interrupted (site : Site) (s : Stream) (w : World) (path : Disk.Path) : Prop :=
  ∃ name ∈ site.digestAlgorithm, ∃ folder ∈ site.stagingFolder, Upload.Interrupted s name folder w path

theorem Interrupted.eq {p q : Disk.Path} (hp : Interrupted site s w p) (hq : Interrupted site s w q) : q = p := by
  obtain ⟨-, -, folder, set, ⟨d, made⟩, -, -⟩ := hp
  obtain ⟨-, -, folder', set', ⟨d', made'⟩, -, -⟩ := hq
  obtain rfl : folder = folder' := Option.some.inj (set.symm.trans set')
  cases made.symm.trans made'
  rfl

theorem staging_disk (tidy : w.disk.Tidy) (site : Site) (s : Stream) : (staging site s).Ends serve (fun r t _ =>
    t.meter.closes = w.meter.closes ∧ Upload.Leaves (Interrupted site s w) w.disk t.disk r) w events := by
  have unset : site.digestAlgorithm = none ∨ site.stagingFolder = none → ∀ path, ¬Interrupted site s w path := by
    intro missing path ⟨name, digests, folder, stages, _⟩
    rcases missing with missing | missing
    · cases missing.symm.trans digests
    · cases missing.symm.trans stages
  unfold staging
  cases digests : site.digestAlgorithm with
  | none => exact ⟨rfl, .removed rfl (unset (.inl digests))⟩
  | some name =>
    cases stages : site.stagingFolder with
    | none => exact ⟨rfl, .removed rfl (unset (.inr stages))⟩
    | some folder =>
      have same : Interrupted site s w = Upload.Interrupted s name folder w := by
        funext path
        simp [Interrupted, digests, stages]
      rw [same]
      exact Upload.stage_disk tidy s name folder

/-- what closing a stream leaves of a disk -/
def closed (s : Stream) (d : Disk) : Disk :=
  if s.clearsStaging then d.clear .staging else d

/-- nobody takes care of the staged file of an upload: its stream was staged and cannot be closed, or staging it was
interrupted -/
inductive Abandons (site : Site) (s : Stream) (w : World) : Disk.Path → Prop
  | unclosed {file : Upload.LocalFile} (staged : (w.run (staging site s)).outcome = .ok file)
    (fails : s.closeFails = true) : Abandons site s w file.path
  | interrupted {path : Disk.Path} (h : Interrupted site s w path) : Abandons site s w path

/-- a staged file that nobody takes care of stays, since closing the stream does not take it away either -/
structure Stays (site : Site) (s : Stream) (w : World) (path : Disk.Path) : Prop where
  abandoned : Abandons site s w path
  kept : ¬(s.clearsStaging = true ∧ Disk.Takes .staging path.names)

/-- the disk once a stream was staged and closed: the staged file is one more unless closing took it -/
theorem closed_with {d d' : Disk} {path : Disk.Path} (more : d.With path d') :
    (¬(s.clearsStaging = true ∧ Disk.Takes .staging path.names) → (closed s d).With path (closed s d')) ∧
    (s.clearsStaging = true ∧ Disk.Takes .staging path.names →
      (closed s d').nodes = (closed s d).nodes ∧ ∀ x ∈ (closed s d).nodes, x.1 ≠ path.names) := by
  unfold closed
  cases s.clearsStaging with
  | false => exact ⟨fun _ => more, fun h => by cases h.1⟩
  | true =>
    constructor
    · intro kept
      exact more.clear_kept fun taken => kept ⟨rfl, taken⟩
    · intro ⟨_, taken⟩
      exact more.clear_taken taken

/-- closing the stream leaves one file more than it would have left without the staged one, unless it takes that one -/
theorem closed_nodes_iff {d d' : Disk} {path : Disk.Path} (more : d.With path d') :
    (closed s d').nodes = (closed s d).nodes ↔ s.clearsStaging = true ∧ Disk.Takes .staging path.names := by
  obtain ⟨kept, taken⟩ := closed_with (s := s) more
  constructor
  · intro same
    by_contra stays
    obtain ⟨content, nodes, -⟩ := (kept stays).file
    have lengths := congrArg List.length (nodes.symm.trans same)
    simp at lengths
  · intro gone
    exact (taken gone).1

theorem closed_nodes {d d' : Disk} (same : d'.nodes = d.nodes) : (closed s d').nodes = (closed s d).nodes := by
  unfold closed
  split
  · rw [Disk.clear_nodes, Disk.clear_nodes, same]
  · exact same

theorem only_store (space : String) (ns : Option String) (name : String) (file : Upload.LocalFile) :
    (store site space ns name file).Only Call.KeepsDisk := by
  unfold store
  refine (Op.only_ask trivial).bind fun id => (Op.only_ask trivial).bind fun modified =>
    (Op.only_ask trivial).bind fun reply => ?_
  split
  · exact .fail _
  · have put : ∀ (e : Entry) (content : ByteArray), (Content.put site e content).Only Call.KeepsDisk := by
      intro e content
      unfold Content.put
      refine (Prog.only_ofExcept _).bind fun key => Prog.Only.bind (Op.only_account ?_) fun _ => Prog.only_record _
      exact (Prog.only_record _).bind fun _ => (Op.only_ask trivial).bind fun reply => Prog.only_ofReply _
    refine (put _ _).bind fun _ => Prog.Only.bind (Op.only_account ?_) fun _ =>
      (Prog.only_record _).bind fun _ => Prog.only_pure _
    exact (only_inUtc _).bind fun utc => (Op.only_ask trivial).bind fun reply => Prog.only_ofReply _

/-- where no staged file is abandoned, none stays -/
theorem closed_nodes_of_never {d : Disk} (same : d.nodes = w.disk.nodes) (never : ∀ path, ¬Abandons site s w path) :
    (closed s d).nodes = (closed s w.disk).nodes ↔ ¬∃ path, Stays site s w path := by
  refine iff_of_true (closed_nodes same) ?_
  intro ⟨path, stays⟩
  exact never path stays.abandoned

/-- where one staged file is abandoned, it stays unless closing the stream takes it -/
theorem closed_nodes_of_abandons {d : Disk} {path : Disk.Path} (more : w.disk.With path d)
    (abandons : Abandons site s w path) (only : ∀ q, Abandons site s w q → q = path) :
    (closed s d).nodes = (closed s w.disk).nodes ↔ ¬∃ path, Stays site s w path := by
  refine (closed_nodes_iff more).trans ?_
  constructor
  · intro taken ⟨q, stays⟩
    obtain rfl := only q stays.abandoned
    exact stays.kept taken
  · intro never
    by_contra kept
    exact never ⟨path, abandons, kept⟩

/-- staging that fails leaves its file just if it was interrupted and closing the stream spares the file -/
theorem closed_nodes_of_failed {d : Disk} {e : Failure}
    (leaves : Upload.Leaves (Interrupted site s w) w.disk d (.error e))
    (outcome : (w.run (staging site s)).outcome = .error e) :
    (closed s d).nodes = (closed s w.disk).nodes ↔ ¬∃ path, Stays site s w path := by
  cases leaves with
  | removed nodes never =>
    apply closed_nodes_of_never nodes
    intro path abandons
    cases abandons with
    | unclosed staged => cases outcome.symm.trans staged
    | interrupted h => exact never path h
  | left h more =>
    apply closed_nodes_of_abandons more (.interrupted h)
    intro q abandons
    cases abandons with
    | unclosed staged => cases outcome.symm.trans staged
    | interrupted h' => exact h.eq h'

theorem closed_nodes_of_unclosed {d : Disk} {file : Upload.LocalFile}
    (leaves : Upload.Leaves (Interrupted site s w) w.disk d (.ok file))
    (outcome : (w.run (staging site s)).outcome = .ok file) (fails : s.closeFails = true) :
    (closed s d).nodes = (closed s w.disk).nodes ↔ ¬∃ path, Stays site s w path := by
  obtain ⟨more, never⟩ := leaves
  apply closed_nodes_of_abandons more (.unclosed outcome fails)
  intro q abandons
  cases abandons with
  | unclosed staged => rw [Except.ok.inj (outcome.symm.trans staged)]
  | interrupted h => exact absurd h (never q)

theorem never_stays {d : Disk} {file : Upload.LocalFile}
    (leaves : Upload.Leaves (Interrupted site s w) w.disk d (.ok file)) (closes : s.closeFails = false) :
    ¬∃ path, Stays site s w path := by
  obtain ⟨-, never⟩ := leaves
  intro ⟨path, abandoned, _⟩
  cases abandoned with
  | unclosed _ fails => cases closes.symm.trans fails
  | interrupted h => exact never path h

/-- an upload that does not get past its staging leaves the disk as closing the stream does, unless a staged file stays -/
theorem receive_disk (tidy : w.disk.Tidy) (site : Site) (s : Stream) : (receive site s).Ends serve (fun r t _ =>
    t.meter.closes = w.meter.closes + 1 ∧ match r with
      | .ok file => (¬∃ path, Stays site s w path) ∧ ∃ d, w.disk.With file.path d ∧ t.disk = closed s d
      | .error _ => t.disk.nodes = (closed s w.disk).nodes ↔ ¬∃ path, Stays site s w path) w [] := by
  have outcome : (staging site s).Ends serve (fun r _ _ => (w.run (staging site s)).outcome = r) w [] :=
    (Prog.ends_iff _ _ _ _).2 rfl
  rw [receive_eq, Prog.ends_bind, Prog.ends_attempt]
  refine ((staging_disk tidy site s).and outcome).mono ?_
  intro staged t events ⟨⟨closes, leaves⟩, outcome⟩
  have reply : serve (.close s) t = (if s.closeFails then .error .closeFailed else .ok (),
      { t with meter := { t.meter with closes := t.meter.closes + 1 }, disk := closed s t.disk }) := rfl
  dsimp only
  rw [Op.ends_ask_bind, reply]
  -- a failing close replaces how staging ended, but not what a failed staging leaves
  cases fails : s.closeFails with
  | false =>
    show (Prog.ofExcept staged : Op Upload.LocalFile).Ends _ _ _ _
    rw [Prog.ends_ofExcept]
    refine ⟨by rw [← closes], ?_⟩
    cases staged with
    | error e => exact closed_nodes_of_failed leaves outcome
    | ok file =>
      have never := never_stays leaves fails
      obtain ⟨more, -⟩ := leaves
      exact ⟨never, t.disk, more, rfl⟩
  | true =>
    refine ⟨by rw [← closes], ?_⟩
    cases staged with
    | error e => exact closed_nodes_of_failed leaves outcome
    | ok file => exact closed_nodes_of_unclosed leaves outcome fails

/-- an upload that gets past its staging removes the staged file, whatever becomes of storing it -/
theorem stored_disk {u : World} {file : Upload.LocalFile} {d : Disk} (more : w.disk.With file.path d)
    (disk : u.disk = closed s d) (space : String) (ns : Option String) (name : String) :
    ((store site space ns name file).attempt >>= fun stored => Upload.removeStaged file.path >>= fun _ =>
      Prog.ofExcept stored).Ends serve (fun _ t _ => t.meter.closes = u.meter.closes ∧
        t.disk.nodes = (closed s w.disk).nodes) u events := by
  obtain ⟨kept, taken⟩ := closed_with (s := s) more
  have keeps : (store site space ns name file).Ends serve (fun _ t _ => SameDisk u t) u events :=
    (only_store space ns name file).keeps (J := SameDisk u) (fun c t hc ht => ht.trans (serve_keepsDisk hc t)) (.refl u)
  rw [Prog.ends_bind, Prog.ends_attempt]
  refine keeps.mono ?_
  intro stored t events same
  have now : t.disk = closed s d := same.disk.trans disk
  have removes : (Upload.removeStaged file.path).Ends serve (fun _ v _ => v.meter.closes = t.meter.closes ∧
      v.disk.nodes = (closed s w.disk).nodes) t events := by
    by_cases gone : s.clearsStaging = true ∧ Disk.Takes .staging file.path.names
    · obtain ⟨nodes, absent⟩ := taken gone
      apply Upload.removeStaged_nodes
      · intro d' removed
        rw [now] at removed
        rw [Disk.remove_absent more.straight (by rwa [nodes]) removed, nodes]
      · intro trouble failed
        rw [now, nodes]
    · apply Upload.removeStaged_with
      rw [now]
      exact kept gone
  apply removes.bind
  · intro _ v events ⟨closes, nodes⟩
    rw [Prog.ends_ofExcept]
    exact ⟨closes.trans same.closes, nodes⟩
  · intro _ v events ⟨closes, nodes⟩
    exact ⟨closes.trans same.closes, nodes⟩

/-- **An upload leaves the disk as closing its stream does, unless a staged file stays.** -/
theorem add_disk (tidy : w.disk.Tidy) (site : Site) (space : String) (ns : Option String) (name : String) (s : Stream) :
    (add site space ns name s).Ends serve (fun _ t _ => t.meter.closes = w.meter.closes + 1 ∧
      (t.disk.nodes = (closed s w.disk).nodes ↔ ¬∃ path, Stays site s w path)) w [] := by
  unfold add
  apply (receive_disk tidy site s).bind
  · intro file u events ⟨closes, never, d, more, disk⟩
    refine (stored_disk more disk space ns name).mono ?_
    intro _ t _ ⟨closes', nodes⟩
    exact ⟨closes'.trans closes, iff_of_true nodes never⟩
  · intro failure u events h
    exact h

end Files

/-- **An upload leaves its staged file behind just if nobody takes care of it,** at two places: closing the stream fails
after it was staged, or a read is interrupted while it is staged. Whatever the stream gives, whatever strikes the bucket
and the database, and whether the upload returns or fails: the stream was closed once more, and the disk holds what closing
the stream leaves of what it held before, unless one of these two happened and closing the stream did not take the staged
file away. -/
theorem add_leaves_staged_iff (site : Site) (w : World) (space : String) (ns : Option String) (name : String) (s : Stream)
    (tidy : w.disk.Tidy) :
    (w.run (Files.add site space ns name s)).state.meter.closes = w.meter.closes + 1 ∧
    (w.run (Files.add site space ns name s)).state.disk.Tidy ∧
    ((w.run (Files.add site space ns name s)).state.disk.nodes = (Files.closed s w.disk).nodes ↔
      ¬∃ path, Files.Stays site s w path) := by
  obtain ⟨closes, disk⟩ := (Prog.ends_iff _ _ _ _).1 (Files.add_disk tidy site space ns name s)
  exact ⟨closes, World.run_tidy _ tidy, disk⟩

/-- a short stream that is read to its end, and whose closing fails -/
def unclosable : Stream :=
  ⟨⟨["abc".toUTF8], .finished⟩, false, true⟩

/-- a stream whose reading is interrupted after a few bytes, and that can be closed -/
def interruptible : Stream :=
  ⟨⟨["abc".toUTF8], .interrupted "stop"⟩, false, false⟩

/-- either of the two streams leaves its staged file in a folder that was empty -/
theorem add_leaves_staged_iff_fresh :
    Disk.fresh.Tidy ∧
    (World.fresh.run (Files.add (.standard .top) "s" none "a" unclosable)).state.disk.nodes ≠ Disk.fresh.nodes ∧
    (World.fresh.run (Files.add (.standard .top) "s" none "a" interruptible)).state.disk.nodes ≠ Disk.fresh.nodes := by
  have tidy : World.fresh.disk.Tidy := Disk.tidy_fresh
  refine ⟨tidy, fun same => ?_, fun same => ?_⟩
  · obtain ⟨-, -, left⟩ := add_leaves_staged_iff (.standard .top) World.fresh "s" none "a" unclosable tidy
    have staged : ∃ file, (World.fresh.run (Files.staging (.standard .top) unclosable)).outcome = .ok file :=
      ⟨_, rfl⟩
    obtain ⟨file, staged⟩ := staged
    exact left.1 same ⟨file.path, .unclosed staged rfl, fun taken => by cases taken.1⟩
  · obtain ⟨-, -, left⟩ := add_leaves_staged_iff (.standard .top) World.fresh "s" none "a" interruptible tidy
    have interrupted : Files.Interrupted (.standard .top) interruptible World.fresh _ :=
      ⟨_, rfl, _, rfl, ⟨_, rfl⟩, ⟨_, rfl⟩, rfl⟩
    exact left.1 same ⟨_, .interrupted interrupted, fun taken => by cases taken.1⟩

end Depot
