/-
What a fault of the bucket surfaces as.

A run that meets a fault of the bucket goes no further. `Prog.Blames` says this of a program: where it gives a value it
made no call that failed so, and where it fails after one, it fails as it is said to. It follows the program: a call hands
its fault on, an account takes it over, and all else passes (`Blames.ask`, `Op.blames_account`, `Blames.bind`).

Every operation of the file service accounts for every such fault, but for one: a failed transfer of a content that is
read. The reader knows two of the three classes of these faults, so this one leaves the service as it came in
(`bucket_faults_reported_iff`).
-/
import Depot.Proofs.Atomicity
import Depot.Proofs.History

namespace Depot

/-! ## Programs that blame a fault -/

namespace Prog

variable {I : Interface} {α β σ : Type} {serve : (c : I.Call) → σ → I.Reply c × σ}
  {kind : (c : I.Call) → I.Reply c → Prop} {D D' : Failure → Prop} {p : Prog I α} {seen : Prop} {s : σ}
  {events : List Event}

/-- a program that fails without another call, perhaps after some records -/
def Fails (failure : Failure) : Prog I α → Prop
  | .fail e => e = failure
  | .note _ next => next.Fails failure
  | _ => False

theorem Fails.ends {failure : Failure} {Q : Goal σ α} (h : p.Fails failure)
    (hQ : ∀ more, Q (.error failure) s more) : p.Ends serve Q s events := by
  induction p generalizing events with
  | fail e => exact h ▸ hQ events
  | note e next ih => exact ih h
  | done | call => exact h.elim

/-- a call of a kind was made only if the run failed as it is said to -/
def Blamed (D : Failure → Prop) : Goal (σ × Prop) α
  | .ok _, t, _ => ¬t.2
  | .error failure, t, _ => t.2 → D failure

/-- wherever a call of a kind is made, the run fails as it is said to -/
def Blames (serve : (c : I.Call) → σ → I.Reply c × σ) (kind : (c : I.Call) → I.Reply c → Prop) (D : Failure → Prop)
    (p : Prog I α) : Prop :=
  ∀ s events, p.Ends (watch serve kind) (Blamed D) (s, False) events

theorem Only.watch_eq (h : p.Only fun c => ∀ r, ¬kind c r) :
    p.Ends (watch serve kind) (fun _ t _ => t.2 = seen) (s, seen) events := by
  refine h.keeps (J := fun t : σ × Prop => t.2 = seen) (fun c t other same => ?_) rfl
  show (t.2 ∨ kind c _) = seen
  rw [same, eq_false (other _), or_false]

namespace Blames

theorem of_only (h : p.Only fun c => ∀ r, ¬kind c r) : p.Blames serve kind D := by
  intro s events
  refine (h.watch_eq).mono fun r t more quiet => ?_
  cases r with
  | ok a => exact fun noted => (quiet ▸ noted : False)
  | error failure => exact fun noted => (quiet ▸ noted : False).elim

theorem mono (h : p.Blames serve kind D) (sub : ∀ failure, D failure → D' failure) : p.Blames serve kind D' := by
  intro s events
  refine (h s events).mono fun r t more blamed => ?_
  cases r with
  | ok a => exact blamed
  | error failure => exact fun noted => sub failure (blamed noted)

theorem bind {f : α → Prog I β} (h : p.Blames serve kind D) (hf : ∀ a, (f a).Blames serve kind D) :
    (p >>= f).Blames serve kind D := by
  intro s events
  refine (h s events).bind (fun a t more quiet => ?_) (fun failure t more blamed => blamed)
  have unseen : t = (t.1, False) := Prod.ext rfl (eq_false quiet)
  rw [unseen]
  exact hf a t.1 more

/-- **A call** of the kind is told of by what follows at once. -/
theorem ask {c : I.Call} {f : I.Reply c → Prog I α} (hit : ∀ r, kind c r → ∃ failure, D failure ∧ (f r).Fails failure)
    (hf : ∀ r, (f r).Blames serve kind D) : (Prog.ask c >>= f).Blames serve kind D := by
  intro s events
  rw [ends_ask_bind]
  by_cases noted : kind c (serve c s).1
  · obtain ⟨failure, blamed, fails⟩ := hit _ noted
    exact fails.ends fun _ _ => blamed
  · have unseen : (watch serve kind c (s, False)).2 = ((serve c s).2, False) :=
      Prod.ext rfl (eq_false fun noted' => noted (noted'.resolve_left id))
    rw [unseen]
    exact hf _ _ _

theorem foldlM {γ : Type} {step : β → γ → Prog I β} (h : ∀ b x, (step b x).Blames serve kind D) (xs : List γ) (b : β) :
    (xs.foldlM step b).Blames serve kind D := by
  induction xs generalizing b with
  | nil => exact of_only (.done b)
  | cons x rest ih =>
    rw [List.foldlM_cons]
    exact (h b x).bind ih

theorem void (h : p.Blames serve kind D) : p.void.Blames serve kind D :=
  h.bind fun _ => of_only (only_pure _)

/-- **What is known of the failure of a run that makes a call of the kind.** -/
theorem outcome (h : p.Blames serve kind D) (made : p.Makes serve kind s) :
    ∃ failure, (p.run serve s).outcome = .error failure ∧ D failure := by
  have blamed := (ends_iff _ _ _ _).1 ((ends_watch p (Blamed D) s []).1 (h s []))
  change Blamed D (p.run serve s).outcome _ _ at blamed
  cases outcome : (p.run serve s).outcome with
  | ok a =>
    rw [outcome] at blamed
    exact absurd made blamed
  | error failure =>
    rw [outcome] at blamed
    exact ⟨failure, rfl, blamed made⟩

end Blames

end Prog

/-! ## Faults of the bucket -/

/-- a call to the bucket that fails with a fault -/
def Call.Struck (e : Endpoint) (f : Fault) : (c : Call) → c.Reply → Prop
  | .putObject .., r => e = .putObject ∧ r = .error f
  | .getObject _, r => e = .getObject ∧ r = .error f
  | .headObject _, r => e = .headObject ∧ r = .error f
  | .deleteObject _, r => e = .deleteObject ∧ r = .error f
  | .listObjects .., r => e = .listObjects ∧ r = .error f
  | .deleteObjects _, r => e = .deleteObjects ∧ r = .error f
  | _, _ => False

/-- a call that is not to the bucket -/
def Call.Elsewhere : Call → Prop
  | .putObject .. | .getObject _ | .headObject _ | .deleteObject _ | .listObjects .. | .deleteObjects _ => False
  | _ => True

theorem Call.Elsewhere.not_struck {c : Call} (h : c.Elsewhere) (e : Endpoint) (f : Fault) (r : c.Reply) :
    ¬c.Struck e f r := by
  cases c with
  | putObject | getObject | headObject | deleteObject | listObjects | deleteObjects => exact h.elim
  | _ => exact id

theorem Call.IsLocal.elsewhere {c : Call} (h : c.IsLocal) : c.Elsewhere := by
  cases c with
  | putObject | getObject | headObject | deleteObject | listObjects | deleteObjects => exact h.elim
  | _ => exact trivial

/-- a failure tells of a fault of a call to the bucket: it is the service's own, with the fault as its cause, and says
that a file has no content just if the bucket said so when it was asked for it -/
def Failure.Tells (e : Endpoint) (f : Fault) (failure : Failure) : Prop :=
  failure.isStorage = true ∧ failure.cause = some (.fault f) ∧
    ((∃ space id, failure = .noContent space id f) ↔ e = .getObject ∧ f.isMissingKey = true)

/-- the one fault that nobody accounts for: a failed transfer of a content that is read -/
def Endpoint.Overlooks (e : Endpoint) (f : Fault) : Prop :=
  e = .getObject ∧ f = .transfer

/-- what a fault of a call to the bucket surfaces as -/
def Failure.Surfaces (e : Endpoint) (f : Fault) (failure : Failure) : Prop :=
  e.Overlooks f ∧ failure = .fault f ∨ ¬e.Overlooks f ∧ failure.Tells e f

/-- the failure of a call, as it is before it is accounted for -/
def Failure.Raw (e : Endpoint) (f : Fault) (failure : Failure) : Prop :=
  failure = .fault f ∧ e ≠ .getObject

/-- a failed task that has the fault of a call as its cause -/
def Failure.Accounts (task : Task) (e : Endpoint) (f : Fault) (failure : Failure) : Prop :=
  failure = .storage task f ∧ e ≠ .getObject

theorem Failure.Accounts.surfaces {task : Task} {e : Endpoint} {f : Fault} {failure : Failure}
    (h : failure.Accounts task e f) : failure.Surfaces e f := by
  obtain ⟨rfl, other⟩ := h
  refine .inr ⟨fun overlooked => other overlooked.1, rfl, rfl, ?_⟩
  constructor
  · rintro ⟨space, id, impossible⟩
    cases impossible
  · intro missing
    exact absurd missing.1 other

open World

variable {α σ : Type} {site : Site} {w : World} {e : Endpoint} {f : Fault}

/-- wherever a call to the bucket fails with a fault, an operation fails as it is said to -/
abbrev Op.Blames (e : Endpoint) (f : Fault) (D : Failure → Prop) (p : Op α) : Prop :=
  Prog.Blames (I := service) serve (Call.Struck e f) D p

namespace Op

theorem blames_elsewhere {p : Op α} {D : Failure → Prop} (h : p.Only Call.Elsewhere) : p.Blames e f D :=
  Prog.Blames.of_only (h.mono fun _ hc r => hc.not_struck e f r)

/-- **An account** of the faults of the bucket takes the fault over. -/
theorem blames_account {p : Op α} {event : Event} {task : Task} (hf : f.isBucketFault = true)
    (h : p.Blames e f (Failure.Raw e f)) :
    (account Fault.isBucketFault event task p).Blames e f (Failure.Accounts task e f) := by
  intro s events
  refine (h s events).rescue (fun a t more quiet => quiet) (fun failure t more blamed => ?_)
  by_cases noted : t.2
  · obtain ⟨rfl, other⟩ := blamed noted
    dsimp only
    rw [if_pos hf]
    exact fun _ => ⟨rfl, other⟩
  · have quiet : ∀ failure more, Prog.Blamed (α := α) (Failure.Accounts task e f) (.error failure) t more :=
      fun _ _ noted' => absurd noted' noted
    cases failure with
    | fault f' =>
      dsimp only
      split
      · exact quiet _ more
      · exact quiet _ more
    | _ => exact quiet _ more

theorem blames_request {c : Call} (reply : c.Reply → Except Fault α)
    (struck : ∀ r, c.Struck e f r → e ≠ .getObject ∧ reply r = .error f) :
    (ask c >>= fun r => Prog.ofReply (reply r)).Blames e f (Failure.Raw e f) := by
  refine Prog.Blames.ask (fun r hit => ?_) fun r => blames_elsewhere (Prog.only_ofReply _)
  obtain ⟨other, failed⟩ := struck r hit
  refine ⟨.fault f, ⟨rfl, other⟩, ?_⟩
  rw [failed]
  rfl

theorem blames_request_bind {β : Type} {c : Call} (reply : c.Reply → Except Fault β) {g : β → Op α}
    (struck : ∀ r, c.Struck e f r → e ≠ .getObject ∧ reply r = .error f) (hg : ∀ a, (g a).Blames e f (Failure.Raw e f)) :
    (ask c >>= fun r => Prog.ofReply (reply r) >>= g).Blames e f (Failure.Raw e f) := by
  rw [← LawfulMonad.bind_assoc]
  exact (blames_request reply struck).bind hg

end Op

/-! ## Contents -/

namespace Content

theorem blames_modifiedOf (key : String) : (modifiedOf key).Blames e f (Failure.Raw e f) := by
  refine Op.blames_request_bind (c := .headObject key) id (fun r ⟨same, failed⟩ => ⟨by simp [same], failed⟩) ?_
  intro metadata
  apply Op.blames_elsewhere
  split
  · constructor
  · split
    · constructor
    · exact (Prog.only_record _).bind fun _ => .done _

theorem blames_namespaceOf (key : String) : (namespaceOf key).Blames e f (Failure.Raw e f) :=
  Op.blames_request_bind (c := .headObject key) id (fun r ⟨same, failed⟩ => ⟨by simp [same], failed⟩)
    fun _ => Op.blames_elsewhere (.done _)

theorem blames_selects (selection : Selection) (key : String) :
    (selects selection key).Blames e f (Failure.Raw e f) := by
  cases selection with
  | inNamespace => exact (blames_namespaceOf key).bind fun _ => Op.blames_elsewhere (.done _)
  | inSpaces => exact Op.blames_elsewhere (.done _)
  | before cutoff =>
    refine (blames_modifiedOf key).bind fun time => Op.blames_elsewhere ?_
    cases time with
    | none => exact .done _
    | some time =>
      dsimp only
      split <;> constructor

theorem blames_overKeys {σ : Type} {step : σ → String → Op σ} (h : ∀ s key, (step s key).Blames e f (Failure.Raw e f))
    (start : String) (pages : Nat) (after : Option String) (s : σ) :
    (overKeys start step pages after s).Blames e f (Failure.Raw e f) := by
  induction pages generalizing after s with
  | zero => exact Op.blames_elsewhere (.fail _)
  | succ pages ih =>
    refine Op.blames_request_bind (c := .listObjects start after) id
      (fun r ⟨same, failed⟩ => ⟨by simp [same], failed⟩) fun page => ?_
    refine (Prog.Blames.foldlM h page.keys s).bind fun s => ?_
    split
    · exact ih _ s
    · exact Op.blames_elsewhere (.done _)

theorem blames_overSpaces {σ : Type} {step : σ → String → Op σ}
    (h : ∀ s key, (step s key).Blames e f (Failure.Raw e f)) (s : σ) (spaces : List (Option String)) :
    (overSpaces site step s spaces).Blames e f (Failure.Raw e f) := by
  rw [overSpaces]
  refine Prog.Blames.foldlM (fun s space => ?_) spaces s
  exact (Op.blames_elsewhere (Prog.only_ofExcept _)).bind fun start => blames_overKeys h start _ _ s

theorem blames_flush (t : Tally) : t.flush.Blames e f (Failure.Raw e f) :=
  Op.blames_request_bind (c := .deleteObjects t.waiting) id (fun r ⟨same, failed⟩ => ⟨by simp [same], failed⟩)
    fun refused => Op.blames_elsewhere ((Prog.Only.forM (fun _ => Prog.only_record _) refused).bind fun _ => .done _)

theorem blames_consider (selection : Selection) (t : Tally) (key : String) :
    (consider site selection t key).Blames e f (Failure.Raw e f) := by
  refine (blames_selects selection key).bind fun chosen => ?_
  split
  · rw [Tally.add]
    split
    · exact blames_flush _
    · exact Op.blames_elsewhere (.done _)
  · exact Op.blames_elsewhere (.done _)

theorem blames_deleteMatching (hf : f.isBucketFault = true) (selection : Selection) :
    (deleteMatching site selection).Blames e f (Failure.Accounts (.deleteContents selection) e f) := by
  refine Prog.Blames.bind (Op.blames_account hf ?_) fun deleted =>
    Op.blames_elsewhere ((Prog.only_record _).bind fun _ => .done _)
  refine (blames_overSpaces (blames_consider selection) _ _).bind fun t => ?_
  rw [Tally.finish]
  split
  · exact Op.blames_elsewhere (.done _)
  · exact blames_flush t

theorem blames_withoutContent (hf : f.isBucketFault = true) (entries : List Entry) :
    (withoutContent site entries).Blames e f (Failure.Surfaces e f) := by
  refine Prog.Blames.bind ((Op.blames_account hf ?_).mono fun _ => Failure.Accounts.surfaces) fun keys =>
    Op.blames_elsewhere ?_
  · exact blames_overSpaces (fun _ _ => Op.blames_elsewhere (Prog.only_pure _)) _ _
  · exact (Prog.Only.mapM fun e _ => (Prog.only_ofExcept _).bind fun _ => Prog.only_pure _).bind fun _ =>
      Prog.only_pure _

theorem blames_put (hf : f.isBucketFault = true) (entry : Entry) (content : ByteArray) :
    (put site entry content).Blames e f (Failure.Surfaces e f) := by
  refine (Op.blames_elsewhere (Prog.only_ofExcept _)).bind fun key =>
    Prog.Blames.bind ((Op.blames_account hf ?_).mono fun _ => Failure.Accounts.surfaces) fun _ =>
      Op.blames_elsewhere (Prog.only_record _)
  refine (Op.blames_elsewhere (Prog.only_record _)).bind fun _ => ?_
  exact Op.blames_request (c := .putObject key content (metadataOf entry)) id
    (fun r ⟨same, failed⟩ => ⟨by simp [same], failed⟩)

theorem blames_delete (hf : f.isBucketFault = true) (space id : String) :
    (delete site space id).Blames e f (Failure.Surfaces e f) := by
  refine (Op.blames_elsewhere (Prog.only_ofExcept _)).bind fun key =>
    (Op.blames_account hf ?_).mono fun _ => Failure.Accounts.surfaces
  refine (Op.blames_elsewhere (Prog.only_record _)).bind fun _ => ?_
  exact Op.blames_request (c := .deleteObject key) (fun r => r) (fun r ⟨same, failed⟩ => ⟨by simp [same], failed⟩)

/-- **A content that cannot be had** fails with an account of the fault, unless this is a failed transfer. -/
theorem openFailure_fails (hf : f.isBucketFault = true) (space id key : String) :
    ∃ failure, failure.Surfaces .getObject f ∧ (openFailure space id key f : Op α).Fails failure := by
  unfold openFailure
  by_cases missing : f.isMissingKey = true
  · rw [if_pos missing]
    refine ⟨.noContent space id f, .inr ⟨?_, rfl, rfl, ?_⟩, rfl⟩
    · rintro ⟨-, rfl⟩
      cases missing
    · exact ⟨fun _ => ⟨rfl, missing⟩, fun _ => ⟨space, id, rfl⟩⟩
  · rw [if_neg missing]
    by_cases transfer : f = .transfer
    · subst transfer
      exact ⟨.fault .transfer, .inl ⟨⟨rfl, rfl⟩, rfl⟩, rfl⟩
    · have accounted : (f.isBucketFault && f != .transfer) = true := by simp [hf, transfer]
      rw [if_pos accounted]
      refine ⟨.storage (.readContent id) f, .inr ⟨fun overlooked => transfer overlooked.2, rfl, rfl, ?_⟩, rfl⟩
      constructor
      · rintro ⟨space, id, impossible⟩
        cases impossible
      · intro told
        exact absurd told.2 missing

theorem blames_process (hf : f.isBucketFault = true) (space id : String) (receive : ByteArray → Except Fault α) :
    (process site space id receive).Blames e f (Failure.Surfaces e f) := by
  refine Prog.Blames.bind ?_ fun content => Op.blames_elsewhere (Op.only_reply _ trivial _ fun _ => .done _)
  refine (Op.blames_elsewhere (Prog.only_ofExcept _)).bind fun key => ?_
  refine Prog.Blames.ask (I := service) (c := .getObject key) ?_ ?_
  · rintro r ⟨rfl, rfl⟩
    exact openFailure_fails hf space id key
  · intro r
    apply Op.blames_elsewhere
    cases r with
    | ok content => exact .done _
    | error f' => exact only_openFailure space id key f'

end Content

/-! ## Operations -/

namespace Files

theorem blames_store (hf : f.isBucketFault = true) (space : String) (ns : Option String) (name : String)
    (file : Upload.LocalFile) : (store site space ns name file).Blames e f (Failure.Surfaces e f) := by
  refine (Op.blames_elsewhere (Op.only_ask (c := .freshId) trivial)).bind fun id => ?_
  refine (Op.blames_elsewhere (Op.only_ask (c := .now) trivial)).bind fun modified => ?_
  refine (Op.blames_elsewhere (Op.only_ask (c := .readFile file.path) trivial)).bind fun reply => ?_
  cases reply with
  | error f' => exact Op.blames_elsewhere (.fail _)
  | ok content =>
    refine (Content.blames_put hf _ content).bind fun _ => Op.blames_elsewhere ?_
    refine Prog.Only.bind (Op.only_account ?_) fun _ => (Prog.only_record _).bind fun _ => .done _
    exact (only_inUtc modified).bind fun utc => Op.only_reply _ trivial _ fun r => Prog.only_ofReply r

theorem blames_add (hf : f.isBucketFault = true) (space : String) (ns : Option String) (name : String) (s : Stream) :
    (add site space ns name s).Blames e f (Failure.Surfaces e f) := by
  have near {α : Type} {p : Op α} (h : p.Only Call.IsLocal) : p.Only fun c : Call => ∀ r, ¬c.Struck e f r :=
    h.mono fun _ hc r => hc.elsewhere.not_struck e f r
  intro w events
  unfold add
  have received : (receive site s).Ends (Prog.watch serve (Call.Struck e f)) (fun r t _ =>
      (∀ file, r = .ok file → Disk.check file.path = .ok ()) ∧ t.2 = False) (w, False) events :=
    ((receive_ends s).watched.and (near (local_receive s)).watch_eq).mono fun r t more h =>
      ⟨fun file ok => (h.1.1.2 file ok).2, h.2⟩
  refine received.bind (fun file t more h => ?_) (fun failure t more h => ?_)
  · rw [show t = (t.1, False) from Prod.ext rfl h.2, Prog.ends_bind, Prog.ends_attempt]
    refine (blames_store hf space ns name file t.1 more).mono fun r u more blamed => ?_
    have removed : (Upload.removeStaged file.path).Ends (Prog.watch serve (Call.Struck e f)) (fun r v _ =>
        r = .ok () ∧ v.2 = u.2) u more :=
      ((Upload.removeStaged_ends (h.1 file rfl)).watched.and (near (local_removeStaged file.path)).watch_eq).mono
        fun r v more hv => ⟨hv.1.1.1, hv.2⟩
    refine removed.bind (fun _ v more hv => ?_) (fun failure v more hv => ?_)
    · rw [Prog.ends_ofExcept]
      cases r with
      | ok entry => exact fun noted => blamed (hv.2 ▸ noted)
      | error failure => exact fun noted => blamed (hv.2 ▸ noted)
    · cases hv.1
  · exact fun noted => (h.2 ▸ noted : False).elim

theorem blames_addExisting (hf : f.isBucketFault = true) (space : String) (ns : Option String) (name : String)
    (path : Disk.Path) : (addExisting site space ns name path).Blames e f (Failure.Surfaces e f) := by
  refine (Op.blames_elsewhere (only_setting _)).bind fun algorithm => ?_
  refine (Op.blames_elsewhere ?_).bind fun file => blames_store hf space ns name file
  exact (Upload.local_describe path algorithm).mono fun _ hc => hc.elsewhere

theorem blames_delete (hf : f.isBucketFault = true) (space id : String) :
    (delete site space id).Blames e f (Failure.Surfaces e f) := by
  refine (Content.blames_delete hf space id).bind fun _ => Op.blames_elsewhere ?_
  refine Prog.Only.bind (Op.only_account (only_remove (fun _ => trivial) _)) fun count => ?_
  exact (Prog.only_record _).bind fun _ => .done _

theorem blames_deleteSelected (hf : f.isBucketFault = true) (selection : Selection) :
    (deleteSelected site selection).Blames e f (Failure.Accounts (.deleteContents selection) e f) :=
  (Content.blames_deleteMatching hf selection).bind fun _ =>
    Op.blames_elsewhere (Op.only_account (only_remove (fun _ => trivial) _))

theorem blames_sweep (hf : f.isBucketFault = true) : (sweep site).Blames e f (Failure.Surfaces e f) := by
  refine (Op.blames_elsewhere (Op.only_account (only_select (fun _ => trivial) _))).bind fun entries => ?_
  refine (Content.blames_withoutContent hf entries).bind fun missing => Op.blames_elsewhere ?_
  split
  · constructor
  · exact (Prog.Only.forM (fun _ => Prog.only_record _) missing).bind fun _ => Op.only_account
      (only_remove (fun _ => trivial) _)

end Files

theorem Deletion.blames_selected (hf : f.isBucketFault = true) (selection : Selection) :
    ((Deletion.selected selection).program site).Blames e f (Failure.Accounts (.deleteContents selection) e f) := by
  cases selection with
  | inNamespace space ns => exact Files.blames_deleteSelected hf _
  | inSpaces spaces => exact Files.blames_deleteSelected hf _
  | before cutoff =>
    refine (Files.blames_deleteSelected hf _).bind fun count => Op.blames_elsewhere ?_
    exact (Prog.only_record _).bind fun _ => .done _

/-- whether an operation is one of the file service itself, and not of the cleanup or a command -/
def Operation.ofFiles : Operation → Bool
  | .cleanup .. | .call .. | .manage .. => false
  | _ => true

/-- **Every operation of the file service tells of a fault of the bucket,** but for the one that is overlooked. -/
theorem Operation.blames_program (hf : f.isBucketFault = true) {o : Operation} (h : o.ofFiles = true) :
    (o.program site).Blames e f (Failure.Surfaces e f) := by
  cases o with
  | add space ns name stream => exact (Files.blames_add hf space ns name stream).void
  | addExisting space ns name path => exact (Files.blames_addExisting hf space ns name path).void
  | get space id => exact (Op.blames_elsewhere (Files.only_get (fun _ => trivial) space id)).void
  | list space ns => exact (Op.blames_elsewhere (Files.only_list (fun _ => trivial) space ns)).void
  | process space id receiver => exact (Content.blames_process hf space id receiver).void
  | delete space id => exact (Files.blames_delete hf space id).void
  | deleteNamespace space ns =>
    exact ((Deletion.blames_selected hf (.inNamespace space ns)).mono fun _ => Failure.Accounts.surfaces).void
  | deleteSpaces spaces =>
    exact ((Deletion.blames_selected hf (.inSpaces spaces)).mono fun _ => Failure.Accounts.surfaces).void
  | deleteBefore cutoff =>
    exact ((Deletion.blames_selected hf (.before cutoff)).mono fun _ => Failure.Accounts.surfaces).void
  | sweep => exact (Files.blames_sweep hf).void
  | cleanup | call | manage => cases h

/-- **A fault of the bucket is reported, unless it is a failed transfer of a content that is read.** Wherever a call of an
operation of the file service to the bucket fails with one of the bucket's faults, whatever else happens, the operation
fails with the service's own failure that has this fault as its cause, and says that there is no content just if the
bucket said so when it was asked for one. A failed transfer of a content that is read is not accounted for, and leaves the
service as it is. -/
theorem bucket_faults_reported_iff (site : Site) (w : World) (o : Operation) (service : o.ofFiles = true) (e : Endpoint)
    (f : Fault) (bucket : f.isBucketFault = true) (struck : (o.program site).Makes serve (Call.Struck e f) w) :
    ((∃ failure, (w.run (o.program site)).outcome = .error failure ∧ failure.Tells e f) ↔
      ¬(e = .getObject ∧ f = .transfer)) ∧
    (e = .getObject ∧ f = .transfer → (w.run (o.program site)).outcome = .error (.fault f)) := by
  obtain ⟨failure, outcome, surfaces⟩ := (Operation.blames_program bucket service).outcome struck
  change (w.run (o.program site)).outcome = _ at outcome
  rcases surfaces with ⟨overlooked, rfl⟩ | ⟨told, tells⟩
  · refine ⟨?_, fun _ => outcome⟩
    constructor
    · rintro ⟨failure, outcome', tells, -⟩
      obtain rfl : Failure.fault f = failure := Except.error.inj (outcome.symm.trans outcome')
      cases tells
    · intro accounted
      exact absurd overlooked accounted
  · exact ⟨⟨fun _ => told, fun _ => ⟨failure, outcome, tells⟩⟩, fun overlooked => absurd overlooked told⟩

/-- a file, and the next transfer of a content that is read fails -/
def failingTransfer : World :=
  { after .top .fresh [.upload "s" "1"] with strikes := [⟨⟨.getObject, .transfer⟩, 0, some 1⟩] }

theorem bucket_faults_reported_iff_failingTransfer :
    ((Operation.process "s" "1" fun _ => .ok ()).program (.standard .top)).Makes serve (Call.Struck .getObject .transfer)
      failingTransfer ∧
    ¬∃ failure, (failingTransfer.run ((Operation.process "s" "1" fun _ => .ok ()).program (.standard .top))).outcome =
      .error failure ∧ failure.Tells .getObject .transfer := by
  have struck : ((Operation.process "s" "1" fun _ => .ok ()).program (.standard .top)).Makes serve
      (Call.Struck .getObject .transfer) failingTransfer := by
    have key : (Site.standard .top).location.key "s" "1" = .ok "s/1" := by decide +kernel
    have reply : (serve (.getObject "s/1") failingTransfer).1 = .error .transfer := rfl
    rw [Operation.program, Prog.makes_void, Files.process, Content.process, Content.openContent, key,
      Prog.ofExcept_ok_bind]
    exact .inl ⟨rfl, reply⟩
  refine ⟨struck, ?_⟩
  intro told
  have reported := (bucket_faults_reported_iff (.standard .top) failingTransfer _ rfl .getObject .transfer rfl struck).1
  exact reported.1 told ⟨rfl, rfl⟩

end Depot
