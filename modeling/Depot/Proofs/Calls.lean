/-
Which calls the operations make.

Reading asks for no change of the stores (`Call.Reads`). Deleting and the cleanup ask for nothing more in them
(`Call.AddsNothing`), and so do both commands, which run a sweep or a cleanup. A sweep leaves the bucket alone besides
(`only_sweep`).
-/
import Depot.Command.Manage
import Depot.Proofs.Replies
import Depot.Proofs.Run

namespace Depot

variable {α : Type} {ok : Call → Prop} {site : Site}

/-- a call that asks for no change of the bucket and for no row more -/
def Call.Prunes (c : Call) : Prop :=
  c.KeepsBucket ∧ c.AddsNothing

theorem Call.Reads.addsNothing {c : Call} (h : c.Reads) : c.AddsNothing := by
  cases c with
  | putObject | insertFile => exact h.elim
  | _ => exact trivial

theorem Call.IsLocal.reads {c : Call} (h : c.IsLocal) : c.Reads := by
  cases c with
  | putObject | deleteObject | deleteObjects | insertFile | deleteFiles => exact h.elim
  | _ => exact trivial

theorem Call.IsLocal.addsNothing {c : Call} (h : c.IsLocal) : c.AddsNothing :=
  h.reads.addsNothing

theorem Call.Reads.prunes {c : Call} (h : c.Reads) : c.Prunes := by
  refine ⟨?_, h.addsNothing⟩
  cases c with
  | putObject | deleteObject | deleteObjects => exact h.elim
  | _ => exact trivial

theorem Op.only_reply (c : Call) (h : ok c) (f : c.Reply → Op α) (hf : ∀ r, (f r).Only ok) : (Op.ask c >>= f).Only ok :=
  Prog.Only.bind (Op.only_ask h) hf

/-! ## Rows -/

namespace Files

theorem only_inUtc (time : Time.Timestamp) : (inUtc time).Only ok := by
  rw [inUtc]
  split <;> constructor

theorem only_prepare (q : FileQuery) : (prepare q).Only ok := by
  cases q with
  | before cutoff => exact (only_inUtc cutoff).bind fun _ => .done _
  | _ => exact .done _

theorem only_setting (value : Option α) : (setting value).Only ok := by
  cases value <;> constructor

theorem only_select (h : ∀ q, ok (.selectFiles q)) (q : FileQuery) : (select q).Only ok := by
  refine (only_prepare q).bind fun q => ?_
  split
  · constructor
  · exact Op.only_reply _ (h _) _ fun r => Prog.only_ofReply r

theorem only_count (h : ∀ q, ok (.countFiles q)) (q : FileQuery) : (count q).Only ok :=
  (only_prepare q).bind fun _ => Op.only_reply _ (h _) _ fun r => Prog.only_ofReply r

theorem only_remove (h : ∀ q, ok (.deleteFiles q)) (q : FileQuery) : (remove q).Only ok := by
  refine (only_prepare q).bind fun q => ?_
  split
  · constructor
  · exact Op.only_reply _ (h _) _ fun r => Prog.only_ofReply r

/-! ## Reading -/

end Files

theorem Content.only_openFailure (space id key : String) (f : Fault) :
    (openFailure space id key f : Op α).Only ok := by
  unfold openFailure
  split
  · exact .fail _
  · split
    · exact .note (.fail _)
    · exact .fail _

namespace Files

theorem only_get (h : ∀ q, ok (.selectFiles q)) (space id : String) : (get space id).Only ok := by
  refine (Op.only_account (only_select h _)).bind fun rows => ?_
  cases rows <;> constructor

theorem only_list (h : ∀ q, ok (.selectFiles q)) (space : String) (ns : Option String) : (list space ns).Only ok :=
  Op.only_account (only_select h _)

theorem only_process (space id : String) (receiver : ByteArray → Except Fault α) :
    (process site space id receiver).Only Call.Reads := by
  refine Prog.Only.bind ?_ fun content => Op.only_reply _ trivial _ fun _ => .done _
  refine (Prog.only_ofExcept _).bind fun key => Op.only_reply _ trivial _ fun r => ?_
  cases r with
  | ok content => exact .done _
  | error f => exact Content.only_openFailure space id key f

end Files

/-! ## Deletion -/

namespace Content

variable {σ : Type} {step : σ → String → Op σ}

theorem only_overKeys (list : ∀ start after, ok (.listObjects start after)) (h : ∀ s key, (step s key).Only ok)
    (start : String) (pages : Nat) (after : Option String) (s : σ) : (overKeys start step pages after s).Only ok := by
  induction pages generalizing after s with
  | zero => exact .fail _
  | succ pages ih =>
    refine Op.only_reply _ (list start after) _ fun reply => (Prog.only_ofReply reply).bind fun page => ?_
    refine (Prog.Only.foldlM h page.keys s).bind fun s => ?_
    split
    · exact ih _ s
    · constructor

theorem only_overSpaces (list : ∀ start after, ok (.listObjects start after)) (h : ∀ s key, (step s key).Only ok)
    (s : σ) (spaces : List (Option String)) : (overSpaces site step s spaces).Only ok := by
  rw [overSpaces]
  exact Prog.Only.foldlM (fun s _ => (Prog.only_ofExcept _).bind fun start => only_overKeys list h start _ _ s) spaces s

theorem only_modifiedOf (head : ∀ key, ok (.headObject key)) (key : String) : (modifiedOf key).Only ok := by
  refine Op.only_reply _ (head key) _ fun reply => (Prog.only_ofReply reply).bind fun metadata => ?_
  split
  · constructor
  · split
    · constructor
    · exact (Prog.only_record _).bind fun _ => .done _

theorem only_namespaceOf (head : ∀ key, ok (.headObject key)) (key : String) : (namespaceOf key).Only ok :=
  Op.only_reply _ (head key) _ fun reply => (Prog.only_ofReply reply).bind fun _ => .done _

theorem only_selects (head : ∀ key, ok (.headObject key)) (selection : Selection) (key : String) :
    (selects selection key).Only ok := by
  cases selection with
  | inNamespace => exact (only_namespaceOf head key).bind fun _ => .done _
  | inSpaces => exact .done _
  | before cutoff =>
    refine (only_modifiedOf head key).bind fun time => ?_
    cases time with
    | none => exact .done _
    | some time =>
      dsimp only
      split <;> constructor

theorem only_flush (erase : ∀ keys, ok (.deleteObjects keys)) (t : Tally) : t.flush.Only ok := by
  refine Op.only_reply _ (erase _) _ fun reply => (Prog.only_ofReply reply).bind fun refused => ?_
  exact (Prog.Only.forM (fun _ => Prog.only_record _) refused).bind fun _ => .done _

theorem only_consider (head : ∀ key, ok (.headObject key)) (erase : ∀ keys, ok (.deleteObjects keys))
    (selection : Selection) (t : Tally) (key : String) : (consider site selection t key).Only ok := by
  refine (only_selects head selection key).bind fun chosen => ?_
  split
  · rw [Tally.add]
    split
    · exact only_flush erase _
    · constructor
  · constructor

theorem only_deleteMatching (list : ∀ start after, ok (.listObjects start after)) (head : ∀ key, ok (.headObject key))
    (erase : ∀ keys, ok (.deleteObjects keys)) (selection : Selection) : (deleteMatching site selection).Only ok := by
  refine Prog.Only.bind (Op.only_account ?_) fun deleted => (Prog.only_record _).bind fun _ => .done _
  refine (only_overSpaces list (only_consider head erase selection) _ _).bind fun t => ?_
  rw [Tally.finish]
  split
  · constructor
  · exact only_flush erase t

theorem only_delete (h : ∀ key, ok (.deleteObject key)) (space id : String) : (delete site space id).Only ok :=
  (Prog.only_ofExcept _).bind fun _ => Op.only_account
    ((Prog.only_record _).bind fun _ => Op.only_reply _ (h _) _ fun r => Prog.only_ofReply r)

theorem only_withoutContent (entries : List Entry) : (withoutContent site entries).Only Call.Reads := by
  refine Prog.Only.bind (Op.only_account ?_) fun keys => ?_
  · exact only_overSpaces (fun _ _ => trivial) (fun _ _ => Prog.only_pure _) _ _
  · exact (Prog.Only.mapM fun e _ => (Prog.only_ofExcept _).bind fun _ => Prog.only_pure _).bind fun _ =>
      Prog.only_pure _

end Content

namespace Files

theorem only_delete (objects : ∀ key, ok (.deleteObject key)) (rows : ∀ q, ok (.deleteFiles q)) (space id : String) :
    (delete site space id).Only ok := by
  refine (Content.only_delete objects space id).bind fun _ => Prog.Only.bind (Op.only_account ?_) fun count => ?_
  · exact only_remove rows _
  · exact (Prog.only_record _).bind fun _ => .done _

theorem only_deleteSelected (selection : Selection) : (deleteSelected site selection).Only Call.AddsNothing :=
  (Content.only_deleteMatching (fun _ _ => trivial) (fun _ => trivial) (fun _ => trivial) selection).bind fun _ =>
    Op.only_account (only_remove (fun _ => trivial) _)

theorem only_deleteBefore (cutoff : Time.Timestamp) : (deleteBefore site cutoff).Only Call.AddsNothing :=
  (only_deleteSelected _).bind fun _ => (Prog.only_record _).bind fun _ => .done _

/-- **A sweep asks for rows less, and for no change of the bucket.** -/
theorem only_sweep : (sweep site).Only Call.Prunes := by
  refine Prog.Only.bind (Op.only_account (only_select (fun _ => ⟨trivial, trivial⟩) _)) fun entries => ?_
  refine Prog.Only.bind ((Content.only_withoutContent entries).mono fun _ => Call.Reads.prunes) fun missing => ?_
  split
  · constructor
  · exact (Prog.Only.forM (fun _ => Prog.only_record _) missing).bind fun _ => Op.only_account
      (only_remove (fun _ => ⟨trivial, trivial⟩) _)

end Files

/-! ## Cleanup -/

namespace Retention

variable {I : Interface} {ok : I.Call → Prop}

/-- what a cleaner asks its items for, apart from pages -/
structure ExpiredItems.Apart (items : ExpiredItems I) (ok : I.Call → Prop) : Prop where
  count : ∀ cutoff, (items.count cutoff).Only ok
  deleteOne : ∀ item, (items.deleteOne item).Only ok
  describe : ∀ item, (items.describe item).Only ok

/-- what a cleaner asks its items for -/
structure ExpiredItems.Only (items : ExpiredItems I) (ok : I.Call → Prop) : Prop extends items.Apart ok where
  fetchPage : ∀ cutoff limit, (items.fetchPage cutoff limit).Only ok

variable {c : Cleaner I}

theorem Cleaner.only_deleteSafely (h : c.items.Apart ok) (item : c.items.Item) : (c.deleteSafely item).Only ok := by
  refine (h.describe item).bind fun description => (Prog.only_record _).bind fun _ =>
    (h.deleteOne item).attempt.bind fun outcome => ?_
  split
  · constructor
  · exact (Prog.only_record _).bind fun _ => .done _
  · exact (Prog.only_record _).bind fun _ => .done _

theorem Cleaner.only_execute (h : c.items.Only ok) (cutoff : Time.Timestamp) : (c.execute cutoff).Only ok := by
  have pages : ∀ n count, (c.deletePages cutoff n count).Only ok := by
    intro n
    induction n with
    | zero => exact fun _ => .done _
    | succ n ih =>
      refine fun count => Prog.Only.bind ?_ ih
      exact (h.fetchPage cutoff _).bind fun page => Prog.Only.foldlM
        (fun n item => (Cleaner.only_deleteSafely h.toApart item).bind fun _ => Prog.only_pure _) page count
  refine (Prog.only_record _).bind fun _ => (h.count cutoff).bind fun total => (Prog.only_ofExcept _).bind fun n =>
    (Prog.only_record _).bind fun _ => (pages n.toNat 0).bind fun _ => (Prog.only_record _).bind fun _ => .done _

theorem only_runCleanup {cleaners : List (Cleaner I)} (h : ∀ c ∈ cleaners, c.items.Only ok) (cutoff : Time.Timestamp) :
    (runCleanup cleaners cutoff).Only ok := by
  rw [runCleanup]
  refine (Prog.Only.mapM fun c hc => ?_).bind fun outcomes => ?_
  · refine (Cleaner.only_execute (h c hc) cutoff).attempt.bind fun outcome => ?_
    cases outcome with
    | ok n => exact .done _
    | error e => exact (Prog.only_record _).bind fun _ => .done _
  · split <;> constructor

theorem only_pageOf (cutoff : Time.Timestamp) (limit : Int) {ask : Time.Timestamp → Nat → Op (List α)} {ok : Call → Prop}
    (h : ∀ utc n, (ask utc n).Only ok) : (pageOf cutoff limit ask).Only ok := by
  rw [pageOf]
  split
  · constructor
  · refine (Files.only_inUtc cutoff).bind fun utc => ?_
    split
    · constructor
    · exact h utc _

section Kinds

variable {ok : Call → Prop}

theorem only_countExecutions (count : ∀ utc, ok (.countExecutions utc)) (cutoff : Time.Timestamp) :
    (executions.count cutoff).Only ok :=
  (Files.only_inUtc cutoff).bind fun _ => Op.only_reply _ (count _) _ fun r =>
    (Prog.only_ofReply r).bind fun _ => Prog.only_pure _

theorem apart_executions (count : ∀ utc, ok (.countExecutions utc)) (delete : ∀ id, ok (.deleteExecution id)) :
    executions.Apart ok where
  count cutoff := only_countExecutions count cutoff
  deleteOne _ := Op.only_reply _ (delete _) _ fun r => (Prog.only_ofReply r).bind fun _ => Prog.only_pure _
  describe _ := .done _

theorem only_fetchExecutions (page : ∀ utc n, ok (.pageExecutions utc n)) (cutoff : Time.Timestamp) (limit : Int) :
    (executions.fetchPage cutoff limit).Only ok := by
  show (pageOf cutoff limit fun utc n => do Prog.ofReply (← Op.ask (.pageExecutions utc n)) : Op (List Execution)).Only _
  exact only_pageOf cutoff limit fun _ _ => Op.only_reply _ (page _ _) _ fun r => Prog.only_ofReply r

theorem only_executions (count : ∀ utc, ok (.countExecutions utc)) (delete : ∀ id, ok (.deleteExecution id))
    (page : ∀ utc n, ok (.pageExecutions utc n)) : executions.Only ok where
  toApart := apart_executions count delete
  fetchPage cutoff limit := only_fetchExecutions page cutoff limit

theorem apart_files (count : ∀ q, ok (.countFiles q)) (objects : ∀ key, ok (.deleteObject key))
    (rows : ∀ q, ok (.deleteFiles q)) : (files site).Apart ok where
  count _ := (Files.only_count count _).bind fun _ => Prog.only_pure _
  deleteOne e := Files.only_delete objects rows e.space e.id
  describe _ := .done _

theorem only_fetchFiles (page : ∀ q n, ok (.pageFiles q n)) (cutoff : Time.Timestamp) (limit : Int) :
    ((files site).fetchPage cutoff limit).Only ok := by
  show (pageOf cutoff limit fun utc n => do Prog.ofReply (← Op.ask (.pageFiles (.before utc) n)) : Op (List Entry)).Only _
  exact only_pageOf cutoff limit fun _ _ => Op.only_reply _ (page _ _) _ fun r => Prog.only_ofReply r

theorem only_files (count : ∀ q, ok (.countFiles q)) (objects : ∀ key, ok (.deleteObject key))
    (rows : ∀ q, ok (.deleteFiles q)) (page : ∀ q n, ok (.pageFiles q n)) : (files site).Only ok where
  toApart := apart_files count objects rows
  fetchPage cutoff limit := only_fetchFiles page cutoff limit

end Kinds

/-- the default cleaners, unless their pages could hold nothing -/
theorem defaultCleaners_cases (site : Site) (size : Option Int) : (∃ e, defaultCleaners site size = .error e) ∨
    ∃ n, ∃ h : 0 < n, defaultCleaners site size = .ok [⟨executions, n, h⟩, ⟨files site, n, h⟩] := by
  rw [defaultCleaners]
  by_cases h : 1 ≤ pageSizeOf site size
  · refine .inr ⟨(pageSizeOf site size).toNat, by omega, ?_⟩
    simp only [List.mapM_cons, List.mapM_nil, Cleaner.ofSize, dif_pos h, Kind.items]
    rfl
  · refine .inl ⟨.fault (.pageSize (pageSizeOf site size)), ?_⟩
    simp only [List.mapM_cons, Cleaner.ofSize, dif_neg h]
    rfl

theorem only_cleanup (size : Option Int) (cutoff : Time.Timestamp) : (cleanup site size cutoff).Only Call.AddsNothing := by
  rw [cleanup]
  rcases defaultCleaners_cases site size with ⟨e, failed⟩ | ⟨n, h, made⟩
  · rw [failed]
    exact .fail _
  · rw [made]
    refine only_runCleanup (fun c hc => ?_) cutoff
    rcases List.mem_cons.1 hc with rfl | hc
    · exact only_executions (fun _ => trivial) (fun _ => trivial) (fun _ _ => trivial)
    · rw [List.mem_singleton.1 hc]
      exact only_files (fun _ => trivial) (fun _ => trivial) (fun _ => trivial) (fun _ _ => trivial)

end Retention

/-! ## Commands -/

namespace Command

theorem only_expire (colored : Bool) (days size : Int) : (expire site colored days size).Only Call.AddsNothing := by
  refine Op.only_reply _ trivial _ fun now => (Prog.only_ofExcept _).bind fun cutoff => ?_
  refine Prog.Only.bind (Op.only_ask trivial) fun _ => ?_
  refine (Prog.Only.rescue (Retention.only_cleanup _ cutoff) fun _ => .fail _).bind fun counts => ?_
  exact Prog.Only.forM (fun _ => Op.only_ask trivial) counts

theorem only_reconcile (colored : Bool) : (reconcile site colored).Only Call.AddsNothing :=
  (Prog.Only.rescue (Files.only_sweep.mono fun _ h => h.2) fun _ => .fail _).bind fun _ => Op.only_ask trivial

theorem only_carryOut (c : Name) (program : String) (r : Request) :
    (c.carryOut site program r).Only Call.AddsNothing := by
  cases r with
  | help => exact Op.only_ask trivial
  | version => exact Op.only_ask trivial
  | run given =>
    unfold Name.carryOut Name.run
    dsimp only
    split
    · constructor
    · cases c with
      | reconcile => exact only_reconcile _
      | cleanup =>
        exact (Files.only_setting _).bind fun _ => (Files.only_setting _).bind fun _ => (Prog.only_ofExcept _).bind
          fun _ => (Prog.only_ofExcept _).bind fun _ => only_expire _ _ _

theorem only_prepare {ok : Call → Prop} (c : Name) : (c.prepare site).Only ok := by
  cases c with
  | reconcile => exact .done _
  | cleanup => exact (Files.only_setting _).bind fun _ => (Files.only_setting _).bind fun _ => .done _

/-- **Commands ask for nothing more in the stores.** -/
theorem only_call (command : String) (arguments : List String) :
    (call site command arguments).Only Call.AddsNothing := by
  rw [call]
  split
  · constructor
  · refine (only_prepare _).bind fun _ => ?_
    split
    · constructor
    · exact only_carryOut _ _ _

theorem only_adopt {ok : Call → Prop} (given : List Given) : (adopt given).Only ok := by
  rw [adopt]
  split
  · split <;> constructor
  · constructor

theorem only_say {ok : Call → Prop} (h : ∀ text, ok (.print text)) (text : String) : (say text).Only ok :=
  Op.only_reply _ (h _) _ fun _ => .done _

theorem only_runReporting (c : Name) (r : Request) : (runReporting c site r).Only Call.AddsNothing := by
  refine (only_carryOut c _ r).attempt.bind fun outcome => ?_
  cases outcome with
  | ok _ => exact .done _
  | error e =>
    dsimp only
    split <;> split <;> constructor

theorem only_runWith (c : Name) (arguments : List String) : (runWith site c arguments).Only Call.AddsNothing := by
  refine (only_prepare _).bind fun _ => ?_
  split
  · constructor
  · split
    · exact (only_adopt _).bind fun _ => only_runReporting c _
    · exact only_runReporting c _

theorem only_tell {ok : Call → Prop} (h : ∀ text, ok (.print text)) (read : Option Reading) : (tell read).Only ok := by
  cases read with
  | none => exact .fail _
  | some r =>
    rw [tell]
    split
    · exact only_say h _
    · split
      · exact only_say h _
      · split
        · constructor
        · exact only_say h _

/-- **So does the program that runs them.** -/
theorem only_manage (arguments : List String) : (manage site arguments).Only Call.AddsNothing := by
  have say : ∀ text, (say text).Only Call.AddsNothing := fun text => only_say (fun _ => trivial) text
  unfold manage
  extract_lets read chosen
  have only : ∀ u, (chosen u).Only Call.AddsNothing := by
    intro u
    dsimp only [chosen]
    split
    · exact say _
    · exact say _
    · exact say _
    · exact only_tell (fun _ => trivial) _
    · exact say _
    · exact say _
    · split
      · constructor
      · exact only_runWith _ _
  clear_value chosen read
  cases read with
  | some r => exact (only_adopt _).bind fun u => only u
  | none => exact only _

end Command

end Depot
