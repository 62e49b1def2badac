import SchemaTransfer.Proofs.Bigtable.Results
import SchemaTransfer.Proofs.Command.Verdict
import SchemaTransfer.Proofs.Transfer.Options

/-!
# How a transfer command ends

A transfer command goes from step to step until one of them ends it, and which one that is decides
the exit code and what is said of success. What the writing comes to depends on the world in which
the command started, since nothing that comes before it changes a file or the destination.
-/
namespace SchemaTransfer

namespace Run

variable {α β : Type} {w v : World}

theorem bind_of_error {ε : Type} {x : Run ε α} {f : α → Run ε β} {e : ε}
    (h : x w = (.error e, v)) : (x >>= f) w = (.error e, v) := by
  rw [bind_apply, h]

theorem reporting_of_error {console : Console} {intro : Text} {x : Run Failure α} {e : Failure}
    (h : x w = (.error e, v)) : reporting console intro x w = report console intro e v := by
  rw [reporting, recover, h]
  rfl

/-- After a report nothing follows. -/
theorem report_bind (console : Console) (intro : Text) (e : Failure) (f : α → Run Exit β) :
    (report console intro e >>= f) = report console intro e := by
  rw [report, report]
  split
  · simp only [giveUpWithHint, bind_assoc]
    rfl
  · rfl

theorem bind_of_report {x : Run Exit α} {f : α → Run Exit β} {console : Console} {intro : Text}
    {e : Failure} (h : x w = report console intro e v) :
    (x >>= f) w = report console intro e v := by
  rw [bind_apply, h, ← bind_apply, report_bind]

theorem failsWith_handOver (refusal : Option Fault) (e : Event) :
    FailsWith Exit.IsRefusal (handOver refusal e) := by
  cases refusal with
  | some fault => exact failsWith_fail ⟨fault, rfl⟩
  | none => exact failsWith_note e

/-- A command that is to end with `last` once something is said. -/
theorem failsWith_after {x : Run Exit β} {last : Exit} (hx : FailsWith Exit.IsRefusal x) :
    FailsWith (fun exit => exit = last ∨ exit.IsRefusal) (x >>= fun _ => fail last : Run Exit α) :=
  failsWith_bind (hx.mono fun _ => Or.inr) fun _ => failsWith_fail (Or.inl rfl)

theorem failsWith_stop (console : Console) (warning : Text) :
    FailsWith (fun exit => exit = .done ∨ exit.IsRefusal) (stop console warning : Run Exit α) :=
  failsWith_after (failsWith_handOver _ _)

/-- How a command ends over a failure of one of its steps. -/
theorem failsWith_report (console : Console) (intro : Text) (e : Failure) :
    FailsWith (fun exit => exit = (if e.isReported then .failed else .raised e) ∨ exit.IsRefusal)
      (report console intro e : Run Exit α) := by
  rw [report]
  split
  · exact failsWith_bind ((failsWith_handOver _ _).mono fun _ => Or.inr) fun _ =>
      failsWith_after (failsWith_handOver _ _)
  · exact failsWith_fail (Or.inl rfl)

end Run

namespace TransferCommand

variable {s : Surroundings} {command : TransferCommand} {t : Transfer} {p : Pipeline}
  {c : ClusterSchema} {e : Failure} {exit : Exit} {u v w x : World}

/-! ## The ways to end -/

/-- The options are accepted, the set-up succeeds, and there is a plan. -/
structure Planned (s : Surroundings) (command : TransferCommand) (w : World) (t : Transfer)
    (c : ClusterSchema) : Prop where
  accepted : command.options.check = .ok t
  planned : ∃ p v v', Pipeline.prepare s t w = (.ok p, v) ∧
    Pipeline.plan s p (planning v) = (.ok c, v')

/-- Tables in an instance were to be created, and consent to that was refused. -/
structure Declined (s : Surroundings) (command : TransferCommand) (t : Transfer) : Prop where
  tables : ∀ path, t.destination ≠ .file path
  unsaid : command.yes = false
  refused : s.answer ≠ some true

/-- Writing succeeds: the file can be written, or the attempt at each table succeeds in the world
that the attempts before it left. -/
def WriteSucceeds (s : Surroundings) (c : ClusterSchema) (w : World) : Destination → Prop
  | .file path => (writeSchemaFile (.ofText path) (some c) w).1 = .ok ()
  | .bigtable _ _ =>
    ∀ t u, s.bigtable.AttemptAt c w t u → (s.bigtable.createTable t u).1 = .ok ()

/-- The plan has got to the destination: the file holds exactly its text, or each of its tables is
there now, behind those that were, as it was asked for. -/
def Delivered (c : ClusterSchema) (w v : World) : Destination → Prop
  | .file path => ∃ t content, c.toText = .ok t ∧ Utf8.encode? t = some content ∧
    v.files.read (.ofText path) = .ok content
  | .bigtable _ _ => ∃ new, v.tables = w.tables ++ new ∧
    List.Forall₂ (fun t r => Bigtable.requestFor t = .ok r) c.tables new

/-- The table that shows results, one row for each. -/
def resultsTable (results : List CreateResult) : Event :=
  .table "Create results" ["Table", "Result"] (results.map CreateResult.row)

/-- The world after a command that started in `w`, its exit, and the verdicts that it showed. -/
inductive Ending (s : Surroundings) (command : TransferCommand) (w : World) :
    World → Exit → List Event → Prop
  | refused {complaint : OptionsError}
    (hrefused : command.options.check = .error (.options complaint)) :
    Ending s command w ((w.note (.print (Line.error complaint.message).markup)).note .usage)
      .misused []
  | raised {v : World} {e : Failure} {vs : List Event} (hforeign : e.isOwn = false) :
    Ending s command w v (.raised e) vs
  | unready {v u : World} {t : Transfer} {e : Failure} (haccepted : command.options.check = .ok t)
    (hfailed : Pipeline.prepare s t w = (.error e, u)) : Ending s command w v .failed []
  | unplanned {v u x : World} {t : Transfer} {p : Pipeline} {e : Failure}
    (haccepted : command.options.check = .ok t) (hready : Pipeline.prepare s t w = (.ok p, u))
    (hfailed : Pipeline.plan s p (planning u) = (.error e, x)) : Ending s command w v .failed []
  | unwanted {v : World} {t : Transfer} {c : ClusterSchema} (hplanned : Planned s command w t c)
    (hends : command.dryRun = true ∨ Declined s command t) : Ending s command w v .done []
  | unwritten {v : World} {t : Transfer} {c : ClusterSchema} {path : Text}
    (hcleared : Cleared s command w t c) (hfile : t.destination = .file path)
    (hfailed : ¬ WriteSucceeds s c w t.destination) : Ending s command w v .failed []
  | partly {v : World} {t : Transfer} {c : ClusterSchema} {results : List CreateResult}
    {new : List Bigtable.Request} (hcleared : Cleared s command w t c)
    (hfailed : ¬ WriteSucceeds s c w t.destination)
    (hresults : (s.bigtable.attempts c.tables w).1 = results) (hnew : v.tables = w.tables ++ new)
    (hreported : Bigtable.Reported c.tables results new) :
    Ending s command w v .failed [resultsTable results]
  | written {v : World} {t : Transfer} {c : ClusterSchema} {message : Text}
    (hcleared : Cleared s command w t c) (hwritten : WriteSucceeds s c w t.destination)
    (hdelivered : Delivered c w v t.destination) :
    Ending s command w v .done [.print (Line.success message).markup]

/-- An ending together with the verdicts that are in the record. -/
def Ends (s : Surroundings) (command : TransferCommand) (w : World) (r : Except Exit Unit)
    (v : World) : Prop :=
  ∃ vs, Ending s command w v (.ofResult r) vs ∧ World.Verdicts vs w v

/-! ## Before the writing -/

theorem Ending.of_refusal {vs : List Event} (h : exit.IsRefusal) :
    Ending s command w v exit vs := by
  obtain ⟨fault, rfl⟩ := h
  exact .raised rfl

theorem failsWith_prepare (e : Failure) : Run.FailsWith
    (fun exit => exit = (if e.isOwn then .failed else .raised e) ∨ exit.IsRefusal)
    (match e with
      | .credentials _ => Run.giveUp s.console e.message
      | _ => Run.reporting s.console "" (Run.fail e) : Run Exit Pipeline) := by
  have hreport : e.isCredentials = false → Run.FailsWith
      (fun exit => exit = (if e.isOwn then .failed else .raised e) ∨ exit.IsRefusal)
      (Run.report s.console "" e : Run Exit Pipeline) := by
    intro he
    rw [Failure.isOwn, he, Bool.or_false]
    exact Run.failsWith_report _ _ _
  cases e with
  | credentials reason => exact Run.failsWith_after (Run.failsWith_handOver _ _)
  | _ => exact hreport rfl

theorem prepare_of_failure (h : Pipeline.prepare s t w = (.error e, u))
    (hexit : prepare s t w = (.error exit, v)) :
    exit = (if e.isOwn then .failed else .raised e) ∨ exit.IsRefusal := by
  rw [prepare, Run.recover, h] at hexit
  exact (failsWith_prepare e).next hexit

theorem plan_of_failure (h : Pipeline.plan s p (planning u) = (.error e, v)) :
    plan s p u = Run.report s.console "Failed to read schema: " e v :=
  Run.reporting_of_error h

theorem failsWith_present :
    Run.FailsWith Exit.IsRefusal (present s t c) := by
  have hlisting : Run.FailsWith Exit.IsRefusal (listing s.console c) := by
    rw [listing]
    split
    · exact Run.failsWith_handOver _ _
    · exact Run.failsWith_bind (Run.failsWith_handOver _ _) fun _ => Run.failsWith_handOver _ _
  exact Run.failsWith_bind hlisting fun _ => Run.failsWith_bind (Run.failsWith_handOver _ _)
    fun _ => Run.failsWith_bind (Run.failsWith_handOver _ _) fun _ => Run.failsWith_handOver _ _

/-- What stands between a plan and its writing ends a command well, unless the console does. -/
theorem failsWith_permit :
    Run.FailsWith (fun exit => exit = .done ∨ exit.IsRefusal) (permit s command t c) := by
  refine Run.failsWith_bind (failsWith_present.mono fun _ => Or.inr) fun _ =>
    Run.failsWith_bind ?_ fun _ => ?_
  · rw [endDryRun]
    split
    · exact Run.failsWith_stop _ _
    · exact Run.failsWith_pure ()
  · cases t.destination with
    | file path => exact Run.failsWith_pure ()
    | bigtable project instanceId =>
      rw [consent]
      split
      · exact Run.failsWith_pure ()
      · refine Run.failsWith_bind (Run.failsWith_bind ((Run.failsWith_handOver _ _).mono
          fun _ => Or.inr) fun _ => Run.failsWith_bind (Run.failsWith_note _) fun _ =>
            Run.failsWith_pure _) fun agreed => ?_
        split
        · exact Run.failsWith_pure ()
        · exact Run.failsWith_stop _ _

/-- Where the writing is wanted, only the console can stand in its way. -/
theorem failsWith_permit_of_allowed (hwanted : command.dryRun = false)
    (hallowed : (∃ path, t.destination = .file path) ∨ command.yes = true ∨
      s.answer = some true) : Run.FailsWith Exit.IsRefusal (permit s command t c) := by
  refine Run.failsWith_bind failsWith_present fun _ => Run.failsWith_bind ?_ fun _ => ?_
  · rw [endDryRun, if_neg (Bool.eq_false_iff.mp hwanted)]
    exact Run.failsWith_pure ()
  · cases hd : t.destination with
    | file path => exact Run.failsWith_pure ()
    | bigtable project instanceId =>
      rw [consent]
      split
      · exact Run.failsWith_pure ()
      · next hyes =>
        have hanswer : s.answer = some true := by
          rcases hallowed with ⟨path, hfile⟩ | hyes' | hanswer
          · cases hd.symm.trans hfile
          · exact absurd hyes' hyes
          · exact hanswer
        rw [Run.ask, hanswer]
        simp only [bind_assoc, pure_bind]
        exact Run.failsWith_bind (Run.failsWith_handOver _ _) fun _ =>
          Run.failsWith_bind (Run.failsWith_note _) fun _ => Run.failsWith_pure ()

/-- What stands between a plan and its writing ends a command only if the writing is not wanted, or
if the console does. -/
theorem permit_of_failure (h : permit s command t c u = (.error exit, v)) :
    exit.IsRefusal ∨ exit = .done ∧ (command.dryRun = true ∨ Declined s command t) := by
  rcases failsWith_permit.next h with hdone | hrefusal
  · by_cases hends : command.dryRun = true ∨ Declined s command t
    · exact Or.inr ⟨hdone, hends⟩
    · obtain ⟨hwanted, hagreed⟩ := not_or.mp hends
      refine Or.inl ((failsWith_permit_of_allowed (Bool.eq_false_iff.mpr hwanted) ?_).next h)
      by_contra hrefused
      obtain ⟨htables, hrest⟩ := not_or.mp hrefused
      obtain ⟨hyes, hanswer⟩ := not_or.mp hrest
      exact hagreed ⟨not_exists.mp htables, Bool.eq_false_iff.mpr hyes, hanswer⟩
  · exact Or.inl hrefusal

theorem accept_of_refusal {complaint : OptionsError} {r : Except Exit Transfer}
    (hcheck : command.options.check = .error (.options complaint))
    (h : accept s.console command.options w = (r, v)) :
    (s.console.refusal? [(Line.error complaint.message).markup] = none ∧ r = .error .misused ∧
      v = (w.note (.print (Line.error complaint.message).markup)).note .usage) ∨
    ∃ exit, r = .error exit ∧ exit.IsRefusal := by
  rw [accept, hcheck] at h
  dsimp only at h
  rw [Run.misuse, Run.say] at h
  cases hrefusal : s.console.refusal? [(Line.error complaint.message).markup] with
  | none =>
    rw [hrefusal] at h
    cases h
    exact Or.inl ⟨rfl, rfl, rfl⟩
  | some fault =>
    rw [hrefusal] at h
    cases h
    exact Or.inr ⟨_, rfl, fault, rfl⟩

theorem accept_ends (h : accept s.console command.options w = (.error exit, v)) :
    Ending s command w v exit [] := by
  cases hcheck : command.options.check with
  | error e =>
    rcases Options.refusal_of_check hcheck with ⟨complaint, rfl⟩ | ⟨fault, rfl⟩
    · rcases accept_of_refusal hcheck h with ⟨-, hexit, rfl⟩ | ⟨exit', hexit, hrefusal⟩
      · cases hexit
        exact .refused hcheck
      · cases hexit
        exact .of_refusal hrefusal
    · rw [accept, hcheck] at h
      cases h
      exact .raised rfl
  | ok t => cases (accept_of_ok hcheck w).symm.trans h

theorem prepare_ends (hcheck : command.options.check = .ok t)
    (h : prepare s t w = (.error exit, v)) : Ending s command w v exit [] := by
  rcases hprepare : Pipeline.prepare s t w with ⟨e | p, u⟩
  · rcases prepare_of_failure hprepare h with rfl | hrefusal
    · split
      · exact .unready hcheck hprepare
      · next hown => exact .raised (Bool.eq_false_iff.mpr hown)
    · exact .of_refusal hrefusal
  · cases (prepare_eq_ok.mpr hprepare).symm.trans h

theorem plan_ends (hcheck : command.options.check = .ok t)
    (hprepare : Pipeline.prepare s t w = (.ok p, u)) (h : plan s p u = (.error exit, v)) :
    Ending s command w v exit [] := by
  rcases hplan : Pipeline.plan s p (planning u) with ⟨e | c, x⟩
  · rcases (Run.failsWith_report s.console "Failed to read schema: " e).next
      ((plan_of_failure hplan).symm.trans h) with rfl | hrefusal
    · split
      · exact .unplanned hcheck hprepare hplan
      · next hreported =>
        have hneeds := (Pipeline.needsNoCredentials_plan s p).next hplan
        refine .raised ?_
        rw [Failure.isOwn, hneeds, Bool.eq_false_iff.mpr hreported]
        rfl
    · exact .of_refusal hrefusal
  · cases (plan_eq_ok.mpr hplan).symm.trans h

theorem permit_ends (hplanned : Planned s command w t c)
    (h : permit s command t c u = (.error exit, v)) : Ending s command w v exit [] := by
  rcases permit_of_failure h with hrefusal | ⟨rfl, hends⟩
  · exact .of_refusal hrefusal
  · exact .unwanted hplanned hends

theorem clear_of_failure (h : clear s command w = (.error exit, v)) :
    Ending s command w v exit [] := by
  rw [clear] at h
  rcases Run.bind_eq_error.mp h with haccept | ⟨t, w', haccept, h⟩
  · exact accept_ends haccept
  obtain ⟨hcheck, rfl⟩ := accept_eq_ok haccept
  rcases Run.bind_eq_error.mp h with hprepare | ⟨p, u, hprepare, h⟩
  · exact prepare_ends hcheck hprepare
  have hready := prepare_eq_ok.mp hprepare
  rcases Run.bind_eq_error.mp h with hplan | ⟨c, x, hplan, h⟩
  · exact plan_ends hcheck hready hplan
  rcases Run.bind_eq_error.mp h with hpermit | ⟨-, y, -, h⟩
  · exact permit_ends ⟨hcheck, p, u, x, hready, plan_eq_ok.mp hplan⟩ hpermit
  · cases h

/-! ## Writing -/

theorem sameRequest_refl (tables : List TableSchema) :
    List.Forall₂ Bigtable.SameRequest tables tables :=
  List.forall₂_same.mpr fun _ _ => ⟨rfl, rfl, rfl⟩

/-- Before the writing nothing happened that it depends on. -/
theorem attempts_of_untouched (h : w.Untouched v) :
    (s.bigtable.attempts c.tables v).1 = (s.bigtable.attempts c.tables w).1 :=
  (Bigtable.attempts_agree s.bigtable (sameRequest_refl c.tables) h.sameDestination).1

theorem writeSucceeds_congr (h : w.Untouched v) {d : Destination} :
    WriteSucceeds s c v d ↔ WriteSucceeds s c w d := by
  cases d with
  | file path => rw [WriteSucceeds, WriteSucceeds, writeSchemaFile_congr h.files]
  | bigtable project instanceId =>
    rw [WriteSucceeds, WriteSucceeds, ← Bigtable.write_eq_ok_iff, ← Bigtable.write_eq_ok_iff,
      Bigtable.write_result, Bigtable.write_result, attempts_of_untouched h]

theorem Delivered.within {q : Event → Bool} {x : World} {d : Destination} (h : Delivered c u x d)
    (hwu : w.Untouched u) (hxv : x.Passes q v) : Delivered c w v d := by
  cases d with
  | file path =>
    obtain ⟨t, content, htext, hcontent, hread⟩ := h
    exact ⟨t, content, htext, hcontent, by rw [hxv.files]; exact hread⟩
  | bigtable project instanceId =>
    obtain ⟨new, htables, hnew⟩ := h
    exact ⟨new, by rw [hxv.tables, htables, hwu.tables], hnew⟩

/-- How the writing to a destination comes out. -/
inductive Wrote (s : Surroundings) (c : ClusterSchema) (w : World) (d : Destination) :
    Except Failure Unit → World → Prop
  | delivered {v : World} (hwritten : WriteSucceeds s c w d) (hdelivered : Delivered c w v d) :
    Wrote s c w d (.ok ()) v
  | fileFailed {v : World} {e : Failure} {path : Text} (hfile : d = .file path)
    (hfailed : ¬ WriteSucceeds s c w d) (hfault : Pipeline.WriteFailure e) :
    Wrote s c w d (.error e) v
  | someFailed {v : World} {new : List Bigtable.Request} (hfailed : ¬ WriteSucceeds s c w d)
    (hnew : v.tables = w.tables ++ new)
    (hreported : Bigtable.Reported c.tables (s.bigtable.attempts c.tables w).1 new) :
    Wrote s c w d (.error (.creation (s.bigtable.attempts c.tables w).1)) v

theorem wrote (s : Surroundings) (c : ClusterSchema) (d : Destination) (w : World) :
    Wrote s c w d (Pipeline.writeOutput s (some c) (Pipeline.outputOf d) w).1
      (Pipeline.writeOutput s (some c) (Pipeline.outputOf d) w).2 := by
  cases d with
  | file path =>
    rw [Pipeline.outputOf, Pipeline.writeOutput]
    rcases hwrite : writeSchemaFile (.ofText path) (some c) w with ⟨e | ⟨⟩, v⟩
    · refine .fileFailed rfl (fun h => ?_)
        ((Pipeline.failsWith_writeSchemaFile (.ofText path) c).next hwrite)
      rw [WriteSucceeds, hwrite] at h
      cases h
    · exact .delivered (congrArg Prod.fst hwrite) (writeSchemaFile_content hwrite)
  | bigtable project instanceId =>
    rw [Pipeline.outputOf, Pipeline.writeOutput]
    obtain ⟨new, hnew, hreported⟩ := Bigtable.exists_reported s.bigtable c.tables w
    rw [← Bigtable.write_world] at hnew
    by_cases hwritten : WriteSucceeds s c w (.bigtable project instanceId)
    · have hok := Bigtable.write_eq_ok_iff.mpr hwritten
      rw [hok]
      rw [Bigtable.write_result] at hok
      split at hok
      · next hnone => exact .delivered hwritten ⟨new, hnew, hreported.all_created hnone⟩
      · cases hok
    · have hfailed := mt Bigtable.write_eq_ok_iff.mp hwritten
      rw [Bigtable.write_result] at hfailed ⊢
      split at hfailed
      · exact absurd rfl hfailed
      · next hsome =>
        rw [if_neg hsome]
        exact .someFailed hwritten hnew hreported

theorem write_of_ok (h : Pipeline.writeOutput s (some c) p.output (writing u) = (.ok (), v)) :
    ∃ x, write s p c u = (.ok (), x) ∧ v.Passes Event.isUnseen x := by
  have hwrite : Pipeline.write s p (some c) (writing u) = Pipeline.report s "Wrote" c v := by
    rw [Pipeline.write, Run.bind_apply, h]
    rfl
  refine ⟨(Pipeline.report s "Wrote" c v).2, ?_, v.passes_note rfl⟩
  show Run.recover _ _ (writing u) = _
  rw [Run.recover, hwrite]
  rfl

/-- What the command has to say of a failure to write. -/
def reportWriting (console : Console) : Failure → Run Exit Unit
  | .creation results => reportCreation console results
  | e => Run.reporting console "Failed to write schema: " (Run.fail e)

theorem write_of_failure (h : Pipeline.writeOutput s (some c) p.output (writing u) = (.error e, v)) :
    write s p c u = reportWriting s.console e v := by
  have hwrite : Pipeline.write s p (some c) (writing u) = (.error e, v) := Run.bind_of_error h
  show Run.recover _ _ (writing u) = _
  rw [Run.recover, hwrite]
  cases e <;> rfl

theorem reportCreation_ends (console : Console) (results : List CreateResult) (w : World) :
    ∃ exit v, reportCreation console results w = (.error exit, v) ∧ v.tables = w.tables ∧
      (exit.IsRefusal ∨ exit = .failed ∧ World.Verdicts [resultsTable results] w v) := by
  obtain ⟨message, hreport⟩ : ∃ message, reportCreation console results = (do
      Run.present console (.ofResults results)
      Run.giveUpWithHint console message) := ⟨_, rfl⟩
  rw [Run.giveUpWithHint_eq, ← Run.handAll_table, ← bind_assoc, ← Run.handAll_append] at hreport
  obtain ⟨exit, shown, hhanded, hrun⟩ := Run.handed_fail (α := Unit) console .failed
    (resultsTable results :: Run.complaint message) w
  refine ⟨exit, w.record shown, by rw [hreport]; exact hrun, rfl, hhanded.isRefusal_or.imp_right ?_⟩
  rintro ⟨hexit, rfl⟩
  exact ⟨hexit, _, rfl, rfl⟩

theorem succeed_ends (console : Console) (c : ClusterSchema) (d : Destination) (w : World) :
    (∃ message, succeed console c d w =
      (.ok (), w.note (.print (Line.success message).markup))) ∨
    ∃ exit, succeed console c d w = (.error exit, w) ∧ exit.IsRefusal := by
  have hsay : ∀ message, (∃ m, Run.say console (.success message) w =
      (.ok (), w.note (.print (Line.success m).markup))) ∨
      ∃ exit, Run.say console (.success message) w = (.error exit, w) ∧ exit.IsRefusal := by
    intro message
    rw [Run.say]
    cases console.refusal? [(Line.success message).markup] with
    | none => exact Or.inl ⟨message, rfl⟩
    | some fault => exact Or.inr ⟨_, rfl, fault, rfl⟩
  cases d <;> exact hsay _

/-- The writing, and what is said of its success. -/
def conclude (s : Surroundings) (p : Pipeline) (c : ClusterSchema) (d : Destination) :
    Run Exit Unit := do
  write s p c
  succeed s.console c d

section

variable (hcleared : Cleared s command w t c) (hstart : w.Untouched (writing u))
  (hx : w.Records (fun e => !e.isVerdict) x)

include hcleared hstart hx

theorem delivered_ends
    (hwrite : Pipeline.writeOutput s (some c) p.output (writing u) = (.ok (), x))
    (hwritten : WriteSucceeds s c (writing u) t.destination)
    (hdelivered : Delivered c (writing u) x t.destination) :
    Ends s command w (conclude s p c t.destination u).1 (conclude s p c t.destination u).2 := by
  obtain ⟨y, hok, hy⟩ := write_of_ok hwrite
  have hwy : w.Records (fun e => !e.isVerdict) y :=
    hx.trans (hy.records.mono fun _ h =>
      Event.not_isVerdict_of_not_isOnScreen (Event.not_isOnScreen_of_isUnseen h))
  rw [conclude, Run.bind_apply, hok]
  dsimp only
  rcases succeed_ends s.console c t.destination y with ⟨message, hsaid⟩ | ⟨exit, hsaid, hrefusal⟩
  · rw [hsaid]
    have hquiet : x.Passes Event.isQuiet (y.note (.print (Line.success message).markup)) :=
      (hy.mono fun _ => Event.isQuiet_of_isUnseen).trans (y.passes_note rfl)
    exact ⟨_, .written hcleared ((writeSucceeds_congr hstart).mp hwritten)
      (hdelivered.within hstart hquiet), (y.verdicts_note rfl).before hwy⟩
  · rw [hsaid]
    exact ⟨[], .of_refusal hrefusal, hwy.verdicts⟩

theorem fileFailed_ends {path : Text}
    (hwrite : Pipeline.writeOutput s (some c) p.output (writing u) = (.error e, x))
    (hfile : t.destination = .file path) (hfailed : ¬ WriteSucceeds s c (writing u) t.destination)
    (hfault : Pipeline.WriteFailure e) :
    Ends s command w (conclude s p c t.destination u).1 (conclude s p c t.destination u).2 := by
  have hnot := mt (writeSucceeds_congr hstart).mpr hfailed
  have hreport : write s p c u = Run.report s.console "Failed to write schema: " e x := by
    rw [write_of_failure hwrite]
    cases hfault <;> rfl
  have hundecided := Run.undecided_report (α := Unit) s.console "Failed to write schema: " e x
  rcases hends : (Run.report s.console "Failed to write schema: " e x :
    Except Exit Unit × World) with ⟨exit | _, y⟩
  · have hexit := (Run.failsWith_report _ _ _).next hends
    rw [hends] at hundecided
    rw [conclude, Run.bind_of_error (hreport.trans hends)]
    refine ⟨[], ?_, (hx.trans hundecided).verdicts⟩
    show Ending s command w y exit []
    rcases hexit with rfl | hrefusal
    · split
      · exact .unwritten hcleared hfile hnot
      · next hreported =>
        refine .raised ?_
        rw [Failure.isOwn, Bool.eq_false_iff.mpr hreported]
        cases hfault <;> rfl
    · exact .of_refusal hrefusal
  · obtain ⟨exit, he⟩ := (Run.givesUp_report (α := Unit) s.console "Failed to write schema: "
      e).fails x
    cases (congrArg Prod.fst hends).symm.trans he

theorem someFailed_ends {new : List Bigtable.Request}
    (hwrite : Pipeline.writeOutput s (some c) p.output (writing u) =
      (.error (.creation (s.bigtable.attempts c.tables (writing u)).1), x))
    (hfailed : ¬ WriteSucceeds s c (writing u) t.destination)
    (hnew : x.tables = (writing u).tables ++ new)
    (hreported : Bigtable.Reported c.tables (s.bigtable.attempts c.tables (writing u)).1 new) :
    Ends s command w (conclude s p c t.destination u).1 (conclude s p c t.destination u).2 := by
  have hnot := mt (writeSucceeds_congr hstart).mpr hfailed
  rw [attempts_of_untouched hstart] at hreported hwrite
  rw [hstart.tables] at hnew
  obtain ⟨exit, y, hends, htables, hexit⟩ :=
    reportCreation_ends s.console (s.bigtable.attempts c.tables w).1 x
  rw [conclude, Run.bind_of_error ((write_of_failure hwrite).trans hends)]
  rcases hexit with hrefusal | ⟨rfl, htable⟩
  · obtain ⟨es, hevents⟩ : ∃ es, y.events = w.events ++ es := by
      obtain ⟨before, hbefore, -⟩ := hx
      obtain ⟨after, hafter, -⟩ := ((givesUp_write s.console
        (.creation (s.bigtable.attempts c.tables w).1)).quiet.next hends).records
      exact ⟨before ++ after, by rw [hafter, hbefore, List.append_assoc]⟩
    exact ⟨_, .of_refusal hrefusal, es, hevents, rfl⟩
  · exact ⟨_, .partly hcleared hnot rfl (htables.trans hnew) hreported, htable.before hx⟩

end

/-- How a command ends that has got so far as to write. -/
theorem conclude_ends (hcleared : Cleared s command w t c)
    (hwu : w.Passes (fun e => !e.isWriting) u) (hundecided : w.Records (fun e => !e.isVerdict) u)
    (hp : p.output = Pipeline.outputOf t.destination) :
    Ends s command w (conclude s p c t.destination u).1 (conclude s p c t.destination u).2 := by
  have hstart : w.Untouched (writing u) :=
    (hwu.trans (u.passes_note rfl)).untouched fun _ h => h
  have hwrote := wrote s c t.destination (writing u)
  have hshown := Pipeline.offScreen_writeOutput s c p.output (writing u)
  rw [← hp] at hwrote
  rcases hwrite : Pipeline.writeOutput s (some c) p.output (writing u) with ⟨r, x⟩
  rw [hwrite] at hwrote hshown
  have hx : w.Records (fun e => !e.isVerdict) x :=
    (hundecided.trans (u.records_note rfl)).trans
      (hshown.mono fun _ => Event.not_isVerdict_of_not_isOnScreen)
  cases hwrote with
  | delivered hwritten hdelivered =>
    exact delivered_ends hcleared hstart hx hwrite hwritten hdelivered
  | fileFailed hfile hfailed hfault =>
    exact fileFailed_ends hcleared hstart hx hwrite hfile hfailed hfault
  | someFailed hfailed hnew hreported =>
    exact someFailed_ends hcleared hstart hx hwrite hfailed hnew hreported

/-- However a transfer command ends, it is one of the endings, with its exit and its verdicts. -/
theorem run_ends (s : Surroundings) (command : TransferCommand) (w : World) :
    Ends s command w (run s command w).1 (run s command w).2 := by
  rw [run_eq_clear, Run.bind_apply]
  have hundecided := undecided_clear s command w
  rcases hclear : clear s command w with ⟨exit | ⟨t, p, c⟩, u⟩
  · rw [hclear] at hundecided
    exact ⟨[], clear_of_failure hclear, hundecided.verdicts⟩
  · rw [hclear] at hundecided
    obtain ⟨hcleared, hshown, hp⟩ := clear_eq_ok hclear
    exact conclude_ends hcleared hshown.unwritten hundecided hp

end TransferCommand

end SchemaTransfer
