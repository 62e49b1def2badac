import SchemaTransfer.Command.Transfer
import SchemaTransfer.Proofs.Bigtable.Attempts
import SchemaTransfer.Proofs.Transfer.Stages

/-!
# The steps of a transfer command

What each step of the command adds to a world, and what it means that the step did not end the
command. A failure that is reported adds nothing but the report.
-/
namespace SchemaTransfer

/-! ## Giving up -/

namespace Run

variable {ε ε' α β : Type} {w v : World}

/-- A run that says something and then ends without a value. -/
structure GivesUp (x : Run ε α) : Prop where
  fails : x.Fails
  quiet : Quiet x

theorem givesUp_fail (e : ε) : GivesUp (fail e : Run ε α) := ⟨fun _ => ⟨e, rfl⟩, within_fail e⟩

theorem givesUp_after {x : Run ε β} {f : β → Run ε α} (hx : Quiet x) (hf : ∀ b, GivesUp (f b)) :
    GivesUp (x >>= f) := by
  refine ⟨fun w => ?_, within_bind hx fun b => (hf b).quiet⟩
  rw [bind_apply]
  rcases x w with ⟨e | b, v⟩
  · exact ⟨e, rfl⟩
  · exact (hf b).fails v

theorem quiet_handOver (refusal : Option Fault) {e : Event} (h : e.isQuiet) :
    Quiet (handOver refusal e) := by
  cases refusal with
  | some fault => exact within_fail _
  | none => exact quiet_note h

theorem quiet_say (console : Console) (l : Line) : Quiet (say console l) := quiet_handOver _ rfl

theorem quiet_present (console : Console) (l : Listing) : Quiet (present console l) :=
  quiet_handOver _ rfl

theorem givesUp_stop (console : Console) (warning : Text) :
    GivesUp (stop console warning : Run Exit α) :=
  givesUp_after (quiet_say _ _) fun _ => givesUp_fail _

theorem givesUp_misuse (console : Console) (message : Text) :
    GivesUp (misuse console message : Run Exit α) :=
  givesUp_after (quiet_say _ _) fun _ => givesUp_after (quiet_note rfl) fun _ => givesUp_fail _

theorem givesUp_giveUp (console : Console) (message : Text) :
    GivesUp (giveUp console message : Run Exit α) :=
  givesUp_after (quiet_say _ _) fun _ => givesUp_fail _

theorem givesUp_giveUpWithHint (console : Console) (message : Text) :
    GivesUp (giveUpWithHint console message : Run Exit α) :=
  givesUp_after (quiet_say _ _) fun _ => givesUp_after (quiet_say _ _) fun _ => givesUp_fail _

theorem GivesUp.recover {x : Run ε α} {f : ε → Run ε' α} (hx : GivesUp x)
    (hf : ∀ e, GivesUp (f e)) : GivesUp (x.recover f) := by
  refine ⟨fun w => ?_, within_recover hx.quiet fun e => (hf e).quiet⟩
  obtain ⟨e, he⟩ := hx.fails w
  rw [Run.recover]
  rcases hxw : x w with ⟨e' | a, v⟩
  · exact (hf e').fails v
  · rw [hxw] at he
    cases he

/-- The words for a failure. -/
theorem givesUp_report (console : Console) (intro : Text) (e : Failure) : GivesUp
    (if e.isReported then giveUpWithHint console (intro ++ e.message) else fail (.raised e) :
      Run Exit α) := by
  split
  · exact givesUp_giveUpWithHint _ _
  · exact givesUp_fail _

theorem givesUp_reporting (console : Console) (intro : Text) (e : Failure) :
    GivesUp (reporting console intro (fail e) : Run Exit α) :=
  (givesUp_fail e).recover (givesUp_report console intro)

theorem recover_of_error {x : Run ε α} {f : ε → Run ε' α} (hf : ∀ e, GivesUp (f e)) {e : ε}
    (h : x w = (.error e, v)) :
    ∃ e' u, x.recover f w = (.error e', u) ∧ v.Passes Event.isQuiet u := by
  have hrecovered : x.recover f w = f e v := by rw [Run.recover, h]
  obtain ⟨e', he⟩ := (hf e).fails v
  exact ⟨e', (f e v).2, hrecovered.trans (Prod.ext he rfl), (hf e).quiet v⟩

end Run

namespace TransferCommand

variable {s : Surroundings} {console : Console} {command : TransferCommand} {t : Transfer}
  {p : Pipeline} {c : ClusterSchema} {u v w : World}

/-! ## Up to the plan -/

theorem givesUp_accept {o : Options} {e : Failure} (h : o.check = .error e) :
    Run.GivesUp (accept console o) := by
  rw [accept, h]
  split
  · next heq => cases heq
  · exact Run.givesUp_misuse _ _
  · exact Run.givesUp_fail _

theorem accept_of_ok {o : Options} (h : o.check = .ok t) (w : World) :
    accept console o w = (.ok t, w) := by
  rw [accept, h]
  rfl

theorem accept_eq_ok {o : Options} (h : accept console o w = (.ok t, v)) :
    o.check = .ok t ∧ w = v := by
  cases hcheck : o.check with
  | error e =>
    obtain ⟨_, he⟩ := (givesUp_accept hcheck).fails w
    rw [h] at he
    cases he
  | ok t' =>
    rw [accept_of_ok hcheck] at h
    cases h
    exact ⟨rfl, rfl⟩

/-- What is done about a failure of the set-up. -/
theorem givesUp_prepare (console : Console) (e : Failure) : Run.GivesUp (match e with
    | .credentials _ => Run.giveUp console e.message
    | _ => Run.reporting console "" (Run.fail e) : Run Exit Pipeline) := by
  split
  · exact Run.givesUp_giveUp _ _
  · exact Run.givesUp_reporting _ _ e

theorem prepare_eq_ok : prepare s t w = (.ok p, v) ↔ Pipeline.prepare s t w = (.ok p, v) :=
  Run.recover_eq_ok_of_fails fun e => (givesUp_prepare s.console e).fails

theorem prepare_of_error {e : Failure} (h : Pipeline.prepare s t w = (.error e, v)) :
    ∃ e' u, prepare s t w = (.error e', u) ∧ v.Passes Event.isQuiet u :=
  Run.recover_of_error (givesUp_prepare s.console) h

theorem prepare_world (s : Surroundings) (t : Transfer) (w : World) :
    (Pipeline.prepare s t w).2.Passes Event.isQuiet (prepare s t w).2 :=
  Run.after_recover _ (fun e => (givesUp_prepare s.console e).quiet) w

/-- The world in which planning begins. -/
def planning (w : World) : World := w.note (.status "Reading schema...")

theorem plan_eq_ok :
    plan s p w = (.ok c, v) ↔ Pipeline.plan s p (planning w) = (.ok c, v) := by
  have hplan : plan s p w =
      Run.reporting s.console "Failed to read schema: " (p.plan s) (planning w) := rfl
  rw [hplan]
  exact Run.recover_eq_ok_of_fails fun e => (Run.givesUp_report _ _ e).fails

theorem plan_world (s : Surroundings) (p : Pipeline) (w : World) :
    (Pipeline.plan s p (planning w)).2.Passes Event.isQuiet (plan s p w).2 :=
  Run.after_recover _ (fun e => (Run.givesUp_report _ _ e).quiet) (planning w)

/-! ## From the plan to the permission to write it -/

/-- What stands between a plan and its writing: the plan is shown, a dry run ends, and consent is
asked for. -/
def permit (s : Surroundings) (command : TransferCommand) (t : Transfer) (c : ClusterSchema) :
    Run Exit Unit := do
  present s t c
  endDryRun s.console command.dryRun
  consent s command.yes c t.destination

theorem quiet_presentPlan (s : Surroundings) (t : Transfer) (c : ClusterSchema) :
    Run.Quiet (present s t c) := by
  have hlisting : Run.Quiet (listing s.console c) := by
    rw [listing]
    split
    · exact Run.quiet_say _ _
    · exact Run.within_bind (Run.quiet_say _ _) fun _ => Run.quiet_present _ _
  exact Run.within_bind hlisting fun _ => Run.within_bind (Run.quiet_say _ _) fun _ =>
    Run.within_bind (Run.quiet_say _ _) fun _ => Run.quiet_say _ _

theorem quiet_endDryRun (console : Console) (dryRun : Bool) :
    Run.Quiet (endDryRun console dryRun) := by
  rw [endDryRun]
  split
  · exact (Run.givesUp_stop _ _).quiet
  · exact Run.within_pure _

section

variable {q : Event → Bool}

/-- A question is all that asking for consent adds but for what is said. -/
theorem passes_consent (hquiet : ∀ e, e.isQuiet → q e)
    (hconfirm : ∀ question answer, q (.confirm question answer)) (yes : Bool) (d : Destination) :
    Run.Within (World.Passes q) (consent s yes c d) := by
  have hsaid : ∀ {α : Type} {x : Run Exit α}, x.Quiet → Run.Within (World.Passes q) x :=
    fun hx => hx.mono fun _ _ h => h.mono hquiet
  cases d with
  | file path => exact Run.within_pure _
  | bigtable project instanceId =>
    rw [consent]
    split
    · exact Run.within_pure _
    · refine Run.within_bind (Run.within_bind (hsaid (Run.quiet_say _ _)) fun _ =>
        Run.within_bind (fun w => w.passes_note (hconfirm _ _)) fun _ => Run.within_pure _)
        fun agreed => ?_
      split
      · exact Run.within_pure _
      · exact hsaid (Run.givesUp_stop _ _).quiet

theorem passes_permit (hquiet : ∀ e, e.isQuiet → q e)
    (hconfirm : ∀ question answer, q (.confirm question answer)) :
    Run.Within (World.Passes q) (permit s command t c) :=
  Run.within_bind ((quiet_presentPlan s t c).mono fun _ _ h => h.mono hquiet) fun _ =>
    Run.within_bind ((quiet_endDryRun _ _).mono fun _ _ h => h.mono hquiet) fun _ =>
      passes_consent hquiet hconfirm _ _

end

/-! ## Writing -/

/-- The second world comes of the first by writing the definition to the destination: at most the
one file is written, or there is one attempt at each table, in order. -/
def Written (c : ClusterSchema) (u v : World) : Destination → Prop
  | .file path => u.WritesOnly (.ofText path) v
  | .bigtable _ _ => ∃ x y, u.Passes Event.isQuiet x ∧ Bigtable.Attempted c.tables x y ∧
      y.Passes Event.isQuiet v

theorem Written.before {d : Destination} (huv : u.Passes Event.isQuiet v) (h : Written c v w d) :
    Written c u w d := by
  cases d with
  | file path => exact World.WritesOnly.before huv h
  | bigtable project instanceId =>
    obtain ⟨x, y, hx, hy, hend⟩ := h
    exact ⟨x, y, huv.trans hx, hy, hend⟩

theorem Written.after {d : Destination} (h : Written c u v d) (hvw : v.Passes Event.isQuiet w) :
    Written c u w d := by
  cases d with
  | file path => exact World.WritesOnly.after h hvw
  | bigtable project instanceId =>
    obtain ⟨x, y, hx, hy, hend⟩ := h
    exact ⟨x, y, hx, hy, hend.trans hvw⟩

/-- However much is written, no connection to a server is touched. -/
theorem Written.records {d : Destination} (h : Written c u v d) :
    u.Records (fun e => !e.isConnection) v := by
  have hquiet : ∀ e : Event, e.isQuiet → !e.isConnection :=
    fun _ => Event.not_isConnection_of_isQuiet
  cases d with
  | file path => exact World.WritesOnly.records h
  | bigtable project instanceId =>
    obtain ⟨x, y, hx, hattempted, hend⟩ := h
    exact ((hx.records.mono hquiet).trans hattempted.records).trans (hend.records.mono hquiet)

theorem writeOutput_written (s : Surroundings) (c : ClusterSchema) (d : Destination) (w : World) :
    Written c w (Pipeline.writeOutput s (some c) (Pipeline.outputOf d) w).2 d := by
  cases d with
  | file path => exact writeSchemaFile_writesOnly (.ofText path) c w
  | bigtable project instanceId =>
    have hquiet : ∀ results, Run.Quiet
        (if (failedTables results).isEmpty then pure () else Run.fail (.creation results) :
          Run Failure Unit) := by
      intro results
      split
      · exact Run.within_pure _
      · exact Run.within_fail _
    exact ⟨w, _, .refl _ w, Bigtable.attempted s.bigtable c.tables w,
      Run.after_bind (s.bigtable.createTables (some c)) hquiet w⟩

/-- What is done about a failure to write. -/
theorem givesUp_write (console : Console) (e : Failure) : Run.GivesUp (match e with
    | .creation results => reportCreation console results
    | _ => Run.reporting console "Failed to write schema: " (Run.fail e) : Run Exit Unit) := by
  split
  · exact Run.givesUp_after (Run.quiet_present _ _) fun _ => Run.givesUp_giveUpWithHint _ _
  · exact Run.givesUp_reporting _ _ e

theorem quiet_succeed (console : Console) (c : ClusterSchema) (d : Destination) :
    Run.Quiet (succeed console c d) := by
  cases d <;> exact Run.quiet_say _ _

/-- The world in which writing begins. -/
def writing (w : World) : World := w.note (.status "Writing schema...")

/-- All that is said while the definition is written leaves it at that. -/
theorem write_written (hp : p.output = Pipeline.outputOf t.destination) (w : World) :
    Written c w ((do
      write s p c
      succeed s.console c t.destination) w).2 t.destination := by
  have hwriting : w.Passes Event.isQuiet (writing w) := w.passes_note rfl
  have houtput := writeOutput_written s c t.destination (writing w)
  rw [← hp] at houtput
  have hreported : (Pipeline.writeOutput s (some c) p.output (writing w)).2.Passes Event.isQuiet
      (Pipeline.write s p (some c) (writing w)).2 := Run.after_bind _ (fun _ => Run.quiet_info _) _
  have hrecovered : (Pipeline.write s p (some c) (writing w)).2.Passes Event.isQuiet
      (write s p c w).2 := Run.after_recover _ (fun e => (givesUp_write s.console e).quiet) (writing w)
  have hsucceeded := Run.after_bind (write s p c) (fun _ => quiet_succeed s.console c t.destination) w
  exact (((houtput.before hwriting).after hreported).after hrecovered).after hsucceeded

/-! ## All of it -/

theorem run_eq (s : Surroundings) (command : TransferCommand) :
    run s command = (do
      let t ← accept s.console command.options
      let p ← prepare s t
      let c ← plan s p
      permit s command t c
      write s p c
      succeed s.console c t.destination) := by
  simp only [run, permit, bind_assoc]

end TransferCommand

end SchemaTransfer
