import SchemaTransfer.Proofs.Command.Clearance
import SchemaTransfer.Proofs.Transfer.Conduct

/-!
# What a command says of its success

A transfer command tells how the writing went by a line of success, or by a table of results if
tables could not be created. Up to the writing it shows neither.
-/
namespace SchemaTransfer

/-- A line of success, or the table of results. -/
def Event.isVerdict : Event → Bool
  | .print markup => ("[ok]" : Text).isPrefixOf markup
  | .table title _ _ => title = "Create results"
  | _ => false

theorem Event.not_isVerdict_of_not_isOnScreen {e : Event} (h : !e.isOnScreen) : !e.isVerdict := by
  cases e <;> first | rfl | cases h

/-- Of all lines only those of success begin with the mark of success. -/
theorem Line.isVerdict_markup (l : Line) :
    (Event.print l.markup).isVerdict = true ↔ ∃ message, l = .success message := by
  cases l with
  | success message => exact iff_of_true rfl ⟨message, rfl⟩
  | info | warning | error | heading | hint | fact =>
    exact iff_of_false (fun h => nomatch h) (fun ⟨_, h⟩ => nomatch h)

/-- The verdicts among what happened from the first world to the second are these. -/
def World.Verdicts (vs : List Event) (w v : World) : Prop :=
  ∃ es, v.events = w.events ++ es ∧ es.filter Event.isVerdict = vs

namespace World

variable {u v w : World} {vs vs' : List Event}

theorem Records.verdicts (h : w.Records (fun e => !e.isVerdict) v) : Verdicts [] w v := by
  obtain ⟨es, hevents, hes⟩ := h
  exact ⟨es, hevents, List.filter_eq_nil_iff.mpr fun e he => by simpa using hes e he⟩

theorem Verdicts.trans (h : Verdicts vs u v) (h' : Verdicts vs' v w) :
    Verdicts (vs ++ vs') u w := by
  obtain ⟨es, hevents, hes⟩ := h
  obtain ⟨fs, hevents', hfs⟩ := h'
  refine ⟨es ++ fs, ?_, ?_⟩
  · rw [hevents', hevents, List.append_assoc]
  · rw [List.filter_append, hes, hfs]

theorem Verdicts.before (huv : u.Records (fun e => !e.isVerdict) v) (h : Verdicts vs v w) :
    Verdicts vs u w :=
  huv.verdicts.trans h

theorem Verdicts.after (h : Verdicts vs u v) (hvw : v.Records (fun e => !e.isVerdict) w) :
    Verdicts vs u w :=
  List.append_nil vs ▸ h.trans hvw.verdicts

theorem verdicts_note (w : World) {e : Event} (h : e.isVerdict = true) :
    Verdicts [e] w (w.note e) :=
  ⟨[e], rfl, List.filter_eq_self.mpr (List.forall_mem_singleton.mpr h)⟩

/-- What happened in between and is a verdict is one of these. -/
theorem Verdicts.mem_of_happened {e : Event} (h : Verdicts vs w v) (he : Happened e w v)
    (hverdict : e.isVerdict = true) : e ∈ vs := by
  obtain ⟨es, hevents, rfl⟩ := h
  obtain ⟨fs, hevents', he⟩ := he
  cases List.append_cancel_left (hevents.symm.trans hevents')
  exact List.mem_filter.mpr ⟨he, hverdict⟩

end World

namespace Run

variable {ε α : Type}

/-- A run that says nothing of success. -/
abbrev Undecided (x : Run ε α) : Prop := Within (World.Records fun e => !e.isVerdict) x

theorem OffScreen.undecided {x : Run ε α} (h : OffScreen x) : Undecided x :=
  h.mono fun _ _ hwv => hwv.mono fun _ => Event.not_isVerdict_of_not_isOnScreen

theorem undecided_note {e : Event} (h : !e.isVerdict) : Undecided (note e : Run ε Unit) :=
  fun w => w.records_note h

theorem undecided_handOver (refusal : Option Fault) {e : Event} (h : !e.isVerdict) :
    Undecided (handOver refusal e) := by
  cases refusal with
  | some fault => exact within_fail _
  | none => exact undecided_note h

theorem undecided_stop (console : Console) (warning : Text) :
    Undecided (stop console warning : Run Exit α) :=
  within_bind (undecided_handOver _ rfl) fun _ => within_fail _

theorem undecided_misuse (console : Console) (message : Text) :
    Undecided (misuse console message : Run Exit α) :=
  within_bind (undecided_handOver _ rfl) fun _ => within_bind (undecided_note rfl) fun _ =>
    within_fail _

theorem undecided_giveUp (console : Console) (message : Text) :
    Undecided (giveUp console message : Run Exit α) :=
  within_bind (undecided_handOver _ rfl) fun _ => within_fail _

theorem undecided_giveUpWithHint (console : Console) (message : Text) :
    Undecided (giveUpWithHint console message : Run Exit α) :=
  within_bind (undecided_handOver _ rfl) fun _ => within_bind (undecided_handOver _ rfl) fun _ =>
    within_fail _

/-- The words for a failure, or the end of the command if there are none. -/
def report (console : Console) (intro : Text) (e : Failure) : Run Exit α :=
  if e.isReported then giveUpWithHint console (intro ++ e.message) else fail (.raised e)

theorem undecided_report (console : Console) (intro : Text) (e : Failure) :
    Undecided (report console intro e : Run Exit α) := by
  rw [report]
  split
  · exact undecided_giveUpWithHint _ _
  · exact within_fail _

theorem undecided_reporting (console : Console) (intro : Text) {x : Run Failure α}
    (hx : x.Undecided) : Undecided (reporting console intro x) :=
  within_recover hx fun e => undecided_report console intro e

end Run

namespace TransferCommand

variable {s : Surroundings}

/-! ## Up to the writing -/

theorem undecided_accept (console : Console) (o : Options) :
    Run.Undecided (accept console o) := by
  rw [accept]
  split
  · exact Run.within_pure _
  · exact Run.undecided_misuse _ _
  · exact Run.within_fail _

theorem undecided_prepare (s : Surroundings) (t : Transfer) : Run.Undecided (prepare s t) := by
  refine Run.within_recover (Pipeline.offScreen_prepare s t).undecided fun e => ?_
  split
  · exact Run.undecided_giveUp _ _
  · exact Run.undecided_reporting _ "" (Run.within_fail e)

theorem undecided_plan (s : Surroundings) (p : Pipeline) : Run.Undecided (plan s p) :=
  Run.within_bind (Run.undecided_note rfl) fun _ =>
    Run.undecided_reporting _ _ (Pipeline.offScreen_plan s p).undecided

theorem undecided_permit (s : Surroundings) (command : TransferCommand) (t : Transfer)
    (c : ClusterSchema) : Run.Undecided (permit s command t c) := by
  have hlisting : Run.Undecided (listing s.console c) := by
    rw [listing]
    split
    · exact Run.undecided_handOver _ rfl
    · exact Run.within_bind (Run.undecided_handOver _ rfl) fun _ => Run.undecided_handOver _ rfl
  have hpresent : Run.Undecided (present s t c) :=
    Run.within_bind hlisting fun _ => Run.within_bind (Run.undecided_handOver _ rfl) fun _ =>
      Run.within_bind (Run.undecided_handOver _ rfl) fun _ => Run.undecided_handOver _ rfl
  refine Run.within_bind hpresent fun _ => Run.within_bind ?_ fun _ => ?_
  · rw [endDryRun]
    split
    · exact Run.undecided_stop _ _
    · exact Run.within_pure _
  · cases t.destination with
    | file path => exact Run.within_pure _
    | bigtable project instanceId =>
      rw [consent]
      split
      · exact Run.within_pure _
      · refine Run.within_bind (Run.within_bind (Run.undecided_handOver _ rfl) fun _ =>
          Run.within_bind (Run.undecided_note rfl) fun _ => Run.within_pure _) fun agreed => ?_
        split
        · exact Run.within_pure _
        · exact Run.undecided_stop _ _

theorem undecided_clear (s : Surroundings) (command : TransferCommand) :
    Run.Undecided (clear s command) :=
  Run.within_bind (undecided_accept _ _) fun t => Run.within_bind (undecided_prepare s t) fun p =>
    Run.within_bind (undecided_plan s p) fun c => Run.within_bind (undecided_permit s command t c)
      fun _ => Run.within_pure _

end TransferCommand

end SchemaTransfer
