import SchemaTransfer.Command.Show
import SchemaTransfer.Proofs.Command.Ending
import SchemaTransfer.Proofs.Transfer.Legible

/-!
# Commands that cannot read a file

A file that a command cannot read, though it is legible, is complained of, and the command ends with
the code for failure. A file that is not legible ends the command with a fault instead. Readers may
have little room for arrays and objects inside others; the commands are those that have room enough
for the file.
-/
namespace SchemaTransfer

variable {room : Nat} {s : Surroundings} {file intro : Text} {e : Failure} {u v w : World}
  {x : Run Exit Unit}

/-- A command comes to read a file and fails to: to show it, or to transfer names or a definition
from it. What it says of a failure begins with `intro`. -/
inductive FailsToRead (s : Surroundings) (file : Text) (w : World) :
    Run Exit Unit → Text → Failure → Prop
  | shown {name : Option Text} {r : Option Regex} {e : Failure}
    (hname : ShowCommand.expression s.console name w = (.ok r, w))
    (hread : (readSchemaFile (.ofText file) w).1 = .error e) :
    FailsToRead s file w (ShowCommand.run s.console ⟨file, name⟩) "" e
  | mapping {command : TransferCommand} {t : Transfer} {e : Failure}
    (haccepted : command.options.check = .ok t) (hmapping : t.mapping = some file)
    (hload : (Renaming.load (.ofText file) w).1 = .error e) :
    FailsToRead s file w (TransferCommand.run s command) "" e
  | input {command : TransferCommand} {t : Transfer} {p : Pipeline} {u : World} {e : Failure}
    (haccepted : command.options.check = .ok t) (horigin : t.origin = .file file)
    (hready : Pipeline.prepare s t w = (.ok p, u))
    (hread : (readSchemaFile (.ofText file) w).1 = .error e) :
    FailsToRead s file w (TransferCommand.run s command) "Failed to read schema: " e

/-- The failure is what comes of reading the file. -/
theorem FailsToRead.isReported_iff (h : FailsToRead s file w x intro e)
    (hroom : Shallow room (.ofText file) w.files) :
    e.isReported ↔ Legible room (.ofText file) w.files := by
  cases h with
  | shown _ hread =>
    have houtcome := readOutcome_readSchemaFile hroom
    rw [hread] at houtcome
    exact houtcome.isReported_iff
  | mapping _ _ hload =>
    have houtcome := Renaming.readOutcome_load hroom
    rw [hload] at houtcome
    exact houtcome.isReported_iff
  | input _ _ _ hread =>
    have houtcome := readOutcome_readSchemaFile hroom
    rw [hread] at houtcome
    exact houtcome.isReported_iff

/-- Where the set-up fails for want of something else than credentials. -/
theorem TransferCommand.prepare_reports {t : Transfer} (h : Pipeline.prepare s t w = (.error e, u))
    (he : e.isCredentials = false) : prepare s t w = Run.report s.console "" e u := by
  rw [prepare, Run.recover, h]
  cases e with
  | credentials => cases he
  | _ => rfl

theorem ShowCommand.run_of_unread {console : Console} {name : Option Text} {r : Option Regex}
    (hname : expression console name w = (.ok r, w))
    (hread : (readSchemaFile (.ofText file) w).1 = .error e) :
    ∃ u, w.Untouched u ∧ run console ⟨file, name⟩ w = Run.report console "" e u := by
  have hloading : (readSchemaFile (.ofText file) (w.note (.status "Loading schema..."))).1 =
      .error e := hread ▸ readSchemaFile_congr rfl
  rcases hx : readSchemaFile (.ofText file) (w.note (.status "Loading schema...")) with ⟨r', u⟩
  rw [hx] at hloading
  cases hloading
  have hquiet : w.Passes Event.isQuiet u :=
    (w.passes_note rfl).trans ((unseen_readSchemaFile _).quiet.next hx)
  refine ⟨u, hquiet.untouched fun _ => Event.not_isWriting_of_isQuiet, ?_⟩
  rw [run, Run.bind_apply, hname]
  exact Run.bind_of_report (Run.reporting_of_error hx)

namespace TransferCommand

variable {command : TransferCommand} {t : Transfer} {p : Pipeline}

theorem run_of_unloaded (haccepted : command.options.check = .ok t)
    (hmapping : t.mapping = some file)
    (hload : (Renaming.load (.ofText file) w).1 = .error e) :
    ∃ u, w.Untouched u ∧ run s command w = Run.report s.console "" e u := by
  rcases hx : Renaming.load (.ofText file) w with ⟨r, u⟩
  rw [hx] at hload
  cases hload
  have hnames : Pipeline.loadNames t.mapping w = (.error e, u) := by
    rw [hmapping]
    exact Run.bind_of_error hx
  have hprepare : Pipeline.prepare s t w = (.error e, u) := Run.bind_of_error hnames
  have he : e.isCredentials = false := (Renaming.needsNoCredentials_load _).next hx
  refine ⟨u, ((Pipeline.quiet_loadNames _).next hnames).untouched
    fun _ => Event.not_isWriting_of_isQuiet, ?_⟩
  rw [run, Run.bind_apply, accept_of_ok haccepted]
  exact Run.bind_of_report (prepare_reports hprepare he)

theorem run_of_unread (haccepted : command.options.check = .ok t) (horigin : t.origin = .file file)
    (hready : Pipeline.prepare s t w = (.ok p, u))
    (hread : (readSchemaFile (.ofText file) w).1 = .error e) :
    ∃ v, w.Untouched v ∧ run s command w = Run.report s.console "Failed to read schema: " e v := by
  have hwu : w.Passes (fun e => !e.isWriting) (planning u) :=
    (Run.Within.next (Pipeline.prepare_passes s t) hready).trans (u.passes_note rfl)
  have hplanning : (readSchemaFile (.ofText file) (planning u)).1 = .error e :=
    (readSchemaFile_congr (by rw [hwu.files])).trans hread
  rcases hx : readSchemaFile (.ofText file) (planning u) with ⟨r, v⟩
  rw [hx] at hplanning
  cases hplanning
  have hplan : Pipeline.plan s p (planning u) = (.error e, v) := by
    refine Run.bind_of_error ?_
    rw [Pipeline.prepare_input_file horigin hready]
    exact hx
  have huv := Run.Within.next (Pipeline.plan_passes s p) hplan
  refine ⟨v, (hwu.trans huv).untouched fun _ h => h, ?_⟩
  rw [run, Run.bind_apply, accept_of_ok haccepted]
  dsimp only
  rw [Run.bind_apply, prepare_eq_ok.mpr hready]
  exact Run.bind_of_report (plan_of_failure hplan)

end TransferCommand

theorem FailsToRead.report (h : FailsToRead s file w x intro e) :
    ∃ u, w.Untouched u ∧ x w = Run.report s.console intro e u := by
  cases h with
  | shown hname hread => exact ShowCommand.run_of_unread hname hread
  | mapping haccepted hmapping hload =>
    exact TransferCommand.run_of_unloaded haccepted hmapping hload
  | input haccepted horigin hready hread =>
    exact TransferCommand.run_of_unread haccepted horigin hready hread

/-- However much room the readers have: whatever goes wrong with a schema file or a mapping file is
complained of exactly if the file is legible, and text in which no numeral is too long, with no more
brackets than there is room for, always is. With room enough, a command that fails to read a legible
file hands over what it has to say of that, and ends with the code for failure if the console takes
it; a file that is not legible ends it with a fault that it has no words for. -/
theorem file_failures_reported (room : Nat) (s : Surroundings) (file : Text) (w : World) :
    ((∀ e, (readSchemaFileWithin room (.ofText file) w).1 = .error e → e.isFileError) ↔
      Legible room (.ofText file) w.files) ∧
    ((∀ e, (Renaming.loadWithin room (.ofText file) w).1 = .error e → e.isFileError) ↔
      Legible room (.ofText file) w.files) ∧
    (Run.noName? (.ofText file) = none →
      (∀ content, w.files.read (.ofText file) = .ok content → ∃ t, Utf8.Spells t content ∧
        (∀ count, ¬ Json.LongNumeral count t.unifyNewlines) ∧
        t.unifyNewlines.countP Json.opens ≤ room) →
      Legible room (.ofText file) w.files) ∧
    (Shallow room (.ofText file) w.files →
      ∀ x intro e, FailsToRead s file w x intro e → ∃ u, w.Untouched u ∧
        (Legible room (.ofText file) w.files → ∃ exit shown,
          Handed s.console .failed (Run.complaint (intro ++ e.message)) exit shown ∧
            x w = (.error exit, u.record shown)) ∧
        (¬ Legible room (.ofText file) w.files → x w = (.error (.raised e), u))) := by
  refine ⟨(readOutcome_readSchemaFileWithin room _ w).all_complained_iff,
    (Renaming.readOutcome_loadWithin room _ w).all_complained_iff, legible_of_wellFormed,
    fun hroom x intro e hfails => ?_⟩
  obtain ⟨u, hu, hx⟩ := hfails.report
  have hreported := hfails.isReported_iff hroom
  refine ⟨u, hu, fun hlegible => ?_, fun hillegible => ?_⟩
  · obtain ⟨exit, shown, hhanded, hrun⟩ := Run.handed_fail (α := Unit) s.console .failed
      (Run.complaint (intro ++ e.message)) u
    refine ⟨exit, shown, hhanded, ?_⟩
    rw [hx, Run.report, if_pos (hreported.mpr hlegible), Run.giveUpWithHint_eq]
    exact hrun
  · rw [hx, Run.report, if_neg (mt hreported.mp hillegible)]
    rfl

/-- Surroundings in which nothing can be connected to. -/
def unconnected : Surroundings where
  hbase := ⟨fun _ _ => some (.runtime "unused"), fun _ _ => .error (.runtime "unused")⟩
  bigtable := ⟨some (.credentials "unused"), fun _ _ _ => none⟩
  answer := none
  runId := "run"

/-- A world with the one file `f`. -/
def oneFile (content : Bytes) : World :=
  ⟨(FileSystem.empty []).place [[0x66]] (.file content), [], []⟩

theorem spells_brace : Utf8.Spells "\x7b" [0x7B] :=
  Utf8.encode?_eq_some_iff.mp (by decide +kernel)

/-- One place is room enough for a file with one bracket. -/
theorem shallow_oneFile : Shallow 1 (.ofText "f") (oneFile [0x7B]).files := by
  intro content t hread ht
  have hcontent : (oneFile [0x7B]).files.read (.ofText "f") = .ok [0x7B] := by rfl
  cases hcontent.symm.trans hread
  cases (Utf8.decode_eq_ok_iff.mpr spells_brace).symm.trans (Utf8.decode_eq_ok_iff.mpr ht)
  exact Json.overflow?_eq_none (by decide)

/-- A file that ends behind its first brace is complained of. -/
theorem file_failures_reported_unfinished :
    (ShowCommand.run {} ⟨"f", none⟩ (oneFile [0x7B])).1 = .error .failed := by
  obtain ⟨-, -, hwellFormed, hcommands⟩ :=
    file_failures_reported 1 unconnected "f" (oneFile [0x7B])
  have hread : ∃ e, (readSchemaFile (.ofText "f") (oneFile [0x7B])).1 = .error e := by
    have hfails : (readSchemaFile (.ofText "f") (oneFile [0x7B])).1.isOk = false := by
      decide +kernel
    cases h : (readSchemaFile (.ofText "f") (oneFile [0x7B])).1 with
    | error e => exact ⟨e, rfl⟩
    | ok c =>
      rw [h] at hfails
      cases hfails
  obtain ⟨e, hread⟩ := hread
  have hlegible : Legible 1 (.ofText "f") (oneFile [0x7B]).files := by
    refine hwellFormed (by decide) fun content hcontent => ?_
    have hold : (oneFile [0x7B]).files.read (.ofText "f") = .ok [0x7B] := by rfl
    cases hold.symm.trans hcontent
    refine ⟨"\x7b", spells_brace, ?_, by decide⟩
    rintro count ⟨hlong, digits, -, hcount, hdigits⟩
    have hshort : digits.length ≤ 1 := hdigits.length_le
    rw [Text.maxDigits] at hlong
    omega
  have hname : ShowCommand.expression {} none (oneFile [0x7B]) = (.ok none, oneFile [0x7B]) := rfl
  obtain ⟨u, -, hreported, -⟩ := hcommands shallow_oneFile _ _ _ (.shown hname hread)
  obtain ⟨exit, shown, hhanded, hrun⟩ := hreported hlegible
  obtain ⟨rfl, -⟩ := hhanded.eq_of_takes (Console.takes_plain _)
  exact congrArg Prod.fst hrun

/-- A byte that is not UTF-8 ends the reading of either kind of file, and a command that comes to it,
with a fault that is none of a file. -/
theorem file_failures_unreported_byte :
    (∃ e, (readSchemaFile (.ofText "f") (oneFile [0xFF])).1 = .error e ∧ e.isFileError = false) ∧
    (∃ e, (Renaming.load (.ofText "f") (oneFile [0xFF])).1 = .error e ∧ e.isFileError = false) ∧
    ∃ e, (ShowCommand.run {} ⟨"f", none⟩ (oneFile [0xFF])).1 = .error (.raised e) := by
  have hbyte : ¬ Utf8.WellFormed [0xFF] := by
    rintro ⟨t, ht⟩
    have hnone : (Utf8.decode [0xFF]).toOption = none := by decide +kernel
    rw [Utf8.decode_eq_ok_iff.mpr ht] at hnone
    cases hnone
  have hcontent : (oneFile [0xFF]).files.read (.ofText "f") = .ok [0xFF] := by rfl
  have hillegible : ¬ Legible 0 (.ofText "f") (oneFile [0xFF]).files :=
    fun h => hbyte (h.spelled _ hcontent)
  have hroom : Shallow 0 (.ofText "f") (oneFile [0xFF]).files := by
    intro content t hread ht
    cases hcontent.symm.trans hread
    exact absurd ⟨t, ht⟩ hbyte
  obtain ⟨e, hread, he⟩ := (readOutcome_readSchemaFile hroom).fault_of_not_legible hillegible
  obtain ⟨e', hload, he'⟩ := (Renaming.readOutcome_load hroom).fault_of_not_legible hillegible
  have hname : ShowCommand.expression {} none (oneFile [0xFF]) = (.ok none, oneFile [0xFF]) := rfl
  obtain ⟨u, -, hrun⟩ := ShowCommand.run_of_unread hname hread
  refine ⟨⟨e, hread, Failure.not_isFileError_of_not_isReported he⟩,
    ⟨e', hload, Failure.not_isFileError_of_not_isReported he'⟩, e, ?_⟩
  rw [hrun, Run.report, if_neg (Bool.eq_false_iff.mp he)]
  rfl

end SchemaTransfer
