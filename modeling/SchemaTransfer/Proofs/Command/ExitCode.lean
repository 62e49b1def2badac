import SchemaTransfer.Proofs.Command.Ending

/-!
# What the exit code of a transfer tells

The exit code of a transfer command tells whether its input was at fault, whether it has done all
that was asked of it, or whether something failed on the way. A line of success is never shown in
vain, and where tables could not be created each table has its row in the report.
-/
namespace SchemaTransfer

/-- The number of an exit that the program has chosen. -/
def Exit.code? : Exit → Option Nat
  | .code n => some n
  | .raised _ => none

theorem Exit.code?_eq_some {exit : Exit} {n : Nat} : exit.code? = some n ↔ exit = .code n := by
  cases exit <;> simp [code?]

namespace TransferCommand

variable {s : Surroundings} {command : TransferCommand} {t t' : Transfer} {c c' : ClusterSchema}
  {p : Pipeline} {e : Failure} {exit : Exit} {vs : List Event} {u v w : World}

/-! ## One plan -/

theorem Cleared.isPlanned (h : Cleared s command w t c) : Planned s command w t c :=
  ⟨h.accepted, h.planned⟩

theorem Cleared.not_declined (h : Cleared s command w t c) : ¬ Declined s command t := by
  intro hdeclined
  rcases h.allowed with ⟨path, hfile⟩ | hyes | hanswer
  · exact hdeclined.tables path hfile
  · exact Bool.false_ne_true (hdeclined.unsaid.symm.trans hyes)
  · exact hdeclined.refused hanswer

theorem Planned.unique (h : Planned s command w t c) (h' : Planned s command w t' c') :
    t' = t ∧ c' = c := by
  obtain ⟨haccepted, p, u, x, hprepare, hplan⟩ := h
  obtain ⟨haccepted', p', u', x', hprepare', hplan'⟩ := h'
  cases haccepted.symm.trans haccepted'
  cases hprepare.symm.trans hprepare'
  cases hplan.symm.trans hplan'
  exact ⟨rfl, rfl⟩

theorem not_planned_of_refused (hrefused : command.options.check = .error e) :
    ¬ Planned s command w t c :=
  fun hplanned => by cases hrefused.symm.trans hplanned.accepted

theorem not_planned_of_unready (haccepted : command.options.check = .ok t)
    (hfailed : Pipeline.prepare s t w = (.error e, u)) : ¬ Planned s command w t' c := by
  rintro ⟨haccepted', p, u', x, hprepare, -⟩
  cases haccepted.symm.trans haccepted'
  cases hfailed.symm.trans hprepare

theorem not_planned_of_unplanned (haccepted : command.options.check = .ok t)
    (hready : Pipeline.prepare s t w = (.ok p, u))
    (hfailed : Pipeline.plan s p (planning u) = (.error e, v)) : ¬ Planned s command w t' c := by
  rintro ⟨haccepted', p', u', x, hprepare, hplan⟩
  cases haccepted.symm.trans haccepted'
  cases hready.symm.trans hprepare
  cases hfailed.symm.trans hplan

/-- There is a plan, and the command has done with it all that is wanted: nothing in a dry run or if
consent is refused, and else to write it. -/
def Fulfilled (s : Surroundings) (command : TransferCommand) (w : World) : Prop :=
  ∃ t c, Planned s command w t c ∧
    (command.dryRun = true ∨ Declined s command t ∨ WriteSucceeds s c w t.destination)

theorem not_fulfilled_of_cleared (h : Cleared s command w t c)
    (hfailed : ¬ WriteSucceeds s c w t.destination) : ¬ Fulfilled s command w := by
  rintro ⟨t', c', hplanned, hends⟩
  obtain ⟨rfl, rfl⟩ := h.isPlanned.unique hplanned
  rcases hends with hdry | hdeclined | hwritten
  · exact Bool.false_ne_true (h.wanted.symm.trans hdry)
  · exact h.not_declined hdeclined
  · exact hfailed hwritten

/-! ## What an ending tells -/

theorem Ending.misused_iff (h : Ending s command w v exit vs) (hcode : ∀ e, exit ≠ .raised e) :
    exit = .misused ↔ ¬ command.options.Coherent := by
  have hcoherent : ∀ {t}, command.options.check = .ok t → ¬ ¬ command.options.Coherent :=
    fun haccepted => not_not_intro (Options.exists_check_iff.mp ⟨_, haccepted⟩)
  cases h with
  | refused hrefused =>
    refine iff_of_true rfl fun hcoherent => ?_
    obtain ⟨t, haccepted⟩ := Options.exists_check_iff.mpr hcoherent
    cases hrefused.symm.trans haccepted
  | raised => exact absurd rfl (hcode _)
  | unready haccepted | unplanned haccepted => exact iff_of_false nofun (hcoherent haccepted)
  | unwanted hplanned => exact iff_of_false nofun (hcoherent hplanned.accepted)
  | unwritten hcleared | partly hcleared | written hcleared =>
    exact iff_of_false nofun (hcoherent hcleared.accepted)

theorem Ending.done_iff (h : Ending s command w v exit vs) (hcode : ∀ e, exit ≠ .raised e) :
    exit = .done ↔ Fulfilled s command w := by
  cases h with
  | refused hrefused =>
    exact iff_of_false nofun fun ⟨t, c, hplanned, _⟩ => not_planned_of_refused hrefused hplanned
  | raised => exact absurd rfl (hcode _)
  | unready haccepted hfailed =>
    exact iff_of_false nofun fun ⟨t, c, hplanned, _⟩ =>
      not_planned_of_unready haccepted hfailed hplanned
  | unplanned haccepted hready hfailed =>
    exact iff_of_false nofun fun ⟨t, c, hplanned, _⟩ =>
      not_planned_of_unplanned haccepted hready hfailed hplanned
  | unwanted hplanned hends =>
    exact iff_of_true rfl ⟨_, _, hplanned, hends.imp_right Or.inl⟩
  | unwritten hcleared _ hfailed | partly hcleared hfailed =>
    exact iff_of_false nofun (not_fulfilled_of_cleared hcleared hfailed)
  | written hcleared hwritten =>
    exact iff_of_true rfl ⟨_, _, hcleared.isPlanned, Or.inr (Or.inr hwritten)⟩

theorem Ending.failed_of_neither (h : Ending s command w v exit vs)
    (hcode : ∀ e, exit ≠ .raised e) (hmisused : exit ≠ .misused) (hdone : exit ≠ .done) :
    exit = .failed := by
  cases h with
  | refused => exact absurd rfl hmisused
  | raised => exact absurd rfl (hcode _)
  | unwanted | written => exact absurd rfl hdone
  | unready | unplanned | unwritten | partly => rfl

/-- A line of success belongs to the one ending in which the plan has got to its destination. -/
theorem Ending.delivered_of_success (h : Ending s command w v exit vs)
    (hcode : ∀ e, exit ≠ .raised e) {message : Text}
    (hmem : .print (Line.success message).markup ∈ vs) :
    ∃ t c, Planned s command w t c ∧ Delivered c w v t.destination := by
  cases h with
  | refused | unready | unplanned | unwanted | unwritten => cases hmem
  | raised => exact absurd rfl (hcode _)
  | partly => cases List.mem_singleton.mp hmem
  | written hcleared _ hdelivered => exact ⟨_, _, hcleared.isPlanned, hdelivered⟩

/-- Where tables could not be created their table of results is all that is said of it. -/
theorem Ending.partly_of_cleared (h : Ending s command w v exit vs)
    (hcode : ∀ e, exit ≠ .raised e) (hcleared : Cleared s command w t c)
    (htables : ∀ path, t.destination ≠ .file path)
    (hfailed : ¬ WriteSucceeds s c w t.destination) :
    ∃ results new, vs = [resultsTable results] ∧ v.tables = w.tables ++ new ∧
      Bigtable.Reported c.tables results new := by
  have hnot := not_fulfilled_of_cleared hcleared hfailed
  cases h with
  | refused hrefused => exact absurd hcleared.isPlanned (not_planned_of_refused hrefused)
  | raised => exact absurd rfl (hcode _)
  | unready haccepted hfailed =>
    exact absurd hcleared.isPlanned (not_planned_of_unready haccepted hfailed)
  | unplanned haccepted hready hfailed =>
    exact absurd hcleared.isPlanned (not_planned_of_unplanned haccepted hready hfailed)
  | unwanted hplanned hends => exact absurd ⟨_, _, hplanned, hends.imp_right Or.inl⟩ hnot
  | unwritten hcleared' hfile =>
    obtain ⟨rfl, rfl⟩ := hcleared.isPlanned.unique hcleared'.isPlanned
    exact absurd hfile (htables _)
  | partly hcleared' _ _ hnew hreported =>
    obtain ⟨rfl, rfl⟩ := hcleared.isPlanned.unique hcleared'.isPlanned
    exact ⟨_, _, rfl, hnew, hreported⟩
  | written hcleared' hwritten =>
    exact absurd ⟨_, _, hcleared'.isPlanned, Or.inr (Or.inr hwritten)⟩ hnot

/-! ## What the exit tells -/

/-- The exit of a command that is run in a world. -/
def exitOf (s : Surroundings) (command : TransferCommand) (w : World) : Exit :=
  .ofResult (run s command w).1

theorem ne_raised_of_own (hown : ∀ e, (run s command w).1 = .error (.raised e) → e.isOwn)
    (h : Ending s command w v (exitOf s command w) vs) : ∀ e, exitOf s command w ≠ .raised e := by
  intro e he
  have hraised : (run s command w).1 = .error (.raised e) := by
    rw [exitOf] at he
    cases hr : (run s command w).1 with
    | ok =>
      rw [hr] at he
      cases he
    | error exit =>
      rw [hr] at he
      exact congrArg _ he
  rw [he] at h
  cases h with
  | raised hforeign => exact Bool.false_ne_true (hforeign.symm.trans (hown e hraised))

theorem run_of_misuse {complaint : OptionsError}
    (hcheck : command.options.check = .error (.options complaint))
    (htaken : s.console.refusal? [(Line.error complaint.message).markup] = none) (v : World) :
    run s command v =
      (.error .misused, (v.note (.print (Line.error complaint.message).markup)).note .usage) := by
  refine Run.bind_of_error ?_
  rw [accept, hcheck]
  dsimp only
  rw [Run.misuse, Run.say, htaken]
  rfl

/-- Where the options do not fit together the command says so and does nothing else, whatever files
there are and whatever surrounds it, as long as the console takes what it says. -/
theorem refused_of_incoherent (h : ¬ command.options.Coherent)
    (hcode : ∀ e, exitOf s command w ≠ .raised e) : ∃ complaint : OptionsError,
      s.console.refusal? [(Line.error complaint.message).markup] = none ∧
      ∀ s' v, s'.console.refusal? [(Line.error complaint.message).markup] = none →
        run s' command v =
          (.error .misused, (v.note (.print (Line.error complaint.message).markup)).note .usage) := by
  cases hcheck : command.options.check with
  | ok t => exact absurd (Options.exists_check_iff.mp ⟨t, hcheck⟩) h
  | error e =>
    rcases Options.refusal_of_check hcheck with ⟨complaint, rfl⟩ | ⟨fault, rfl⟩
    · refine ⟨complaint, ?_, fun s' v htaken => run_of_misuse hcheck htaken v⟩
      rcases haccept : accept s.console command.options w with ⟨r, x⟩
      rcases accept_of_refusal hcheck haccept with ⟨htaken, -⟩ | ⟨exit, rfl, fault, rfl⟩
      · exact htaken
      · have hraised : run s command w = (.error (.raised (.outside fault)), x) :=
          Run.bind_of_error haccept
        refine absurd ?_ (hcode (.outside fault))
        rw [exitOf, hraised]
        rfl
    · have hraised : run s command w = (.error (.raised (.badPattern fault)), w) := by
        refine Run.bind_of_error ?_
        rw [accept, hcheck]
        rfl
      refine absurd ?_ (hcode (.badPattern fault))
      rw [exitOf, hraised]
      rfl

/-- Unless a fault that the program has no class for ends it, a transfer command ends with the code
for misuse exactly if its options do not fit together, and then it only says so, for which it needs
neither a file nor a service, but a console that takes what it says; with the code for success
exactly if there is a plan and all that is wanted was done with it; and else with the code for
failure. Success is announced only of a plan that is at its destination as a whole. If some of its
tables could not be created, the one table of results has a row for each, in order. -/
theorem exit_tells_outcome (s : Surroundings) (command : TransferCommand) (w : World)
    (hown : ∀ e, (run s command w).1 = .error (.raised e) → e.isOwn) :
    (exitOf s command w = .misused ↔ ¬ command.options.Coherent) ∧
    (¬ command.options.Coherent → ∃ complaint : OptionsError,
      s.console.refusal? [(Line.error complaint.message).markup] = none ∧
      ∀ s' v, s'.console.refusal? [(Line.error complaint.message).markup] = none →
        run s' command v =
          (.error .misused, (v.note (.print (Line.error complaint.message).markup)).note .usage)) ∧
    (exitOf s command w = .done ↔ ∃ t c, Planned s command w t c ∧
      (command.dryRun = true ∨ Declined s command t ∨ WriteSucceeds s c w t.destination)) ∧
    (exitOf s command w ≠ .misused → exitOf s command w ≠ .done →
      exitOf s command w = .failed) ∧
    (∀ message, World.Happened (.print (Line.success message).markup) w (run s command w).2 →
      ∃ t c, Planned s command w t c ∧ Delivered c w (run s command w).2 t.destination) ∧
    ∀ t c, Cleared s command w t c → (∀ path, t.destination ≠ .file path) →
      ¬ WriteSucceeds s c w t.destination →
      ∃ results new, World.Verdicts [resultsTable results] w (run s command w).2 ∧
        results.map CreateResult.table = c.names ∧
        (run s command w).2.tables = w.tables ++ new ∧
        Bigtable.Reported c.tables results new := by
  obtain ⟨vs, hending, hverdicts⟩ := run_ends s command w
  have hcode := ne_raised_of_own hown hending
  refine ⟨hending.misused_iff hcode, fun hincoherent => ?_, hending.done_iff hcode,
    hending.failed_of_neither hcode, fun message hsaid => ?_, fun t c hcleared htables hfailed => ?_⟩
  · exact refused_of_incoherent hincoherent hcode
  · exact hending.delivered_of_success hcode (hverdicts.mem_of_happened hsaid
      ((Line.isVerdict_markup _).mpr ⟨message, rfl⟩))
  · obtain ⟨results, new, rfl, hnew, hreported⟩ :=
      hending.partly_of_cleared hcode hcleared htables hfailed
    exact ⟨results, new, hverdicts, hreported.names, hnew, hreported⟩

/-- A schema file `s` with the tables `x` and `y`. -/
def twoTables : World where
  files := (FileSystem.empty []).place [[0x73]] (.file ((Utf8.encode?
    "\x7b\"tableSchemaDefinitions\": [\x7b\"name\": \"x\"\x7d, \x7b\"name\": \"y\"\x7d]\x7d").getD
      []))
  tables := []
  events := []

/-- A destination that has denied the table `x`. -/
def deniesX : Surroundings where
  hbase := ⟨fun _ _ => none, fun _ _ => .error (.runtime "unused")⟩
  bigtable := ⟨none, fun _ _ r => if r.name = "x" then some (.runtime "denied") else none⟩
  answer := none
  runId := "run"

def fileToTables : TransferCommand where
  options := { inputFile := some "s", projectId := some "p", instanceId := some "i" }
  dryRun := false
  yes := true

/-- One of two tables is denied: the command fails, and says of each table what came of it. -/
theorem exit_tells_outcome_denied : exitOf deniesX fileToTables twoTables = .failed ∧
    (run deniesX fileToTables twoTables).2.taken = ["y"] ∧
    ∃ results, World.Verdicts [resultsTable results] twoTables
        (run deniesX fileToTables twoTables).2 ∧
      results.map CreateResult.table = ["x", "y"] := by
  have hexit : exitOf deniesX fileToTables twoTables = .failed :=
    Exit.code?_eq_some.mp (by decide +kernel)
  have hown : ∀ e, (run deniesX fileToTables twoTables).1 = .error (.raised e) → e.isOwn := by
    intro e he
    rw [exitOf, he] at hexit
    cases hexit
  obtain ⟨-, -, hdone, -, -, hpartly⟩ := exit_tells_outcome deniesX fileToTables twoTables hown
  have hnames : (clear deniesX fileToTables twoTables).1.toOption.map (fun r => r.2.2.names) =
      some (["x", "y"] : List Text) := by decide +kernel
  rcases hclear : clear deniesX fileToTables twoTables with ⟨_ | ⟨t, p, c⟩, u⟩
  · rw [hclear] at hnames
    cases hnames
  rw [hclear] at hnames
  obtain ⟨hcleared, -, -⟩ := clear_eq_ok hclear
  have hcheck : fileToTables.options.check = .ok ⟨.file "s", .bigtable "p" "i", none⟩ := rfl
  cases hcheck.symm.trans hcleared.accepted
  have hfailed : ¬ WriteSucceeds deniesX c twoTables (.bigtable "p" "i") := by
    intro hwritten
    have hsuccess := hdone.mpr ⟨_, c, hcleared.isPlanned, Or.inr (Or.inr hwritten)⟩
    rw [hexit] at hsuccess
    cases hsuccess
  obtain ⟨results, new, hshown, hrows, -, -⟩ := hpartly _ c hcleared nofun hfailed
  exact ⟨hexit, by decide +kernel, results, hshown, hrows.trans (Option.some.inj hnames)⟩

end TransferCommand

end SchemaTransfer
