import SchemaTransfer.Proofs.Command.HandOver
import SchemaTransfer.Proofs.Command.Transfer

/-!
# Nothing is written without clearance

A transfer command writes only what it has planned and shown, and only if this is wanted and
allowed. Then it writes to its destination and to no other place. In all other cases it leaves every
file and the destination as they are.
-/
namespace SchemaTransfer

/-! ## What happened in between -/

/-- The event is among those from the first world to the second. -/
def World.Happened (e : Event) (w v : World) : Prop := ∃ es, v.events = w.events ++ es ∧ e ∈ es

namespace World

variable {e : Event} {q : Event → Bool} {u v w : World}

theorem Happened.before (huv : u.Records q v) (h : Happened e v w) : Happened e u w := by
  obtain ⟨es, hevents, -⟩ := huv
  obtain ⟨fs, hevents', he⟩ := h
  refine ⟨es ++ fs, ?_, List.mem_append_right _ he⟩
  rw [hevents', hevents, List.append_assoc]

theorem Happened.after (h : Happened e u v) (hvw : v.Records q w) : Happened e u w := by
  obtain ⟨es, hevents, he⟩ := h
  obtain ⟨fs, hevents', -⟩ := hvw
  refine ⟨es ++ fs, ?_, List.mem_append_left _ he⟩
  rw [hevents', hevents, List.append_assoc]

theorem happened_note (w : World) (e : Event) : Happened e w (w.note e) :=
  ⟨[e], rfl, List.mem_singleton_self e⟩

theorem happened_second (w : World) (d e : Event) : Happened e w ((w.note d).note e) :=
  (happened_note (w.note d) e).before (w.records_note (p := fun _ => true) rfl)

end World

namespace TransferCommand

variable {s : Surroundings} {console : Console} {command : TransferCommand} {t : Transfer}
  {p : Pipeline} {c : ClusterSchema} {u v w : World}

/-- The plan with one row for each table, in order. -/
def planTable (c : ClusterSchema) : Event :=
  .table "Tables to write" (Listing.ofTables "Tables to write" c).header
    (c.tables.map TableSchema.row)

/-- What is said of a plan before it is written. -/
def announcement (s : Surroundings) (t : Transfer) (c : ClusterSchema) : List Event :=
  (if c.size = 0 then [.print (Line.warning "No tables found.").markup]
  else [.print (Line.heading "Schema").markup, planTable c]) ++
  [.print (Line.fact "Run" s.runId).markup,
    .print (Line.fact "Tables" (Text.ofNat c.size)).markup,
    .print (Line.fact "Destination" t.destination.text).markup]

/-- What is said of how to answer, if consent is asked for. -/
def instruction (yes : Bool) : Destination → List Event
  | .file _ => []
  | .bigtable _ _ => if yes then [] else [.print (Line.hint "Use y/n then Enter").markup]

/-- What has to hold for anything to be written: the options are accepted, the set-up and the plan
succeed, the run is no dry run, tables have consent, given beforehand or when asked for, and the
console takes what is to be shown before. -/
structure Cleared (s : Surroundings) (command : TransferCommand) (w : World) (t : Transfer)
    (c : ClusterSchema) : Prop where
  accepted : command.options.check = .ok t
  planned : ∃ p v v', Pipeline.prepare s t w = (.ok p, v) ∧
    Pipeline.plan s p (planning v) = (.ok c, v')
  wanted : command.dryRun = false
  allowed : (∃ path, t.destination = .file path) ∨ command.yes = true ∨ s.answer = some true
  taken : s.console.Takes (announcement s t c ++ instruction command.yes t.destination)

/-- The question for consent, which says how many tables there are. -/
def question (c : ClusterSchema) : Event :=
  .confirm ("[hbschema] " ++ ("Create " ++ Text.ofNat c.size ++ " table(s) in Bigtable?")) false

/-- What comes before anything is written: the plan was displayed, and the question asked unless
there was no need to. Nothing was written by then. -/
structure Shown (command : TransferCommand) (t : Transfer) (c : ClusterSchema) (w u : World) :
    Prop where
  unwritten : w.Passes (fun e => !e.isWriting) u
  displayed : c.tables ≠ [] → World.Happened (planTable c) w u
  asked : (∃ path, t.destination = .file path) ∨ command.yes = true ∨
    World.Happened (question c) w u

/-! ## Steps that write nothing -/

/-- A step in which nothing is written. -/
abbrev Harmless {α : Type} (x : Run Exit α) : Prop :=
  Run.Within (World.Passes fun e => !e.isWriting) x

theorem harmless_of_quiet {α : Type} {x : Run Exit α} (h : x.Quiet) : Harmless x :=
  h.mono fun _ _ hx => hx.mono fun _ => Event.not_isWriting_of_isQuiet

theorem harmless_accept (console : Console) (o : Options) : Harmless (accept console o) := by
  cases h : o.check with
  | error e => exact harmless_of_quiet (givesUp_accept h).quiet
  | ok t =>
    intro w
    rw [accept_of_ok h]
    exact .refl _ w

theorem harmless_prepare (s : Surroundings) (t : Transfer) : Harmless (prepare s t) :=
  fun w => (Pipeline.prepare_passes s t w).trans
    ((prepare_world s t w).mono fun _ => Event.not_isWriting_of_isQuiet)

theorem harmless_plan (s : Surroundings) (p : Pipeline) : Harmless (plan s p) := by
  intro w
  have hplanning : w.Passes (fun e => !e.isWriting) (planning w) := w.passes_note rfl
  exact (hplanning.trans (Pipeline.plan_passes s p _)).trans
    ((plan_world s p w).mono fun _ => Event.not_isWriting_of_isQuiet)

theorem harmless_consent (s : Surroundings) (yes : Bool) (c : ClusterSchema) (d : Destination) :
    Harmless (consent s yes c d) :=
  passes_consent (fun _ => Event.not_isWriting_of_isQuiet) (fun _ _ => rfl) yes d

/-! ## Permission -/

theorem present_eq (s : Surroundings) (t : Transfer) (c : ClusterSchema) :
    present s t c = Run.handAll s.console (announcement s t c) := by
  have hsay : ∀ l : Line, Run.say s.console l = Run.handAll s.console [.print l.markup] :=
    fun l => (Run.handAll_print _ l).symm
  have hlisting : listing s.console c = Run.handAll s.console
      (if c.size = 0 then [.print (Line.warning "No tables found.").markup]
        else [.print (Line.heading "Schema").markup, planTable c]) := by
    rw [listing]
    split
    · exact hsay _
    · exact congrArg (Run.say s.console (.heading "Schema") >>= ·)
        (funext fun _ => (Run.handAll_table _ _).symm)
  rw [present, announcement, Run.handAll_append, ← hlisting]
  simp only [Run.handAll, bind_pure_unit]
  rfl

theorem present_displays (htaken : s.console.Takes (announcement s t c)) (w : World) :
    ∃ u, present s t c w = (.ok (), u) ∧
      (c.tables ≠ [] → World.Happened (planTable c) w u) := by
  refine ⟨_, present_eq s t c ▸ Run.handAll_of_takes htaken w, fun hne => ⟨_, rfl, ?_⟩⟩
  have hsize : c.size ≠ 0 := mt List.length_eq_zero_iff.mp hne
  rw [announcement, if_neg hsize]
  exact .tail _ (.head _)

theorem takes_of_present (h : present s t c w = (.ok (), u)) :
    s.console.Takes (announcement s t c) :=
  (Run.handAll_eq_ok (present_eq s t c ▸ h)).1

theorem endDryRun_eq_ok {dryRun : Bool} :
    endDryRun console dryRun w = (.ok (), v) ↔ dryRun = false ∧ w = v := by
  cases dryRun with
  | false => exact ⟨fun h => ⟨rfl, (Run.pure_eq_ok.mp h).2⟩, fun h => Run.pure_eq_ok.mpr ⟨rfl, h.2⟩⟩
  | true =>
    constructor
    · intro h
      obtain ⟨e, he⟩ :=
        (Run.givesUp_stop (α := Unit) console "DRY RUN: no changes will be made.").fails w
      have hstop : (endDryRun console true w).1 = .error e := he
      rw [h] at hstop
      cases hstop
    · rintro ⟨h, -⟩
      cases h

theorem ask_eq_ok {q : Text} {agreed : Bool} (h : Run.ask s q w = (.ok agreed, u)) :
    s.console.Takes [.print (Line.hint "Use y/n then Enter").markup] ∧
      agreed = s.answer.getD false ∧
      World.Happened (.confirm ("[hbschema] " ++ q) false) w u := by
  obtain ⟨_, v, hsaid, h⟩ := Run.bind_eq_ok.mp h
  rw [← Run.handAll_print] at hsaid
  obtain ⟨htaken, rfl⟩ := Run.handAll_eq_ok hsaid
  obtain ⟨_, _, hnoted, h⟩ := Run.bind_eq_ok.mp h
  cases hnoted
  obtain ⟨rfl, rfl⟩ := Run.pure_eq_ok.mp h
  exact ⟨htaken, rfl, w.happened_second _ _⟩

theorem ask_of_taken (h : Run.say s.console (.hint "Use y/n then Enter") w = (.ok (), v))
    (q : Text) : Run.ask s q w =
      (.ok (s.answer.getD false), v.note (.confirm ("[hbschema] " ++ q) false)) :=
  Run.bind_eq_ok.mpr ⟨(), v, h, Run.bind_eq_ok.mpr ⟨(), _, rfl, rfl⟩⟩

/-- The answer decides only where a question is asked, and broken off it counts as refused. -/
theorem consent_eq_ok {yes : Bool} {d : Destination} (h : consent s yes c d w = (.ok (), u)) :
    ((∃ path, d = .file path) ∨ yes = true ∨ s.answer = some true) ∧
      ((∃ path, d = .file path) ∨ yes = true ∨ World.Happened (question c) w u) ∧
      s.console.Takes (instruction yes d) := by
  cases d with
  | file path => exact ⟨Or.inl ⟨path, rfl⟩, Or.inl ⟨path, rfl⟩, Console.takes_nil⟩
  | bigtable project instanceId =>
    cases yes with
    | true => exact ⟨Or.inr (Or.inl rfl), Or.inr (Or.inl rfl), Console.takes_nil⟩
    | false =>
      obtain ⟨agreed, v, hasked, hdecided⟩ := Run.bind_eq_ok.mp h
      obtain ⟨htaken, hagreed, hquestion⟩ := ask_eq_ok hasked
      cases agreed with
      | false =>
        obtain ⟨e, he⟩ := (Run.givesUp_stop (α := Unit) s.console "Cancelled.").fails v
        have hstop : (Run.stop s.console "Cancelled." v : Except Exit Unit × World) =
          (.ok (), u) := hdecided
        rw [hstop] at he
        cases he
      | true =>
        have hanswer : s.answer = some true := by
          cases hsaid : s.answer with
          | none => rw [hsaid] at hagreed; cases hagreed
          | some answer => rw [hsaid] at hagreed; exact congrArg some hagreed.symm
        obtain ⟨-, rfl⟩ := Run.pure_eq_ok.mp hdecided
        exact ⟨Or.inr (Or.inr hanswer), Or.inr (Or.inr hquestion), htaken⟩

theorem consent_of_allowed {yes : Bool} {d : Destination}
    (h : (∃ path, d = .file path) ∨ yes = true ∨ s.answer = some true)
    (htaken : s.console.Takes (instruction yes d)) (w : World) :
    ∃ u, consent s yes c d w = (.ok (), u) := by
  cases d with
  | file path => exact ⟨w, rfl⟩
  | bigtable project instanceId =>
    cases yes with
    | true => exact ⟨w, rfl⟩
    | false =>
      rcases h with ⟨path, h⟩ | h | h
      · cases h
      · cases h
      · have hsaid := Run.handAll_of_takes htaken w
        rw [instruction, if_neg Bool.false_ne_true, Run.handAll_print] at hsaid
        have hagreed : s.answer.getD false = true := by rw [h]; rfl
        have hasked := ask_of_taken hsaid
          ("Create " ++ Text.ofNat c.size ++ " table(s) in Bigtable?")
        rw [hagreed] at hasked
        exact ⟨_, Run.bind_eq_ok.mpr ⟨true, _, hasked, rfl⟩⟩

theorem Shown.before (hvw : v.Passes (fun e => !e.isWriting) w) (h : Shown command t c w u) :
    Shown command t c v u :=
  ⟨hvw.trans h.unwritten, fun hne => (h.displayed hne).before hvw.records,
    h.asked.imp_right (.imp_right fun hasked => hasked.before hvw.records)⟩

theorem permit_eq_ok (h : permit s command t c w = (.ok (), u)) :
    command.dryRun = false ∧
      ((∃ path, t.destination = .file path) ∨ command.yes = true ∨ s.answer = some true) ∧
      s.console.Takes (announcement s t c ++ instruction command.yes t.destination) ∧
      Shown command t c w u := by
  obtain ⟨_, v, hpresent, h⟩ := Run.bind_eq_ok.mp h
  obtain ⟨_, _, hdry, hconsent⟩ := Run.bind_eq_ok.mp h
  obtain ⟨hwanted, rfl⟩ := endDryRun_eq_ok.mp hdry
  obtain ⟨hallowed, hasked, hinstruction⟩ := consent_eq_ok hconsent
  have hannounced := takes_of_present hpresent
  obtain ⟨v', hpresent', hdisplayed⟩ := present_displays hannounced w
  cases hpresent.symm.trans hpresent'
  have hwv := (harmless_of_quiet (quiet_presentPlan s t c)).next hpresent
  have hvu := (harmless_consent s command.yes c t.destination).next hconsent
  exact ⟨hwanted, hallowed, Console.takes_append.mpr ⟨hannounced, hinstruction⟩, hwv.trans hvu,
    fun hne => (hdisplayed hne).after hvu.records,
    hasked.imp_right (.imp_right fun hasked => hasked.before hwv.records)⟩

theorem permit_of_allowed (hwanted : command.dryRun = false)
    (hallowed : (∃ path, t.destination = .file path) ∨ command.yes = true ∨ s.answer = some true)
    (htaken : s.console.Takes (announcement s t c ++ instruction command.yes t.destination))
    (w : World) : ∃ u, permit s command t c w = (.ok (), u) := by
  obtain ⟨hannounced, hinstruction⟩ := Console.takes_append.mp htaken
  obtain ⟨v, hpresent, -⟩ := present_displays hannounced w
  obtain ⟨u, hconsent⟩ := consent_of_allowed hallowed hinstruction v
  exact ⟨u, Run.bind_eq_ok.mpr ⟨(), v, hpresent, Run.bind_eq_ok.mpr
    ⟨(), v, endDryRun_eq_ok.mpr ⟨hwanted, rfl⟩, hconsent⟩⟩⟩

/-! ## Clearance -/

/-- All that comes before the writing. -/
def clear (s : Surroundings) (command : TransferCommand) :
    Run Exit (Transfer × Pipeline × ClusterSchema) := do
  let t ← accept s.console command.options
  let p ← prepare s t
  let c ← plan s p
  permit s command t c
  return (t, p, c)

theorem run_eq_clear (s : Surroundings) (command : TransferCommand) :
    run s command = (do
      let (t, p, c) ← clear s command
      write s p c
      succeed s.console c t.destination) := by
  rw [run_eq, clear]
  simp only [bind_assoc, pure_bind]

theorem harmless_clear (s : Surroundings) (command : TransferCommand) :
    Harmless (clear s command) :=
  Run.within_bind (harmless_accept _ _) fun t => Run.within_bind (harmless_prepare s t) fun p =>
    Run.within_bind (harmless_plan s p) fun _ => Run.within_bind
      (passes_permit (fun _ => Event.not_isWriting_of_isQuiet) fun _ _ => rfl) fun _ =>
        Run.within_pure _

theorem clear_eq_ok (h : clear s command w = (.ok (t, p, c), u)) :
    Cleared s command w t c ∧ Shown command t c w u ∧
      p.output = Pipeline.outputOf t.destination := by
  obtain ⟨_, _, haccept, h⟩ := Run.bind_eq_ok.mp h
  obtain ⟨_, v, hprepare, h⟩ := Run.bind_eq_ok.mp h
  obtain ⟨_, x, hplan, h⟩ := Run.bind_eq_ok.mp h
  obtain ⟨_, _, hpermit, h⟩ := Run.bind_eq_ok.mp h
  obtain ⟨hresult, rfl⟩ := Run.pure_eq_ok.mp h
  cases hresult
  obtain ⟨hcheck, rfl⟩ := accept_eq_ok haccept
  obtain ⟨hwanted, hallowed, htaken, hshown⟩ := permit_eq_ok hpermit
  have hprepared := prepare_eq_ok.mp hprepare
  have hwx := ((harmless_prepare s t).next hprepare).trans ((harmless_plan s p).next hplan)
  exact ⟨⟨hcheck, ⟨p, v, x, hprepared, plan_eq_ok.mp hplan⟩, hwanted, hallowed, htaken⟩,
    hshown.before hwx, Pipeline.prepare_output hprepared⟩

theorem clear_of_cleared (h : Cleared s command w t c) :
    ∃ p u, clear s command w = (.ok (t, p, c), u) := by
  obtain ⟨hcheck, ⟨p, v, x, hprepared, hplanned⟩, hwanted, hallowed, htaken⟩ := h
  obtain ⟨u, hpermit⟩ := permit_of_allowed hwanted hallowed htaken x
  exact ⟨p, u, Run.bind_eq_ok.mpr ⟨t, w, accept_of_ok hcheck w, Run.bind_eq_ok.mpr
    ⟨p, v, prepare_eq_ok.mpr hprepared, Run.bind_eq_ok.mpr ⟨c, x, plan_eq_ok.mpr hplanned,
      Run.bind_eq_ok.mpr ⟨(), u, hpermit, rfl⟩⟩⟩⟩⟩

/-- Either all that has to hold before anything is written does hold, and is shown, and then the
plan is written to its destination and to no other place; or it does not, and every file and the
destination stay as they are, without an attempt at anything. -/
theorem writes_only_cleared (s : Surroundings) (command : TransferCommand) (w : World) :
    (∃ t c u, Cleared s command w t c ∧ Shown command t c w u ∧
      Written c u (run s command w).2 t.destination) ∨
    (∀ t c, ¬ Cleared s command w t c) ∧
      w.Passes (fun e => !e.isWriting) (run s command w).2 := by
  rw [run_eq_clear, Run.bind_apply]
  -- The run is cleared exactly if it gets as far as the writing.
  rcases hclear : clear s command w with ⟨e | ⟨t, p, c⟩, u⟩
  · refine Or.inr ⟨fun t c hcleared => ?_, ?_⟩
    · obtain ⟨p, u', hclear'⟩ := clear_of_cleared hcleared
      cases hclear.symm.trans hclear'
    · exact (harmless_clear s command).next hclear
  · obtain ⟨hcleared, hshown, hp⟩ := clear_eq_ok hclear
    exact Or.inl ⟨t, c, u, hcleared, hshown, write_written hp u⟩

end TransferCommand

end SchemaTransfer
