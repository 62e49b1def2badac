import SchemaTransfer.Proofs.HBase.Catalogue
import SchemaTransfer.Proofs.Transfer.SchemaFile

/-!
# The stages of a transfer

A transfer is made ready in a fixed order, and the connection to a server is opened last. Planning
reads, which ends a connection, and renames. Nothing is written before all of this is done.
-/
namespace SchemaTransfer.Pipeline

variable {s : Surroundings}

/-! ## Making ready -/

theorem unseen_loadNames (mapping : Option Text) : Run.Unseen (loadNames mapping) := by
  cases mapping with
  | none => exact Run.within_pure none
  | some path =>
    refine Run.within_bind ?_ fun _ => Run.within_bind (Run.unseen_info _) fun _ => Run.within_pure _
    exact Run.within_bind (Run.unseen_readText _ _) fun _ => Run.within_ofExcept _

theorem quiet_loadNames (mapping : Option Text) : Run.Quiet (loadNames mapping) :=
  (unseen_loadNames mapping).quiet

theorem unseen_openOutput (s : Surroundings) (d : Destination) : Run.Unseen (openOutput s d) := by
  cases d with
  | file path => exact Run.within_pure _
  | bigtable project instanceId =>
    refine Run.within_bind (fun w => ?_) fun _ => Run.within_pure _
    have hclient : w.Passes Event.isUnseen (w.note (.client (resourceId project "projects"))) :=
      w.passes_note rfl
    rw [Bigtable.Service.connect]
    cases s.bigtable.refusesClient with
    | some fault => cases fault <;> exact hclient
    | none => exact hclient.trans (World.passes_note _ rfl)

theorem quiet_openOutput (s : Surroundings) (d : Destination) : Run.Quiet (openOutput s d) :=
  (unseen_openOutput s d).quiet

/-- The output that a destination stands for. -/
def outputOf : Destination → Output
  | .file path => .file (.ofText path)
  | .bigtable _ _ => .bigtable

theorem openOutput_eq_ok {d : Destination} {o : Output} {w v : World}
    (h : openOutput s d w = (.ok o, v)) : o = outputOf d := by
  cases d with
  | file path => exact (Run.pure_eq_ok.mp h).1.symm
  | bigtable project instanceId =>
    obtain ⟨_, _, -, h⟩ := Run.bind_eq_ok.mp h
    exact (Run.pure_eq_ok.mp h).1.symm

/-- How making a transfer ready comes out. The new names are loaded first, then the output is opened,
and a connection to a server comes last. -/
inductive Prepared (s : Surroundings) (t : Transfer) (w : World) :
    Except Failure Pipeline → World → Prop
  | noNames {e : Failure} {v : World} (hnames : loadNames t.mapping w = (.error e, v)) :
    Prepared s t w (.error e) v
  | noOutput {names : Option Renaming} {u v : World} {e : Failure}
    (hnames : loadNames t.mapping w = (.ok names, u))
    (houtput : openOutput s t.destination u = (.error e, v)) : Prepared s t w (.error e) v
  | file {names : Option Renaming} {u v : World} {output : Output} {path : Text}
    (hnames : loadNames t.mapping w = (.ok names, u))
    (houtput : openOutput s t.destination u = (.ok output, v)) (horigin : t.origin = .file path) :
    Prepared s t w (.ok ⟨.file (.ofText path), names, output⟩) v
  | refused {names : Option Renaming} {u v : World} {output : Output} {host : Text}
    {portNumber : Int} {filter : Option Text} {fault : Fault} {e : Failure}
    (hnames : loadNames t.mapping w = (.ok names, u))
    (houtput : openOutput s t.destination u = (.ok output, v))
    (horigin : t.origin = .server host portNumber filter)
    (hrefuses : s.hbase.refuses host portNumber = some fault) :
    Prepared s t w (.error e) (v.note (.connect host portNumber))
  | connected {names : Option Renaming} {u v : World} {output : Output} {host : Text}
    {portNumber : Int} {filter : Option Text} (hnames : loadNames t.mapping w = (.ok names, u))
    (houtput : openOutput s t.destination u = (.ok output, v))
    (horigin : t.origin = .server host portNumber filter)
    (haccepts : s.hbase.refuses host portNumber = none) :
    Prepared s t w (.ok ⟨.server filter, names, output⟩) (v.note (.connect host portNumber))

theorem prepared (s : Surroundings) (t : Transfer) (w : World) :
    Prepared s t w (prepare s t w).1 (prepare s t w).2 := by
  rw [prepare, Run.bind_apply]
  rcases hnames : loadNames t.mapping w with ⟨e | names, u⟩
  · exact .noNames hnames
  dsimp only
  rw [Run.bind_apply]
  rcases houtput : openOutput s t.destination u with ⟨e | output, v⟩
  · exact .noOutput hnames houtput
  dsimp only
  rw [Run.bind_apply]
  cases horigin : t.origin with
  | file path => exact .file hnames houtput horigin
  | server host portNumber filter =>
    rw [openInput, Run.bind_apply, HBase.Server.connect]
    cases hrefuses : s.hbase.refuses host portNumber with
    | some fault => exact .refused hnames houtput horigin hrefuses
    | none => exact .connected hnames houtput horigin hrefuses

theorem prepare_output {t : Transfer} {w v : World} {p : Pipeline}
    (h : prepare s t w = (.ok p, v)) : p.output = outputOf t.destination := by
  obtain ⟨_, _, -, h⟩ := Run.bind_eq_ok.mp h
  obtain ⟨output, _, houtput, h⟩ := Run.bind_eq_ok.mp h
  obtain ⟨_, _, -, h⟩ := Run.bind_eq_ok.mp h
  cases (Run.pure_eq_ok.mp h).1
  exact openOutput_eq_ok houtput

theorem prepare_input_file {t : Transfer} {w v : World} {p : Pipeline} {path : Text}
    (horigin : t.origin = .file path) (h : prepare s t w = (.ok p, v)) :
    p.input = .file (.ofText path) := by
  obtain ⟨_, _, -, h⟩ := Run.bind_eq_ok.mp h
  obtain ⟨_, _, -, h⟩ := Run.bind_eq_ok.mp h
  obtain ⟨input, _, hinput, h⟩ := Run.bind_eq_ok.mp h
  cases (Run.pure_eq_ok.mp h).1
  rw [horigin] at hinput
  exact (Run.pure_eq_ok.mp hinput).1.symm

/-- Nothing is written before a transfer is ready. -/
theorem prepare_passes (s : Surroundings) (t : Transfer) (w : World) :
    w.Passes (fun e => !e.isWriting) (prepare s t w).2 := by
  have hquiet : ∀ {α : Type} {x : Run Failure α}, x.Quiet →
      Run.Within (World.Passes fun e => !e.isWriting) x :=
    fun hx => hx.mono fun _ _ h => h.mono fun _ => Event.not_isWriting_of_isQuiet
  have hinput : Run.Within (World.Passes fun e => !e.isWriting) (openInput s t.origin) := by
    cases t.origin with
    | file path => exact Run.within_pure _
    | server host portNumber filter =>
      refine Run.within_bind (fun w => ?_) fun _ => Run.within_pure _
      rw [HBase.Server.connect]
      cases s.hbase.refuses host portNumber <;> exact w.passes_note rfl
  exact Run.within_bind (hquiet (quiet_loadNames t.mapping)) (fun _ => Run.within_bind
    (hquiet (quiet_openOutput s t.destination)) fun _ => Run.within_bind hinput
    fun _ => Run.within_pure _) w

/-! ## Planning -/

theorem unseen_rename (names : Option Renaming) (c : ClusterSchema) :
    Run.Unseen (rename names c) := by
  cases names with
  | none => exact Run.within_pure c
  | some r => exact Renaming.unseen_apply r c

theorem unseen_renamePlan (s : Surroundings) (names : Option Renaming) (c : ClusterSchema) :
    Run.Unseen (do
      report s "Read" c
      rename names c) :=
  Run.within_bind (Run.unseen_info _) fun _ => unseen_rename names c

theorem quiet_plan_file (s : Surroundings) (path : Path) (names : Option Renaming) (o : Output) :
    Run.Quiet (plan s ⟨.file path, names, o⟩) :=
  Run.Unseen.quiet <| Run.within_bind (unseen_readSchemaFile path) fun c =>
    unseen_renamePlan s names c

/-- A plan from a server closes the connection and is then only put into new names. -/
theorem plan_server_world (s : Surroundings) (filter : Option Text) (names : Option Renaming)
    (o : Output) (w : World) :
    ∃ u, w.Passes Event.isReading u ∧
      (u.note (.call .close)).Passes Event.isQuiet (plan s ⟨.server filter, names, o⟩ w).2 := by
  obtain ⟨u, hread, hclose⟩ := HBase.read_world s.hbase filter w
  refine ⟨u, hread, ?_⟩
  rw [plan, readInput, Run.bind_apply]
  rcases hr : s.hbase.source.read filter w with ⟨_ | c, v⟩
  all_goals
    rw [hr] at hclose
    rw [← hclose]
  · exact .refl _ v
  · exact (unseen_renamePlan s names c).quiet v

/-- Nothing is written before there is a plan. -/
theorem plan_passes (s : Surroundings) (p : Pipeline) (w : World) :
    w.Passes (fun e => !e.isWriting) (plan s p w).2 := by
  have hquiet : ∀ e : Event, e.isQuiet → !e.isWriting := fun _ => Event.not_isWriting_of_isQuiet
  obtain ⟨input, names, o⟩ := p
  cases input with
  | file path => exact (quiet_plan_file s path names o w).mono hquiet
  | server filter =>
    obtain ⟨u, hread, hrest⟩ := plan_server_world s filter names o w
    have hclosed : u.Passes (fun e => !e.isWriting) (u.note (.call .close)) := u.passes_note rfl
    exact ((hread.mono fun _ => Event.not_isWriting_of_isReading).trans hclosed).trans
      (hrest.mono hquiet)

theorem leaves_plan (s : Surroundings) (p : Pipeline) : Run.Leaves (plan s p) :=
  fun w => (plan_passes s p w).untouched fun _ he => he

end SchemaTransfer.Pipeline
