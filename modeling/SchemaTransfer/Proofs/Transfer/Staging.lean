import SchemaTransfer.Proofs.Bigtable.Creation
import SchemaTransfer.Proofs.Transfer.Stages

/-!
# Copying through a file

A definition from a server can be written to a file and brought to the destination from there. The
destination cannot tell this from a direct copy, whether the tables get their new names on the way
to the file or on the way from it.
-/
namespace SchemaTransfer

variable {F : Path} {c d : ClusterSchema} {w w' : World}

namespace Pipeline

variable {s : Surroundings}

/-! ## Plans -/

theorem rename_joined {names : Option Renaming} (h : rename names c w = (.ok d, w')) (v : World) :
    ∃ v', rename names c.joined v = (.ok d.joined, v') := by
  cases names with
  | none =>
    obtain ⟨rfl, -⟩ := Run.pure_eq_ok.mp h
    exact ⟨v, rfl⟩
  | some r => exact Renaming.apply_joined h v

theorem rename_transferable {names : Option Renaming} (hn : ∀ r ∈ names, r.NewNamesUnpaired)
    (hc : c.Sound ∧ c.Transferable) (h : rename names c w = (.ok d, w')) :
    d.Sound ∧ d.Transferable := by
  cases names with
  | none =>
    obtain ⟨rfl, -⟩ := Run.pure_eq_ok.mp h
    exact hc
  | some r => exact ⟨Renaming.apply_sound hc.1 h, Renaming.apply_transferable (hn r rfl) hc.2 h⟩

theorem plan_transferable {p : Pipeline}
    (hread : ∀ c u, readInput s p.input w = (.ok c, u) → c.Sound ∧ c.Transferable)
    (hn : ∀ r ∈ p.newNames, r.NewNamesUnpaired) (h : plan s p w = (.ok d, w')) :
    d.Sound ∧ d.Transferable := by
  obtain ⟨c, u, hc, h⟩ := Run.bind_eq_ok.mp h
  obtain ⟨_, v, -, hrename⟩ := Run.bind_eq_ok.mp h
  exact rename_transferable hn (hread c u hc) hrename

theorem run_of_plan {p : Pipeline} (h : plan s p w = (.ok c, w')) :
    run s p w = write s p (some c) w' := by
  rw [run, Run.bind_apply, h]

/-- One leg of a way through a file takes the new names, the other none. -/
def TakenOnce (names first second : Option Renaming) : Prop :=
  first = names ∧ second = none ∨ first = none ∧ second = names

/-- The way to the file carries what the way from it renames to the plan. -/
theorem plan_toFile {i : Input} {o o' : Output} {names first second : Option Renaming}
    (hread : ∀ c u, readInput s i w = (.ok c, u) → c.Sound ∧ c.Transferable)
    (hn : ∀ r ∈ names, r.NewNamesUnpaired) (hlegs : TakenOnce names first second)
    (h : plan s ⟨i, names, o⟩ w = (.ok d, w')) :
    ∃ c u v v', plan s ⟨i, first, o'⟩ w = (.ok c, u) ∧ (c.Sound ∧ c.Transferable) ∧
      rename second c v = (.ok d, v') := by
  rcases hlegs with ⟨rfl, rfl⟩ | ⟨rfl, rfl⟩
  · exact ⟨d, w', w', w', h, plan_transferable hread hn h, rfl⟩
  · obtain ⟨c, u, hc, h⟩ := Run.bind_eq_ok.mp h
    obtain ⟨_, v, hreport, hrename⟩ := Run.bind_eq_ok.mp h
    have hplan : plan s ⟨i, none, o'⟩ w = (.ok c, v) :=
      Run.bind_eq_ok.mpr ⟨c, u, hc, Run.bind_eq_ok.mpr ⟨(), v, hreport, rfl⟩⟩
    exact ⟨c, v, v, w', hplan, hread c u hc, hrename⟩

/-- The way from the file plans for the same tables, with pairs joined. -/
theorem plan_fromFile {o : Output} {second : Option Renaming} {v v' : World}
    (hc : c.Sound ∧ c.Transferable) (hw : w.Holds F c) (h : rename second c v = (.ok d, v')) :
    ∃ u, plan s ⟨.file F, second, o⟩ w = (.ok d.joined, u) := by
  have hread := readSchemaFile_of_holds hc.1 hc.2.writable hc.2.namesUnpaired hw
  obtain ⟨u', hrename⟩ := rename_joined h ((readSchemaFile F w).2.note _)
  exact ⟨u', Run.bind_eq_ok.mpr ⟨c.joined, _, Prod.ext hread rfl,
    Run.bind_eq_ok.mpr ⟨(), _, rfl, hrename⟩⟩⟩

/-! ## The destination -/

/-- Two transfers that plan for the same tables in the same order, get the same results for them
and leave the same tables and the same requests behind. -/
structure SameTransfer (s : Surroundings) (p : Pipeline) (w : World) (s' : Surroundings)
    (q : Pipeline) (v : World) : Prop where
  planned : ∃ c w₁ d v₁, plan s p w = (.ok c, w₁) ∧ plan s' q v = (.ok d, v₁) ∧
    List.Forall₂ Bigtable.SameRequest c.tables d.tables ∧
    (s'.bigtable.createTables (some d) v₁).1 = (s.bigtable.createTables (some c) w₁).1
  result : (run s' q v).1 = (run s p w).1
  destination : (run s p w).2.SameDestination (run s' q v).2

theorem sameRequest_joined (hc : c.Transferable) :
    List.Forall₂ Bigtable.SameRequest c.tables c.joined.tables := by
  have hall : ∀ t ∈ c.tables, Bigtable.SameRequest t t.joined :=
    fun t ht => ⟨rfl, rfl, Bigtable.requestFor_joined (hc t ht)⟩
  exact List.forall₂_map_right_iff.mpr (List.forall₂_same.mpr hall)

theorem sameTransfer_of_plan {s s' : Surroundings} (hs : s'.bigtable = s.bigtable)
    {i j : Input} {names names' : Option Renaming} {v w₁ v₁ : World} (hwv : w.SameDestination v)
    (hp : plan s ⟨i, names, .bigtable⟩ w = (.ok c, w₁))
    (hq : plan s' ⟨j, names', .bigtable⟩ v = (.ok d, v₁))
    (hcd : List.Forall₂ Bigtable.SameRequest c.tables d.tables) :
    SameTransfer s ⟨i, names, .bigtable⟩ w s' ⟨j, names', .bigtable⟩ v := by
  have hw := (leaves_plan s ⟨i, names, .bigtable⟩ w).sameDestination
  have hv := (leaves_plan s' ⟨j, names', .bigtable⟩ v).sameDestination
  rw [hp] at hw
  rw [hq] at hv
  have hplanned : w₁.SameDestination v₁ := (hw.symm.trans hwv).trans hv
  have hwrite : (write s ⟨i, names, .bigtable⟩ (some c)).Agree
      (write s' ⟨j, names', .bigtable⟩ (some d)) := by
    refine Run.agree_bind ?_ fun _ => Run.agree_log _ _ _ _
    rw [writeOutput, writeOutput, hs]
    exact Bigtable.agree_write s.bigtable hcd
  have hrun := hwrite w₁ v₁ hplanned
  rw [← run_of_plan hp, ← run_of_plan hq] at hrun
  refine ⟨⟨c, w₁, d, v₁, hp, hq, hcd, ?_⟩, hrun.1, hrun.2⟩
  rw [hs]
  exact (Bigtable.agree_createTables s.bigtable hcd w₁ v₁ hplanned).1

/-- A copy through a file is a direct copy. Whenever the direct copy of a server has a plan, the way
to the file succeeds and leaves the destination alone, and the way from that file, at any later time
before the destination has changed, makes the same transfer. -/
theorem staged_eq_direct {s : Surroundings} (hs : s.hbase.Transferable) (filter : Option Text)
    {names first second : Option Renaming}
    (hnames : ∀ r ∈ names, ∃ path u u', Renaming.load path u = (.ok r, u'))
    (hlegs : TakenOnce names first second) (hF : Run.noName? F = none) {l : Location}
    (hl : w.files.writable F = .ok l)
    (hplan : plan s ⟨.server filter, names, .bigtable⟩ w = (.ok c, w')) :
    ∃ staged, run s ⟨.server filter, first, .file F⟩ w = (.ok (), staged) ∧
      w.SameDestination staged ∧
      ∀ (s' : Surroundings) (v : World), s'.bigtable = s.bigtable → v.files = staged.files →
        w.SameDestination v →
        SameTransfer s ⟨.server filter, names, .bigtable⟩ w s' ⟨.file F, second, .bigtable⟩ v := by
  have hn : ∀ r ∈ names, r.NewNamesUnpaired := by
    intro r hr
    obtain ⟨path, u, u', hload⟩ := hnames r hr
    exact Renaming.newNames_of_load hload
  have hread : ∀ c u, readInput s (.server filter) w = (.ok c, u) → c.Sound ∧ c.Transferable :=
    fun _ _ h => HBase.read_transferable hs h
  -- The file holds `e`: the plan itself, or what is read of the server before it is renamed.
  obtain ⟨e, u, x, x', hfirst, he, hrename⟩ := plan_toFile hread hn hlegs hplan
  have huntouched := leaves_plan s ⟨.server filter, first, .file F⟩ w
  rw [hfirst] at huntouched
  have hwritable : u.files.writable F = .ok l := by rw [huntouched.files, hl]
  obtain ⟨v, hwritten, hholds, hdest⟩ := writeSchemaFile_holds he.2.writable hF hwritable
  have hrun : run s ⟨.server filter, first, .file F⟩ w =
      write s ⟨.server filter, first, .file F⟩ (some e) u := run_of_plan hfirst
  refine ⟨_, hrun.trans (Run.bind_eq_ok.mpr ⟨(), v, hwritten, rfl⟩),
    (huntouched.sameDestination.trans hdest).noteOther rfl, fun s' v' hs' hfiles hwv => ?_⟩
  obtain ⟨v₁, hsecond⟩ := plan_fromFile he (hholds.of_read (congrArg (·.read F) hfiles)) hrename
  exact sameTransfer_of_plan hs' hwv hplan hsecond
    (sameRequest_joined (plan_transferable hread hn hplan).2)

/-- A server with one table, whose bounds come as bytes and as JSON and one of whose regions begins
at a key that is not UTF-8. -/
def sampleAnswer : List HBase.Call → (c : HBase.Call) → Except Fault c.Reply
  | _, .tables => .ok ([.bytes [0x74]] : List HBase.RawName)
  | _, .families _ =>
    .ok (⟨[(.bytes [0x66], ⟨[("name", .bytes [0x66]), ("max_versions", .bytes [0x33]),
      ("time_to_live", .json (.int 60))], by decide⟩)], by decide⟩ :
        Dict HBase.RawName HBase.Descriptor)
  | _, .regions _ => .ok ([[], [0xFF, 0]] : List Bytes)
  | _, .table _ => .ok ()
  | _, .close => .ok ()

def sample : Surroundings where
  hbase := ⟨fun _ _ => none, sampleAnswer⟩
  bigtable := ⟨none, fun _ _ _ => none⟩
  answer := none
  runId := "run"

def sampleNames : Renaming := ⟨[("t", "u")], by decide⟩

/-- A world whose one file `m` gives the table `t` the name `u`. -/
def sampleWorld : World where
  files := (FileSystem.empty []).place [[0x6D]]
    (.file [0x7B, 0x22, 0x74, 0x22, 0x3A, 0x22, 0x75, 0x22, 0x7D])
  tables := []
  events := []

theorem transferable_sample : sample.hbase.Transferable where
  tables _ names h := by
    cases h
    simp
  families _ table families h := by
    cases h
    refine List.forall_mem_singleton.mpr ⟨⟨_, rfl⟩, ?_⟩
    simp only [List.forall_mem_cons]
    exact ⟨.inl ⟨_, rfl⟩, .inl ⟨_, rfl⟩, .inr ⟨_, rfl, by decide +kernel, by decide⟩, by simp⟩

theorem staged_eq_direct_sample : ∃ c w' staged,
    plan sample ⟨.server none, some sampleNames, .bigtable⟩ sampleWorld = (.ok c, w') ∧
    c.names = ["u"] ∧
    run sample ⟨.server none, none, .file (.ofText "s")⟩ sampleWorld = (.ok (), staged) ∧
    SameTransfer sample ⟨.server none, some sampleNames, .bigtable⟩ sampleWorld
      sample ⟨.file (.ofText "s"), some sampleNames, .bigtable⟩ staged := by
  have hload : (Renaming.load (.ofText "m") sampleWorld).1.toOption.map Dict.entries =
      some sampleNames.entries := by decide +kernel
  have hplanned : (plan sample ⟨.server none, some sampleNames, .bigtable⟩ sampleWorld).1.toOption.map
      ClusterSchema.names = some (["u"] : List Text) := by decide +kernel
  rcases hl : Renaming.load (.ofText "m") sampleWorld with ⟨_ | r, u⟩
  · rw [hl] at hload
    cases hload
  rcases hp : plan sample ⟨.server none, some sampleNames, .bigtable⟩ sampleWorld with ⟨_ | c, w'⟩
  · rw [hp] at hplanned
    cases hplanned
  rw [hl] at hload
  rw [hp] at hplanned
  have hr : r = sampleNames := Dict.ext (Option.some.inj hload)
  subst hr
  obtain ⟨staged, hrun, hdest, hsame⟩ := staged_eq_direct (F := .ofText "s") transferable_sample none
    (fun _ h => Option.some.inj h ▸ ⟨_, _, _, hl⟩) (Or.inr ⟨rfl, rfl⟩) (by decide) (l := [[0x73]])
    rfl hp
  exact ⟨c, w', staged, rfl, Option.some.inj hplanned, hrun, hsame sample staged rfl rfl hdest⟩

end Pipeline

end SchemaTransfer
