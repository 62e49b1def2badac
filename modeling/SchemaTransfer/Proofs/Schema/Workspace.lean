import SchemaTransfer.Proofs.Run.Success
import SchemaTransfer.Proofs.Schema.Decoding
import SchemaTransfer.Schema.Workspace

/-!
# Workspaces stay sound

Every table that is made has a name and no empty split, every cluster that is made has distinct
names and such tables, in whatever order they are made from one another. A step changes at most
what it makes; all else stays in its place.
-/
namespace SchemaTransfer

namespace ClusterSchema

theorem sound_add {c d : ClusterSchema} {t : TableSchema} (hc : c.Sound) (ht : t.Valid)
    (h : c.add t = .ok d) : d.Sound := by
  obtain ⟨-, htables⟩ := add_eq_ok h
  refine ⟨valid_add hc.names_nodup h, ?_⟩
  rw [htables]
  exact List.forall_mem_append.mpr ⟨hc.tables_valid, List.forall_mem_singleton.mpr ht⟩

theorem sound_addAll {c d : ClusterSchema} {tables : List TableSchema} (hc : c.Sound)
    (ht : ∀ t ∈ tables, t.Valid) (h : c.addAll tables = .ok d) : d.Sound := by
  induction tables generalizing c with
  | nil =>
    cases h
    exact hc
  | cons t rest ih =>
    obtain ⟨htv, hrest⟩ := List.forall_mem_cons.mp ht
    rw [addAll] at h
    split at h
    · cases h
    · next hadd => exact ih (sound_add hc htv hadd) hrest h

end ClusterSchema

namespace Renaming

variable {r : Renaming} {w w' : World}

/-- Under a new name a table is made anew, so an empty name is refused here too. -/
theorem renameTable_valid {t u : TableSchema} (ht : t.Valid)
    (h : r.renameTable t w = (.ok u, w')) : u.Valid := by
  rw [renameTable] at h
  cases hname : r.get? t.name with
  | none =>
    rw [hname] at h
    obtain ⟨rfl, -⟩ := Run.pure_eq_ok.mp h
    exact ht
  | some name =>
    rw [hname] at h
    obtain ⟨_, v, -, h⟩ := Run.bind_eq_ok.mp h
    obtain ⟨hmade, -⟩ := Run.ofExcept_eq_ok.mp h
    obtain ⟨-, -, -, hvalid⟩ := TableSchema.create_eq_ok (mapError_eq_ok.mp hmade)
    exact hvalid

theorem applyFrom_sound {done c : ClusterSchema} {tables : List TableSchema} (hdone : done.Sound)
    (ht : ∀ t ∈ tables, t.Valid) (h : r.applyFrom done tables w = (.ok c, w')) : c.Sound := by
  induction tables generalizing done w with
  | nil =>
    obtain ⟨rfl, -⟩ := Run.pure_eq_ok.mp h
    exact hdone
  | cons t rest ih =>
    obtain ⟨htv, hrest⟩ := List.forall_mem_cons.mp ht
    obtain ⟨u, v, hu, h⟩ := Run.bind_eq_ok.mp h
    obtain ⟨d, v', hd, h⟩ := Run.bind_eq_ok.mp h
    have hadd := mapError_eq_ok.mp (Run.ofExcept_eq_ok.mp hd).1
    have huv : u.Valid := renameTable_valid htv hu
    exact ih (ClusterSchema.sound_add hdone huv hadd) hrest h

theorem apply_sound {c d : ClusterSchema} (hc : c.Sound) (h : r.apply c w = (.ok d, w')) :
    d.Sound :=
  applyFrom_sound ClusterSchema.sound_empty hc.tables_valid h

end Renaming

namespace Workspace

/-! ## Places -/

/-- A place in a workspace. -/
inductive Slot
  | table (id : Text)
  | cluster (id : Text)
deriving DecidableEq

def Product.slot : Product → Slot
  | .table id _ => .table id
  | .cluster id _ => .cluster id

/-- The place of what a step makes; what is added to a cluster goes to the place of that cluster. -/
def Step.slot : Step → Slot
  | .createTable id _ _ _ | .readTable id _ | .renameTable id _ _ => .table id
  | .collect id _ | .decodeCluster id _ | .readCluster id _ | .add id _ | .rename id _ _ =>
    .cluster id

/-- What stands at a place. -/
def holds (ws : Workspace) : Slot → Option Product
  | .table id => (ws.tables.get? id).map (.table id)
  | .cluster id => (ws.clusters.get? id).map (.cluster id)

theorem holds_keep (ws : Workspace) (p : Product) (slot : Slot) :
    (ws.keep p).holds slot = if slot = p.slot then some p else ws.holds slot := by
  cases p with
  | table id t =>
    cases slot with
    | table other =>
      by_cases h : other = id
      · subst h
        simp [holds, keep, Product.slot, Dict.get?_insert]
      · have h' : ¬ id = other := fun he => h he.symm
        simp [holds, keep, Product.slot, Dict.get?_insert, h, h']
    | cluster other => rfl
  | cluster id c =>
    cases slot with
    | table other => rfl
    | cluster other =>
      by_cases h : other = id
      · subst h
        simp [holds, keep, Product.slot, Dict.get?_insert]
      · have h' : ¬ id = other := fun he => h he.symm
        simp [holds, keep, Product.slot, Dict.get?_insert, h, h']

theorem table_eq_ok {ws : Workspace} {id : Text} {t : TableSchema} :
    ws.table id = .ok t ↔ ws.holds (.table id) = some (.table id t) := by
  rw [table, holds]
  cases ws.tables.get? id <;> simp

theorem cluster_eq_ok {ws : Workspace} {id : Text} {c : ClusterSchema} :
    ws.cluster id = .ok c ↔ ws.holds (.cluster id) = some (.cluster id c) := by
  rw [cluster, holds]
  cases ws.clusters.get? id <;> simp

/-! ## The invariant -/

def Product.Sound : Product → Prop
  | .table _ t => t.Valid
  | .cluster _ c => c.Sound

def Sound (ws : Workspace) : Prop := ∀ slot p, ws.holds slot = some p → p.Sound

theorem sound_empty : empty.Sound := by
  intro slot p h
  cases slot <;> cases h

/-! ## One step -/

variable {w w' : World}

theorem tableProduct_eq_ok {id : Text} {r : Except Failure TableSchema} {p : Product} :
    tableProduct id r w = (.ok p, w') ↔ (∃ t, r = .ok t ∧ .table id t = p) ∧ w = w' := by
  rw [tableProduct, Run.ofExcept_eq_ok, mapError_eq_ok, map_eq_ok]

theorem clusterProduct_eq_ok {id : Text} {r : Except Failure ClusterSchema} {p : Product} :
    clusterProduct id r w = (.ok p, w') ↔ (∃ c, r = .ok c ∧ .cluster id c = p) ∧ w = w' := by
  rw [clusterProduct, Run.ofExcept_eq_ok, mapError_eq_ok, map_eq_ok]

/-- What a step makes is sound and belongs to the place of the step. To a cluster that is there a
step adds one table that is there, at the end. -/
structure Made (ws : Workspace) (step : Step) (p : Product) : Prop where
  sound : p.Sound
  slot_eq : p.slot = step.slot
  added : ∀ id table, step = .add id table → ∃ c t, ws.holds (.cluster id) = some (.cluster id c) ∧
    ws.holds (.table table) = some (.table table t) ∧ p = .cluster id ⟨c.tables ++ [t]⟩

theorem made_of_create {ws : Workspace} {step : Step} {id : Text} {name : Option Text}
    {families : Families} {splits : List Bytes} {p : Product} (hslot : step.slot = .table id)
    (h : tableProduct id ((TableSchema.create name families splits).mapError .definition) w =
      (.ok p, w')) : ws.Made step p := by
  obtain ⟨⟨t, ht, rfl⟩, -⟩ := tableProduct_eq_ok.mp h
  obtain ⟨-, -, -, hvalid⟩ := TableSchema.create_eq_ok (mapError_eq_ok.mp ht)
  refine ⟨hvalid, hslot.symm, fun id' table hstep => ?_⟩
  rw [hstep] at hslot
  cases hslot

theorem make_eq_ok {ws : Workspace} {step : Step} {p : Product} (hs : ws.Sound)
    (h : ws.make step w = (.ok p, w')) : ws.Made step p := by
  cases step with
  | createTable id name families splits => exact made_of_create rfl h
  | readTable id v =>
    obtain ⟨⟨t, ht, rfl⟩, -⟩ := tableProduct_eq_ok.mp h
    have hread := TableSchema.ofJson_eq_ok.mp ht
    exact ⟨hread.valid, rfl, fun _ _ h => (nomatch h)⟩
  | renameTable id source name =>
    obtain ⟨t, v, -, h⟩ := Run.bind_eq_ok.mp h
    exact made_of_create rfl h
  | collect id tables =>
    obtain ⟨sources, v, hsources, h⟩ := Run.bind_eq_ok.mp h
    obtain ⟨⟨c, hc, rfl⟩, -⟩ := clusterProduct_eq_ok.mp h
    have hall := mapM_eq_ok.mp (Run.ofExcept_eq_ok.mp hsources).1
    have hvalid : ∀ t ∈ sources, t.Valid := forall_of_forall₂ hall
      fun source _ t ht => hs (.table source) _ (table_eq_ok.mp ht)
    have hsound := ClusterSchema.sound_addAll ClusterSchema.sound_empty hvalid (mapError_eq_ok.mp hc)
    exact ⟨hsound, rfl, fun _ _ h => (nomatch h)⟩
  | decodeCluster id v =>
    obtain ⟨⟨c, hc, rfl⟩, -⟩ := clusterProduct_eq_ok.mp h
    have hread := ClusterSchema.ofJson_eq_ok.mp hc
    exact ⟨hread.sound, rfl, fun _ _ h => (nomatch h)⟩
  | readCluster id t =>
    obtain ⟨⟨c, hc, rfl⟩, -⟩ := clusterProduct_eq_ok.mp h
    obtain ⟨v, -, hread⟩ := ClusterSchema.ofText_eq_ok.mp hc
    exact ⟨hread.sound, rfl, fun _ _ h => (nomatch h)⟩
  | add id table =>
    obtain ⟨c, v, hc, h⟩ := Run.bind_eq_ok.mp h
    obtain ⟨t, v', ht, h⟩ := Run.bind_eq_ok.mp h
    obtain ⟨⟨d, hd, rfl⟩, -⟩ := clusterProduct_eq_ok.mp h
    have hc := cluster_eq_ok.mp (Run.ofExcept_eq_ok.mp hc).1
    have ht := table_eq_ok.mp (Run.ofExcept_eq_ok.mp ht).1
    have hadd := mapError_eq_ok.mp hd
    refine ⟨ClusterSchema.sound_add (hs _ _ hc) (hs _ _ ht) hadd, rfl, ?_⟩
    rintro _ _ ⟨⟩
    obtain ⟨-, htables⟩ := ClusterSchema.add_eq_ok hadd
    exact ⟨c, t, hc, ht, by rw [← htables]⟩
  | rename id source r =>
    obtain ⟨c, v, hc, h⟩ := Run.bind_eq_ok.mp h
    obtain ⟨d, v', hd, h⟩ := Run.bind_eq_ok.mp h
    obtain ⟨rfl, -⟩ := Run.pure_eq_ok.mp h
    obtain ⟨_, _, -, hd⟩ := Run.bind_eq_ok.mp (Run.recover_eq_ok.mp hd)
    have hc := cluster_eq_ok.mp (Run.ofExcept_eq_ok.mp hc).1
    have hsound : d.Sound := Renaming.apply_sound (hs _ _ hc) hd
    exact ⟨hsound, rfl, fun _ _ h => (nomatch h)⟩

/-- How a workspace comes out of a step: as it was if the step failed, and else with what the step
made in its place and all other places as they were. -/
inductive Outcome (ws : Workspace) (step : Step) : Except StepError (Workspace × Product) →
    Workspace → Prop
  | failed (e : StepError) : Outcome ws step (.error e) ws
  | made {p : Product} {ws' : Workspace} (hmade : ws.Made step p)
    (hplace : ws'.holds step.slot = some p)
    (hframe : ∀ slot, slot ≠ step.slot → ws'.holds slot = ws.holds slot) :
    Outcome ws step (.ok (ws', p)) ws'

theorem outcome_after {ws : Workspace} (hs : ws.Sound) (step : Step) (w : World) :
    ∃ ws', (ws.after step w).1 = .ok ws' ∧ Outcome ws step (ws.apply step w).1 ws' := by
  rcases hmake : ws.make step w with ⟨e | p, v⟩
  · refine ⟨ws, ?_, ?_⟩
    · rw [after, apply, Run.bind_apply, hmake]
    · rw [apply, Run.bind_apply, hmake]
      exact .failed e
  · have hmade := make_eq_ok hs hmake
    refine ⟨ws.keep p, ?_, ?_⟩
    · rw [after, apply, Run.bind_apply, hmake]
      rfl
    · rw [apply, Run.bind_apply, hmake]
      refine .made hmade ?_ fun slot hslot => ?_
      · rw [holds_keep, if_pos hmade.slot_eq.symm]
      · rw [holds_keep, if_neg (hmade.slot_eq ▸ hslot)]

theorem Outcome.sound {ws ws' : Workspace} {step : Step}
    {r : Except StepError (Workspace × Product)} (hs : ws.Sound) (h : Outcome ws step r ws') :
    ws'.Sound := by
  cases h with
  | failed => exact hs
  | made hmade hplace hframe =>
    intro slot q hq
    by_cases hslot : slot = step.slot
    · rw [hslot, hplace] at hq
      cases hq
      exact hmade.sound
    · rw [hframe slot hslot] at hq
      exact hs slot q hq

/-! ## Runs of steps -/

theorem afterAll_sound {ws : Workspace} (hs : ws.Sound) (steps : List Step) (w : World) :
    ∃ ws', (ws.afterAll steps w).1 = .ok ws' ∧ ws'.Sound := by
  induction steps generalizing ws w with
  | nil => exact ⟨ws, rfl, hs⟩
  | cons step rest ih =>
    obtain ⟨ws', hafter, houtcome⟩ := outcome_after hs step w
    rcases hstep : ws.after step w with ⟨r, v⟩
    rw [hstep] at hafter
    cases hafter
    rw [afterAll, Run.bind_apply, hstep]
    exact ih (houtcome.sound hs) v

/-- Whatever steps have been made before, some of them in vain, the workspace is sound, and so is what
the next step makes. A step that fails changes nothing, adding a table puts it at the end of its
cluster, and apart from what it makes a step leaves every table and every cluster as it was. -/
theorem run_sound (steps : List Step) (w : World) :
    ∃ ws, (empty.afterAll steps w).1 = .ok ws ∧ ws.Sound ∧ ∀ (step : Step) (v : World),
      ∃ ws', (ws.after step v).1 = .ok ws' ∧ Outcome ws step (ws.apply step v).1 ws' := by
  obtain ⟨ws, hws, hs⟩ := afterAll_sound sound_empty steps w
  exact ⟨ws, hws, hs, outcome_after hs⟩

end Workspace

end SchemaTransfer
