import SchemaTransfer.Proofs.Schema.Renaming

/-!
# The names after a renaming

All tables get their new names at once, and nothing else of them changes. So two names may be
swapped, and one renaming after another is again one renaming of the first names. A renaming fails
only if two tables would have the same name afterwards.
-/
namespace SchemaTransfer

/-! ## Putting names in place of names -/

def TableSchema.mapName (f : Text → Text) (t : TableSchema) : TableSchema :=
  { t with name := f t.name }

/-- The cluster with another name for every table. -/
def ClusterSchema.mapNames (f : Text → Text) (c : ClusterSchema) : ClusterSchema :=
  ⟨c.tables.map (TableSchema.mapName f)⟩

namespace ClusterSchema

variable {c : ClusterSchema} {f g : Text → Text}

theorem mapNames_mapNames (f g : Text → Text) (c : ClusterSchema) :
    (c.mapNames f).mapNames g = c.mapNames (g ∘ f) := by
  rw [mapNames, mapNames, mapNames, List.map_map]
  rfl

theorem mapNames_congr (h : ∀ name ∈ c.names, f name = g name) : c.mapNames f = c.mapNames g := by
  have htables : ∀ t ∈ c.tables, t.mapName f = t.mapName g := fun t ht => by
    rw [TableSchema.mapName, TableSchema.mapName, h t.name (List.mem_map_of_mem ht)]
  rw [mapNames, mapNames, List.map_congr_left htables]

theorem mapNames_id (c : ClusterSchema) : c.mapNames (fun name => name) = c := by
  rw [mapNames]
  exact congrArg mk (List.map_id' c.tables)

theorem Portable.mapNames (hc : c.Portable) (hf : ∀ name ∈ c.names, (f name).Unpaired) :
    (c.mapNames f).Portable :=
  List.forall_mem_map.mpr fun t ht => ⟨hf t.name (List.mem_map_of_mem ht), (hc t ht).families⟩

end ClusterSchema

namespace Renaming

variable {r : Renaming} {w w' : World}

/-- What a table is called after a renaming; a name that has no new one stays. -/
def newName (r : Renaming) (old : Text) : Text := (r.get? old).getD old

theorem newName_unpaired (hr : r.NewNamesUnpaired) {old : Text} (ho : old.Unpaired) :
    (r.newName old).Unpaired := by
  rw [newName]
  cases hname : r.get? old with
  | none => exact ho
  | some name => exact hr old name hname

/-! ## Renaming a cluster -/

theorem renameTable_named {t u : TableSchema} (h : r.renameTable t w = (.ok u, w')) :
    u = t.mapName r.newName := by
  rcases renameTable_eq_ok h with ⟨hname, rfl⟩ | ⟨name, hname, hrenamed⟩
  · rw [TableSchema.mapName, newName, hname]
    rfl
  · obtain ⟨hu, hfamilies, hsplits, -⟩ := TableSchema.create_eq_ok hrenamed
    rw [TableSchema.mapName, newName, hname, hu, ← hfamilies, ← hsplits]
    rfl

theorem renameTable_of_valid {t : TableSchema} (h : (t.mapName r.newName).Valid) (w : World) :
    ∃ w', r.renameTable t w = (.ok (t.mapName r.newName), w') := by
  obtain ⟨hname, hsplits⟩ := h
  rw [TableSchema.mapName, newName] at hname
  refine renameTable_of_ok w ?_
  rw [TableSchema.mapName, newName]
  cases hnew : r.get? t.name with
  | none => exact Or.inl ⟨rfl, rfl⟩
  | some name =>
    rw [hnew, Option.getD_some] at hname
    refine Or.inr ⟨name, rfl, ?_⟩
    rw [TableSchema.renamed, TableSchema.create_named hname]
    exact if_neg hsplits

theorem applyFrom_eq_ok {done d : ClusterSchema} {tables : List TableSchema}
    (h : r.applyFrom done tables w = (.ok d, w')) :
    d.tables = done.tables ++ tables.map (TableSchema.mapName r.newName) := by
  induction tables generalizing done w with
  | nil =>
    obtain ⟨rfl, -⟩ := Run.pure_eq_ok.mp h
    exact (List.append_nil _).symm
  | cons t rest ih =>
    obtain ⟨u, _, hu, h⟩ := Run.bind_eq_ok.mp h
    obtain ⟨_, _, hd, h⟩ := Run.bind_eq_ok.mp h
    obtain ⟨-, htables⟩ := ClusterSchema.add_eq_ok (mapError_eq_ok.mp (Run.ofExcept_eq_ok.mp hd).1)
    rw [ih h, htables, renameTable_named hu, List.append_assoc, List.map_cons]
    rfl

/-- What a renaming makes of a cluster, if it does not fail. -/
theorem apply_eq_ok {c d : ClusterSchema} (h : r.apply c w = (.ok d, w')) :
    d = c.mapNames r.newName :=
  congrArg ClusterSchema.mk (applyFrom_eq_ok h)

theorem applyFrom_of_sound {done : ClusterSchema} {tables : List TableSchema}
    (h : ClusterSchema.Sound ⟨done.tables ++ tables.map (TableSchema.mapName r.newName)⟩)
    (w : World) : ∃ w', r.applyFrom done tables w =
      (.ok ⟨done.tables ++ tables.map (TableSchema.mapName r.newName)⟩, w') := by
  induction tables generalizing done w with
  | nil => exact ⟨w, Run.pure_eq_ok.mpr ⟨congrArg ClusterSchema.mk (List.append_nil _).symm, rfl⟩⟩
  | cons t rest ih =>
    -- `t` comes next, under its new name; the tables after it come on top of it.
    have hcons : done.tables ++ (t :: rest).map (TableSchema.mapName r.newName) =
        (done.tables ++ [t.mapName r.newName]) ++ rest.map (TableSchema.mapName r.newName) := by
      rw [List.append_assoc]
      rfl
    rw [hcons] at h ⊢
    have hvalid : (t.mapName r.newName).Valid := h.tables_valid _
      (List.mem_append_left _ (List.mem_append_right _ (List.mem_singleton_self _)))
    have hfresh : (t.mapName r.newName).name ∉ done.names := by
      have hnodup := h.names_nodup
      rw [ClusterSchema.Valid, ClusterSchema.names, List.map_append, List.map_append] at hnodup
      have hdone := (List.nodup_append.mp hnodup).1
      exact fun hm => (List.nodup_append.mp hdone).2.2 _ hm _ (List.mem_singleton_self _) rfl
    obtain ⟨v, hrenamed⟩ := renameTable_of_valid hvalid w
    obtain ⟨w', hrest⟩ := @ih ⟨done.tables ++ [t.mapName r.newName]⟩ h v
    refine ⟨w', Run.bind_eq_ok.mpr ⟨_, v, hrenamed, Run.bind_eq_ok.mpr
      ⟨_, v, Run.ofExcept_eq_ok.mpr ⟨?_, rfl⟩, hrest⟩⟩⟩
    rw [ClusterSchema.add_of_notMem hfresh]
    rfl

/-- A renaming fails only if its result would be no cluster. -/
theorem apply_of_sound {c : ClusterSchema} (h : (c.mapNames r.newName).Sound) (w : World) :
    ∃ w', r.apply c w = (.ok (c.mapNames r.newName), w') :=
  @applyFrom_of_sound r .empty c.tables h w

end Renaming

end SchemaTransfer
