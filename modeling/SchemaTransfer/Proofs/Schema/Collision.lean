import SchemaTransfer.Proofs.Schema.Names
import SchemaTransfer.Proofs.Schema.NewNames
import SchemaTransfer.Proofs.Schema.Workspace

/-!
# Tables that would share a name

All tables of a cluster get their new names at once, so it does not matter if a new name is the old
one of another table. Renaming is refused exactly if two tables would have the same name afterwards,
and what it is refused for is the first name that would come up again.
-/
namespace SchemaTransfer.Renaming

variable {r : Renaming} {c : ClusterSchema} {w w' : World}

/-! ## Mappings that were loaded -/

theorem entriesOfJson_ne_nil {path : Path} {members : List (Text × Json)}
    {entries : List (Text × Text)} (h : entriesOfJson path members = .ok entries) :
    ∀ e ∈ entries, e.2 ≠ [] := by
  induction members generalizing entries with
  | nil =>
    cases h
    exact List.forall_mem_nil _
  | cons m rest ih =>
    unfold entriesOfJson at h
    split at h
    · next heq => cases heq
    · next heq =>
      cases heq
      obtain ⟨more, hmore, rfl⟩ := map_eq_ok.mp h
      exact List.forall_mem_cons.mpr ⟨List.cons_ne_nil _ _, ih hmore⟩
    · cases h

/-- A mapping that was loaded gives no table an empty name. -/
theorem get?_ne_nil_of_load {path : Path} {old name : Text} (h : load path w = (.ok r, w'))
    (hname : r.get? old = some name) : name ≠ [] := by
  obtain ⟨t, v, -, h⟩ := Run.bind_eq_ok.mp h
  replace h := (Run.ofExcept_eq_ok.mp h).1
  unfold ofText at h
  split at h
  · cases h
  · cases h
  · obtain ⟨entries, hentries, rfl⟩ := map_eq_ok.mp (mapError_eq_ok.mp h)
    exact entriesOfJson_ne_nil hentries _ (Dict.mem_of_mem_ofList (Dict.mem_of_get?_eq_some hname))
  · cases h

theorem newName_ne_nil_of_load {path : Path} {old : Text} (h : load path w = (.ok r, w'))
    (hold : old ≠ []) : r.newName old ≠ [] := by
  rw [newName]
  cases hname : r.get? old with
  | none => exact hold
  | some name => exact get?_ne_nil_of_load h hname

/-! ## Table by table -/

/-- The tables behind those that are done get their new names one by one, up to the first name that
is there already. -/
theorem applyFrom_putTogether {done : ClusterSchema} {tables : List TableSchema}
    (hvalid : ∀ t ∈ tables, (t.mapName r.newName).Valid) (hdone : ProperNames done.names)
    (w : World) :
    PutTogether (done.names ++ tables.map fun t => r.newName t.name)
      (fun d => d.tables = done.tables ++ tables.map (TableSchema.mapName r.newName))
      (r.applyFrom done tables w).1 := by
  induction tables generalizing done w with
  | nil => exact .whole (by simpa using hdone) (List.append_nil _).symm
  | cons t rest ih =>
    obtain ⟨ht, hrest⟩ := List.forall_mem_cons.mp hvalid
    obtain ⟨v, hrenamed⟩ := renameTable_of_valid ht w
    rw [applyFrom, Run.bind_apply, hrenamed]
    dsimp only
    rw [Run.bind_apply]
    by_cases hmem : (t.mapName r.newName).name ∈ done.names
    · rw [ClusterSchema.add_of_mem hmem]
      exact .flawed (.repeated hdone ht.name_ne hmem)
    · have htail := ih hrest (hdone.append ht.name_ne hmem) v
      rw [ClusterSchema.names_append, List.append_assoc, List.append_assoc] at htail
      rw [ClusterSchema.add_of_notMem hmem]
      exact htail

theorem apply_putTogether (hvalid : ∀ t ∈ c.tables, (t.mapName r.newName).Valid) (w : World) :
    PutTogether (c.names.map r.newName)
      (fun d => d.tables = c.tables.map (TableSchema.mapName r.newName)) (r.apply c w).1 := by
  have hempty : ProperNames ClusterSchema.empty.names := properNames_nil
  rw [ClusterSchema.names, List.map_map]
  exact applyFrom_putTogether hvalid hempty w

/-- Only the new names of the tables that are there count. -/
theorem applyFrom_congr {other : Renaming} {done : ClusterSchema} {tables : List TableSchema}
    (h : ∀ t ∈ tables, other.get? t.name = r.get? t.name) :
    other.applyFrom done tables = r.applyFrom done tables := by
  induction tables generalizing done with
  | nil => rfl
  | cons t rest ih =>
    obtain ⟨ht, hrest⟩ := List.forall_mem_cons.mp h
    have htable : other.renameTable t = r.renameTable t := by
      rw [renameTable, renameTable, ht]
    rw [applyFrom, applyFrom, htable]
    simp only [ih hrest]

/-- Entries for tables that are not there have no effect. -/
theorem apply_congr {other : Renaming} (h : ∀ name ∈ c.names, other.get? name = r.get? name) :
    other.apply c = r.apply c :=
  applyFrom_congr fun t ht => h t.name (List.mem_map_of_mem ht)

/-! ## In a workspace -/

theorem make_rename {ws : Workspace} {source : Text} (id : Text)
    (hsource : ws.cluster source = .ok c) (w : World) : ∃ v, (ws.make (.rename id source r) w).1 =
      ((r.apply c v).1.map (Workspace.Product.cluster id)).mapError .failure := by
  refine ⟨(r.announce w).2, ?_⟩
  rw [Workspace.make, Run.bind_apply, hsource]
  show (((r.announce >>= fun _ => r.apply c).recover _ >>= _) w).1 = _
  have hmade : (r.announce >>= fun _ => r.apply c) w = r.apply c (r.announce w).2 := rfl
  rw [Run.bind_apply, Run.recover, hmade]
  rcases r.apply c (r.announce w).2 with ⟨e | d, v⟩ <;> rfl

/-- A renaming that fails leaves the workspace as it was, and one that does not fail keeps its
result. -/
theorem after_rename {ws : Workspace} {source : Text} (id : Text)
    (hsource : ws.cluster source = .ok c) (w : World) :
    ∃ v, (∃ e, (r.apply c v).1 = .error e ∧ (ws.after (.rename id source r) w).1 = .ok ws) ∨
      ∃ d, (r.apply c v).1 = .ok d ∧
        (ws.after (.rename id source r) w).1 = .ok (ws.keep (.cluster id d)) := by
  obtain ⟨v, hv⟩ := make_rename (r := r) id hsource w
  refine ⟨v, ?_⟩
  rw [Workspace.after, Workspace.apply, Run.bind_apply]
  rcases hmake : ws.make (.rename id source r) w with ⟨made, v'⟩
  rw [hmake] at hv
  cases happly : (r.apply c v).1 with
  | error e =>
    rw [happly] at hv
    cases hv
    exact Or.inl ⟨e, rfl, rfl⟩
  | ok d =>
    rw [happly] at hv
    cases hv
    exact Or.inr ⟨d, rfl, rfl⟩

/-! ## The renaming as a whole -/

/-- Whether tables of the cluster that have different names keep different names. -/
def KeepsApart (r : Renaming) (c : ClusterSchema) : Prop :=
  ∀ a ∈ c.names, ∀ b ∈ c.names, r.newName a = r.newName b → a = b

/-- The same table under its new name. -/
structure Renames (r : Renaming) (t u : TableSchema) : Prop where
  name_eq : u.name = r.newName t.name
  families_eq : u.families = t.families
  splits_eq : u.splits = t.splits

theorem forall₂_renames (r : Renaming) (tables : List TableSchema) :
    List.Forall₂ r.Renames tables (tables.map (TableSchema.mapName r.newName)) := by
  rw [List.forall₂_map_right_iff, List.forall₂_same]
  exact fun t _ => ⟨rfl, rfl, rfl⟩

theorem properNames_map_iff (hc : c.Sound) (hne : ∀ old, old ≠ [] → r.newName old ≠ []) :
    ProperNames (c.names.map r.newName) ↔ r.KeepsApart c := by
  rw [KeepsApart, ← List.nodup_map_iff_inj_on hc.names_nodup]
  exact ⟨ProperNames.nodup, fun h => ⟨List.forall_mem_map.mpr fun name hname =>
    hne name (hc.properNames.ne_nil name hname), h⟩⟩

/-- With a mapping that was loaded, the tables of a cluster get their new names at once, each in its
place and with all else as it was, exactly if different tables keep different names. If not, the
first new name that comes up again is what is wrong. What the mapping says of other tables has no
effect, and the cluster that is renamed stays what it is. -/
theorem renames_at_once {path : Path} (hload : load path w = (.ok r, w')) (hc : c.Sound)
    (v : World) :
    ((∃ d, (r.apply c v).1 = .ok d) ↔ r.KeepsApart c) ∧
    (∀ d, (r.apply c v).1 = .ok d → List.Forall₂ r.Renames c.tables d.tables) ∧
    (¬ r.KeepsApart c → ∃ name, FirstFlaw (c.names.map r.newName) (.duplicateTable name) ∧
      (r.apply c v).1 = .error (.definition (.duplicateTable name))) ∧
    (∀ other : Renaming, (∀ name ∈ c.names, other.get? name = r.get? name) →
      other.apply c = r.apply c) ∧
    (∀ (ws : Workspace) (id source : Text), ws.cluster source = .ok c →
      ∃ ws', (ws.after (.rename id source r) v).1 = .ok ws' ∧
        ∀ slot, ws'.holds slot ≠ ws.holds slot → slot = .cluster id ∧ r.KeepsApart c) := by
  have hne : ∀ old, old ≠ [] → r.newName old ≠ [] := fun _ => newName_ne_nil_of_load hload
  have hproper := properNames_map_iff hc hne
  have hvalid : ∀ t ∈ c.tables, (t.mapName r.newName).Valid := fun t ht =>
    have htv := hc.tables_valid t ht
    ⟨hne _ htv.name_ne, htv.split_ne⟩
  have hok : ∀ v, (∃ d, (r.apply c v).1 = .ok d) ↔ r.KeepsApart c := fun v =>
    (apply_putTogether hvalid v).exists_ok_iff.trans hproper
  refine ⟨hok v, fun d hd => ?_, fun hapart => ?_, fun other => apply_congr, ?_⟩
  · rw [apply_eq_ok (Prod.ext hd rfl)]
    exact forall₂_renames r c.tables
  · obtain ⟨e, hflaw, he⟩ := (apply_putTogether hvalid v).of_not_proper (hapart ∘ hproper.mp)
    obtain ⟨name, rfl⟩ := hflaw.exists_repeated (List.forall_mem_map.mpr fun name hname =>
      hne name (hc.properNames.ne_nil name hname))
    exact ⟨name, hflaw, he⟩
  · intro ws id source hsource
    obtain ⟨u, ⟨e, -, hafter⟩ | ⟨d, hd, hafter⟩⟩ := after_rename (r := r) id hsource v
    · exact ⟨ws, hafter, fun slot hslot => absurd rfl hslot⟩
    · refine ⟨_, hafter, fun slot hslot => ⟨?_, (hok u).mp ⟨d, hd⟩⟩⟩
      by_contra hother
      exact hslot ((Workspace.holds_keep ws _ slot).trans (if_neg hother))

/-- Two names that are swapped, one that moves on, and one that no table has. -/
def exchange : Renaming := ⟨[("x", "y"), ("y", "x"), ("z", "u"), ("gone", "x")], by decide⟩

/-- A mapping file `m` that says so. -/
def exchangeWorld : World where
  files := (FileSystem.empty []).place [[0x6D]] (.file ((Utf8.encode?
    "\x7b\"x\": \"y\", \"y\": \"x\", \"z\": \"u\", \"gone\": \"x\"\x7d").getD []))
  tables := []
  events := []

def threeTables : ClusterSchema :=
  ⟨[⟨"x", .ofList [("f", ∅)], [[0x61]]⟩, ⟨"y", ∅, []⟩, ⟨"z", ∅, [[0x62], [0x63]]⟩]⟩

theorem threeTables_sound : threeTables.Sound := by
  refine ⟨?_, List.forall_mem_cons.mpr ⟨⟨by decide, by decide⟩, List.forall_mem_cons.mpr
    ⟨⟨by decide, by decide⟩, List.forall_mem_singleton.mpr ⟨by decide, by decide⟩⟩⟩⟩
  rw [ClusterSchema.Valid]
  decide

theorem load_exchange : ∃ w, load (.ofText "m") exchangeWorld = (.ok exchange, w) := by
  obtain ⟨r, hr, hentries⟩ := eq_ok_of_toOption (f := Dict.entries) (by decide +kernel :
    (load (.ofText "m") exchangeWorld).1.toOption.map Dict.entries = some exchange.entries)
  cases Dict.ext hentries
  exact ⟨_, Prod.ext hr rfl⟩

theorem renames_at_once_exchange : threeTables.Sound ∧
    ∃ w d, load (.ofText "m") exchangeWorld = (.ok exchange, w) ∧
      (exchange.apply threeTables w).1 = .ok d ∧ d.names = ["y", "x", "u"] ∧
      List.Forall₂ exchange.Renames threeTables.tables d.tables := by
  obtain ⟨w, hload⟩ := load_exchange
  obtain ⟨hiff, hrenames, -⟩ := renames_at_once hload threeTables_sound w
  have hapart : exchange.KeepsApart threeTables := by
    rw [KeepsApart]
    decide
  obtain ⟨d, hd⟩ := hiff.mpr hapart
  refine ⟨threeTables_sound, w, d, hload, hd, ?_, hrenames d hd⟩
  rw [apply_eq_ok (Prod.ext hd rfl)]
  rfl

end SchemaTransfer.Renaming
