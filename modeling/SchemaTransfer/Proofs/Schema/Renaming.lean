import SchemaTransfer.Proofs.Bigtable.Retention
import SchemaTransfer.Proofs.Run.Effects
import SchemaTransfer.Proofs.Run.Success
import SchemaTransfer.Schema.Renaming

/-!
# Renaming and files

The new names in a mapping file have no surrogate pairs, because UTF-8 has none. So tables keep
their way through a file under their new names, and it makes no difference whether they get them
before or after it.
-/
namespace SchemaTransfer

/-! ## Joining and adding tables -/

theorem TableSchema.create_joined {name : Option Text} {families : Families} {splits : List Bytes}
    {t : TableSchema} (h : create name families splits = .ok t) :
    create name (families.mapValues Config.joined) splits = .ok t.joined := by
  cases name with
  | none => cases h
  | some name =>
    cases name with
    | nil => cases h
    | cons c rest =>
      have hne : c :: rest ≠ [] := List.cons_ne_nil c rest
      rw [create_named hne] at h ⊢
      split at h
      · cases h
      · next hs =>
        cases h
        rw [if_neg hs]
        rfl

theorem ClusterSchema.add_joined {c d : ClusterSchema} {t : TableSchema} (h : c.add t = .ok d) :
    c.joined.add t.joined = .ok d.joined := by
  obtain ⟨hn, htables⟩ := add_eq_ok h
  have hfresh : t.joined.name ∉ c.joined.names := by
    rw [names_joined]
    exact hn
  rw [add_of_notMem hfresh, joined, joined, htables, List.map_append]
  rfl

theorem TableSchema.Transferable.renamed {t u : TableSchema} {name : Text} (ht : t.Transferable)
    (hn : name.Unpaired) (h : t.renamed name = .ok u) : u.Transferable :=
  transferable_of_create hn ht.names.families ht.settings h

namespace Renaming

variable {r : Renaming} {w w' : World}

/-! ## Loading -/

/-- The new names of a mapping that was read from a file. -/
def NewNamesUnpaired (r : Renaming) : Prop := ∀ old name, r.get? old = some name → name.Unpaired

theorem entriesOfJson_unpaired {path : Path} {members : List (Text × Json)}
    {entries : List (Text × Text)} (hm : ∀ m ∈ members, m.2.Portable)
    (h : entriesOfJson path members = .ok entries) : ∀ e ∈ entries, e.2.Unpaired := by
  induction members generalizing entries with
  | nil =>
    cases h
    exact fun _ he => (nomatch he)
  | cons m rest ih =>
    obtain ⟨hv, hrest⟩ := List.forall_mem_cons.mp hm
    unfold entriesOfJson at h
    split at h
    · next heq => cases heq
    · next heq =>
      cases heq
      obtain ⟨more, hmore, rfl⟩ := map_eq_ok.mp h
      exact List.forall_mem_cons.mpr ⟨hv.unpaired.self, ih hrest hmore⟩
    · cases h

theorem newNames_of_ofText {path : Path} {t : Text} (ht : t.SurrogateFree)
    (h : ofText path t = .ok r) : r.NewNamesUnpaired := by
  intro old name hname
  unfold ofText at h
  split at h
  · cases h
  · cases h
  · next members hread =>
    have hv := Json.portable_of_read ht hread
    obtain ⟨entries, he, rfl⟩ := map_eq_ok.mp (mapError_eq_ok.mp h)
    exact entriesOfJson_unpaired (Json.portable_object.mp hv).2.2 he _
      (Dict.mem_of_mem_ofList (Dict.mem_of_get?_eq_some hname))
  · cases h

end Renaming

/-- What is read of a file came from UTF-8. -/
theorem Run.surrogateFree_of_readText {p : Path} {describe : FileFault → AccessError} {t : Text}
    {w w' : World} (h : Run.readText p describe w = (.ok t, w')) : t.SurrogateFree := by
  unfold readText at h
  split at h
  · cases h
  split at h
  · cases h
  split at h
  · cases h
  · next hdecode =>
    cases h
    exact surrogateFree_unifyFrom (Utf8.surrogateFree_of_decode hdecode) false

namespace Renaming

variable {r : Renaming} {w w' : World}

theorem newNames_of_load {path : Path} (h : load path w = (.ok r, w')) : r.NewNamesUnpaired := by
  obtain ⟨t, v, ht, h⟩ := Run.bind_eq_ok.mp h
  exact newNames_of_ofText (Run.surrogateFree_of_readText ht) (Run.ofExcept_eq_ok.mp h).1

/-! ## Renaming tables -/

theorem renameTable_eq_ok {t u : TableSchema} (h : r.renameTable t w = (.ok u, w')) :
    (r.get? t.name = none ∧ u = t) ∨ ∃ name, r.get? t.name = some name ∧ t.renamed name = .ok u := by
  rw [renameTable] at h
  cases hname : r.get? t.name with
  | none =>
    rw [hname] at h
    exact Or.inl ⟨rfl, (Run.pure_eq_ok.mp h).1.symm⟩
  | some name =>
    rw [hname] at h
    obtain ⟨_, v, -, h⟩ := Run.bind_eq_ok.mp h
    exact Or.inr ⟨name, rfl, mapError_eq_ok.mp (Run.ofExcept_eq_ok.mp h).1⟩

theorem renameTable_of_ok {t u : TableSchema} (w : World)
    (h : (r.get? t.name = none ∧ u = t) ∨
      ∃ name, r.get? t.name = some name ∧ t.renamed name = .ok u) :
    ∃ w', r.renameTable t w = (.ok u, w') := by
  rw [renameTable]
  rcases h with ⟨hname, rfl⟩ | ⟨name, hname, hrenamed⟩
  · rw [hname]
    exact ⟨w, rfl⟩
  · rw [hname]
    dsimp only
    rw [Run.bind_apply, hrenamed]
    exact ⟨_, rfl⟩

/-- A table that went through a file is renamed as it would have been before. -/
theorem renameTable_joined {t u : TableSchema} (h : r.renameTable t w = (.ok u, w')) (v : World) :
    ∃ v', r.renameTable t.joined v = (.ok u.joined, v') := by
  refine renameTable_of_ok v ?_
  rcases renameTable_eq_ok h with ⟨hname, rfl⟩ | ⟨name, hname, hrenamed⟩
  · exact Or.inl ⟨hname, rfl⟩
  · exact Or.inr ⟨name, hname, TableSchema.create_joined hrenamed⟩

theorem applyFrom_joined {done c : ClusterSchema} {tables : List TableSchema}
    (h : r.applyFrom done tables w = (.ok c, w')) (v : World) :
    ∃ v', r.applyFrom done.joined (tables.map TableSchema.joined) v = (.ok c.joined, v') := by
  induction tables generalizing done w v with
  | nil =>
    obtain ⟨rfl, -⟩ := Run.pure_eq_ok.mp h
    exact ⟨v, rfl⟩
  | cons t rest ih =>
    obtain ⟨u, _, hu, h⟩ := Run.bind_eq_ok.mp h
    obtain ⟨d, _, hd, h⟩ := Run.bind_eq_ok.mp h
    have hadd := mapError_eq_ok.mp (Run.ofExcept_eq_ok.mp hd).1
    obtain ⟨v₁, hu'⟩ := renameTable_joined hu v
    obtain ⟨v₂, hrest⟩ := ih h v₁
    refine ⟨v₂, Run.bind_eq_ok.mpr ⟨u.joined, v₁, hu', Run.bind_eq_ok.mpr
      ⟨d.joined, v₁, Run.ofExcept_eq_ok.mpr ⟨?_, rfl⟩, hrest⟩⟩⟩
    rw [ClusterSchema.add_joined hadd]
    rfl

theorem apply_joined {c d : ClusterSchema} (h : r.apply c w = (.ok d, w')) (v : World) :
    ∃ v', r.apply c.joined v = (.ok d.joined, v') :=
  applyFrom_joined h v

theorem applyFrom_transferable (hr : r.NewNamesUnpaired) {done c : ClusterSchema}
    {tables : List TableSchema} (hdone : done.Transferable) (ht : ∀ t ∈ tables, t.Transferable)
    (h : r.applyFrom done tables w = (.ok c, w')) : c.Transferable := by
  induction tables generalizing done w with
  | nil =>
    obtain ⟨rfl, -⟩ := Run.pure_eq_ok.mp h
    exact hdone
  | cons t rest ih =>
    obtain ⟨htt, hrest⟩ := List.forall_mem_cons.mp ht
    obtain ⟨u, _, hu, h⟩ := Run.bind_eq_ok.mp h
    obtain ⟨d, _, hd, h⟩ := Run.bind_eq_ok.mp h
    have hadd := mapError_eq_ok.mp (Run.ofExcept_eq_ok.mp hd).1
    have hut : u.Transferable := by
      rcases renameTable_eq_ok hu with ⟨-, rfl⟩ | ⟨name, hname, hrenamed⟩
      · exact htt
      · exact htt.renamed (hr _ _ hname) hrenamed
    exact ih (hdone.add hut hadd) hrest h

theorem apply_transferable (hr : r.NewNamesUnpaired) {c d : ClusterSchema} (hc : c.Transferable)
    (h : r.apply c w = (.ok d, w')) : d.Transferable :=
  applyFrom_transferable hr (List.forall_mem_nil _) hc h

/-! ## Renaming says what it does -/

theorem unseen_renameTable (r : Renaming) (t : TableSchema) : Run.Unseen (r.renameTable t) := by
  rw [renameTable]
  cases r.get? t.name with
  | none => exact Run.within_pure t
  | some name => exact Run.within_bind (Run.unseen_info _) fun _ => Run.within_ofExcept _

theorem unseen_applyFrom (r : Renaming) (done : ClusterSchema) (tables : List TableSchema) :
    Run.Unseen (r.applyFrom done tables) := by
  induction tables generalizing done with
  | nil => exact Run.within_pure done
  | cons t rest ih =>
    exact Run.within_bind (unseen_renameTable r t) fun _ =>
      Run.within_bind (Run.within_ofExcept _) fun done => ih done

theorem unseen_apply (r : Renaming) (c : ClusterSchema) : Run.Unseen (r.apply c) :=
  unseen_applyFrom r .empty c.tables

end Renaming

end SchemaTransfer
