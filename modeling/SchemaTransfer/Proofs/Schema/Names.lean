import SchemaTransfer.Proofs.Schema.Decoding

/-!
# Names that make a cluster

The tables of a cluster have names, and no two of them have the same. Where tables are put together
one by one, the first name that is empty or stands among those before it decides what is wrong.
-/
namespace SchemaTransfer

/-- Names that the tables of a cluster may have. -/
structure ProperNames (names : List Text) : Prop where
  ne_nil : ∀ name ∈ names, name ≠ []
  nodup : names.Nodup

/-- What is wrong with the first of some names that is empty or stands among those before it. -/
inductive FirstFlaw : List Text → DefinitionError → Prop
  | unnamed {before after : List Text} (hbefore : ProperNames before) :
    FirstFlaw (before ++ [] :: after) .unnamedTable
  | repeated {before after : List Text} {name : Text} (hbefore : ProperNames before)
    (hne : name ≠ []) (hmem : name ∈ before) :
    FirstFlaw (before ++ name :: after) (.duplicateTable name)

/-- What comes of putting tables with the given names together: a cluster, or the failure that the
first flaw of the names is. -/
inductive PutTogether (names : List Text) (P : ClusterSchema → Prop) :
    Except Failure ClusterSchema → Prop
  | whole {c : ClusterSchema} (hnames : ProperNames names) (hc : P c) : PutTogether names P (.ok c)
  | flawed {e : DefinitionError} (hflaw : FirstFlaw names e) :
    PutTogether names P (.error (.definition e))

variable {names : List Text} {name : Text} {e : DefinitionError} {P Q : ClusterSchema → Prop}
  {r : Except Failure ClusterSchema}

theorem properNames_nil : ProperNames [] := ⟨List.forall_mem_nil _, List.nodup_nil⟩

/-- A table with a new name may be added. -/
theorem ProperNames.append {c : ClusterSchema} {t : TableSchema} (h : ProperNames c.names)
    (hne : t.name ≠ []) (hnew : t.name ∉ c.names) :
    ProperNames (ClusterSchema.names ⟨c.tables ++ [t]⟩) := by
  rw [ClusterSchema.names_append]
  refine ⟨List.forall_mem_append.mpr ⟨h.ne_nil, List.forall_mem_singleton.mpr hne⟩, ?_⟩
  refine List.nodup_append.mpr ⟨h.nodup, List.nodup_singleton _, fun a ha b hb heq => hnew ?_⟩
  rw [← List.mem_singleton.mp hb, ← heq]
  exact ha

theorem ClusterSchema.Sound.properNames {c : ClusterSchema} (h : c.Sound) : ProperNames c.names :=
  ⟨List.forall_mem_map.mpr fun t ht => (h.tables_valid t ht).name_ne, h.names_nodup⟩

/-- Tables are put together as they are if no name comes twice. -/
theorem ClusterSchema.addAll_of_nodup {c : ClusterSchema} {tables : List TableSchema}
    (h : (c.names ++ tables.map TableSchema.name).Nodup) :
    c.addAll tables = .ok ⟨c.tables ++ tables⟩ := by
  induction tables generalizing c with
  | nil => simp [addAll]
  | cons t rest ih =>
    have hnew : t.name ∉ c.names := by
      intro hmem
      exact (List.nodup_append.mp h).2.2 _ hmem _ List.mem_cons_self rfl
    rw [addAll, add_of_notMem hnew]
    dsimp only
    rw [ih]
    · rw [List.append_assoc]
      rfl
    · rw [names_append, List.append_assoc]
      exact h

/-- Some of the tables of a cluster make a cluster again. -/
theorem ClusterSchema.ofTables_filter {c : ClusterSchema} (h : c.Valid)
    (p : TableSchema → Bool) : ofTables (c.tables.filter p) = .ok ⟨c.tables.filter p⟩ :=
  addAll_of_nodup (h.sublist (List.filter_sublist.map _))

/-- Proper names have no flaw. -/
theorem FirstFlaw.not_proper (h : FirstFlaw names e) : ¬ ProperNames names := by
  intro hproper
  cases h with
  | unnamed hbefore => exact hproper.ne_nil [] (by simp) rfl
  | repeated hbefore hne hmem =>
    exact (List.nodup_append.mp hproper.nodup).2.2 _ hmem _ List.mem_cons_self rfl

/-- Where no name is empty, the first flaw is a name that stands among those before it. -/
theorem FirstFlaw.exists_repeated (h : FirstFlaw names e) (hne : ∀ name ∈ names, name ≠ []) :
    ∃ name, e = .duplicateTable name := by
  cases h with
  | unnamed hbefore => exact absurd rfl (hne [] (by simp))
  | @repeated before after name hbefore hne' hmem => exact ⟨name, rfl⟩

namespace PutTogether

theorem mono (h : PutTogether names P r) (hPQ : ∀ c, P c → Q c) : PutTogether names Q r := by
  cases h with
  | whole hnames hc => exact .whole hnames (hPQ _ hc)
  | flawed hflaw => exact .flawed hflaw

theorem exists_ok_iff (h : PutTogether names P r) : (∃ c, r = .ok c) ↔ ProperNames names := by
  cases h with
  | @whole c hnames hc => exact iff_of_true ⟨c, rfl⟩ hnames
  | flawed hflaw => exact iff_of_false nofun hflaw.not_proper

theorem of_proper (h : PutTogether names P r) (hnames : ProperNames names) :
    ∃ c, r = .ok c ∧ P c := by
  cases h with
  | @whole c _ hc => exact ⟨c, rfl, hc⟩
  | flawed hflaw => exact absurd hnames hflaw.not_proper

theorem of_not_proper (h : PutTogether names P r) (hnames : ¬ ProperNames names) :
    ∃ e, FirstFlaw names e ∧ r = .error (.definition e) := by
  cases h with
  | whole hproper _ => exact absurd hproper hnames
  | @flawed e hflaw => exact ⟨e, hflaw, rfl⟩

end PutTogether

end SchemaTransfer
