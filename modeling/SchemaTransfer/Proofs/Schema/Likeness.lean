import Mathlib.Data.List.Nodup
import Mathlib.Data.List.Perm.Subperm
import SchemaTransfer.Proofs.Dict
import SchemaTransfer.Proofs.Except
import SchemaTransfer.Schema.Cluster

/-!
# Definitions that count as equal

Equal definitions have equal tables in the same order. The entries of two equal dictionaries can be
paired, key by key, once those of one of them are put into the order of the other. Values that are
not made up of others are equal if they are the same or stand for the same whole number.
-/
namespace SchemaTransfer

/-! ## Dictionaries -/

namespace Dict

variable {α : Type} {same : α → α → Bool} {d e : Dict Text α}

/-- The entries have the same key and values that are alike. -/
def LikeEntries (same : α → α → Bool) (x y : Text × α) : Prop := x.1 = y.1 ∧ same x.2 y.2 = true

/-- Dictionaries are alike if their entries are, one by one, in some order. -/
theorem alike_iff : d.alike same e = true ↔
    ∃ entries, entries.Perm e.entries ∧ List.Forall₂ (LikeEntries same) d.entries entries := by
  simp only [alike, Bool.and_eq_true, decide_eq_true_eq, List.all_eq_true]
  constructor
  · intro h
    obtain ⟨hlength, hall⟩ := h
    have hsome : ∀ x ∈ d.entries, ∃ y ∈ e.entries, LikeEntries same x y := by
      intro x hx
      have hfound := hall x hx
      split at hfound
      · next v hg => exact ⟨(x.1, v), mem_of_get?_eq_some hg, rfl, hfound⟩
      · cases hfound
    obtain ⟨entries, hmem, hlike⟩ := exists_forall₂_and.mpr hsome
    have hkeys : d.keys = Entries.keys entries :=
      map_eq_map_of_forall₂ (hlike.imp fun _ _ hxy => hxy.1)
    have hdistinct : (Entries.keys entries).Nodup := by
      rw [← hkeys]
      exact d.nodup
    have hsubperm := List.subperm_of_subset (List.Nodup.of_map Prod.fst hdistinct) hmem
    have hlengths : e.entries.length = entries.length := hlength.symm.trans hlike.length_eq
    exact ⟨entries, hsubperm.perm_of_length_le (Nat.le_of_eq hlengths), hlike⟩
  · intro h
    obtain ⟨entries, hperm, hlike⟩ := h
    refine ⟨hlike.length_eq.trans hperm.length_eq, fun x hx => ?_⟩
    obtain ⟨⟨key, v⟩, hmem, hkey, hv⟩ := exists_forall₂_and.mp
      ⟨entries, fun y hy => hperm.mem_iff.mp hy, hlike⟩ x hx
    have hg : e.get? x.1 = some v := by
      rw [hkey]
      exact Entries.get?_of_mem e.nodup hmem
    rw [hg]
    exact hv

theorem get?_rel {k : Text} {l m : List (Text × α)} (h : List.Forall₂ (LikeEntries same) l m) :
    Option.Rel (fun v w => same v w = true) (Entries.get? k l) (Entries.get? k m) := by
  induction h with
  | nil => exact .none
  | @cons x y l m hxy _ ih =>
    rw [Entries.get?, Entries.get?, hxy.1]
    by_cases hk : y.1 = k
    · rw [if_pos hk, if_pos hk]
      exact .some hxy.2
    · rw [if_neg hk, if_neg hk]
      exact ih

/-- In dictionaries that are alike the same keys are found, with values that are alike. -/
theorem get?_rel_of_alike (h : d.alike same e = true) (k : Text) :
    Option.Rel (fun v w => same v w = true) (d.get? k) (e.get? k) := by
  obtain ⟨entries, hperm, hlike⟩ := alike_iff.mp h
  have hget : e.get? k = Entries.get? k entries :=
    Entries.get?_perm hperm.symm e.nodup
  rw [hget]
  exact get?_rel hlike

end Dict

/-! ## Values -/

theorem Double.truncate?_of_whole? {d : Double} {i : Int} (h : d.whole? = some i) :
    d.truncate? = some i := by
  cases d with
  | nan => cases h
  | inf negative => cases h
  | finite negative rank =>
    rw [whole?] at h
    split at h
    · exact h
    · cases h

/-- Both zeros are the whole number 0. -/
theorem Double.whole?_of_isZero {d : Double} (h : d.isZero = true) : d.whole? = some 0 := by
  cases d with
  | nan => cases h
  | inf negative => cases h
  | finite negative rank =>
    rw [isZero, decide_eq_true_eq] at h
    have hunits : units rank.val = 0 := by
      rw [h]
      decide +kernel
    rw [whole?, hunits, Nat.zero_mod, if_pos rfl, truncate?, hunits, Nat.zero_div]
    cases negative <;> rfl

/-- Values that are alike are the same, stand for the same whole number, or are both made up of
others in the same manner. -/
theorem Json.alike_cases {v w : Json} (h : v.alike w = true) : v = w ∨
    (∃ i, v.wholeValue? = some i ∧ w.wholeValue? = some i) ∨
    (∃ items items', v = .array items ∧ w = .array items') ∨
    ∃ members members', v = .object members ∧ w = .object members' := by
  unfold alike at h
  split at h
  · split at h
    · exact Or.inr (Or.inr (Or.inl ⟨_, _, rfl, rfl⟩))
    · cases h
  · split at h
    · exact Or.inr (Or.inr (Or.inr ⟨_, _, rfl, rfl⟩))
    · cases h
  · unfold alikeScalars at h
    split at h
    · exact Or.inl rfl
    · exact Or.inl (congrArg Json.string (of_decide_eq_true h))
    · next a b =>
      rw [Double.same, Bool.or_eq_true, Bool.and_eq_true, decide_eq_true_eq] at h
      rcases h with heq | ⟨ha, hb⟩
      · exact Or.inl (congrArg Json.double heq)
      · exact Or.inr (Or.inl ⟨0, Double.whole?_of_isZero ha, Double.whole?_of_isZero hb⟩)
    · split at h
      · next i j hi hj =>
        rw [of_decide_eq_true h] at hi
        exact Or.inr (Or.inl ⟨j, hi, hj⟩)
      · cases h

/-! ## Clusters -/

theorem ClusterSchema.alike_iff {a b : ClusterSchema} : a.alike b = true ↔
    List.Forall₂ (fun t u => t.alike u = true) a.tables b.tables := by
  simp only [alike, Bool.and_eq_true, decide_eq_true_eq, List.all_eq_true, List.forall₂_iff_zip,
    Prod.forall]

end SchemaTransfer
