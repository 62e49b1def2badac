import Mathlib.Data.List.Nodup
import SchemaTransfer.Dict

/-!
# Dictionaries from lists of entries

A new key goes to the end, so entries with distinct keys make up a dictionary as they stand. The
value of a key is the one that stands beside it.
-/
namespace SchemaTransfer

namespace Entries

variable {κ α β : Type} [DecidableEq κ]

omit [DecidableEq κ] in
theorem keys_append (l m : List (κ × α)) : keys (l ++ m) = keys l ++ keys m :=
  List.map_append

omit [DecidableEq κ] in
theorem mem_keys {k : κ} {l : List (κ × α)} : k ∈ keys l ↔ ∃ v, (k, v) ∈ l := by
  simp [keys]

theorem put_of_notMem {k : κ} {v : α} {l : List (κ × α)} (h : k ∉ keys l) :
    put k v l = l ++ [(k, v)] := by
  induction l with
  | nil => rfl
  | cons e rest ih =>
    rw [keys, List.map_cons, List.mem_cons, not_or] at h
    rw [put, if_neg fun he => h.1 he.symm, ih h.2, List.cons_append]

theorem mem_put {k : κ} {v : α} {e : κ × α} {l : List (κ × α)} (h : e ∈ put k v l) :
    e = (k, v) ∨ e ∈ l := by
  induction l with
  | nil => exact Or.inl (List.mem_singleton.mp h)
  | cons d rest ih =>
    rw [put] at h
    split at h
    · rcases List.mem_cons.mp h with rfl | hr
      · exact Or.inl rfl
      · exact Or.inr (List.mem_cons_of_mem _ hr)
    · rcases List.mem_cons.mp h with rfl | hr
      · exact Or.inr List.mem_cons_self
      · exact (ih hr).imp_right (List.mem_cons_of_mem _)

theorem get?_eq_none_iff {k : κ} {l : List (κ × α)} : get? k l = none ↔ k ∉ keys l := by
  induction l with
  | nil => simp [get?, keys]
  | cons e rest ih =>
    by_cases h : e.1 = k
    · simp [get?, keys, h]
    · have h' : ¬ k = e.1 := fun hk => h hk.symm
      rw [keys] at ih
      simp [get?, keys, h, h', ih]

theorem mem_of_get?_eq_some {k : κ} {v : α} {l : List (κ × α)} (h : get? k l = some v) :
    (k, v) ∈ l := by
  induction l with
  | nil => cases h
  | cons e rest ih =>
    rw [get?] at h
    split at h
    · next he =>
      cases h
      exact List.mem_cons.mpr (Or.inl (by rw [← he]))
    · exact List.mem_cons_of_mem _ (ih h)

theorem get?_of_mem {k : κ} {v : α} {l : List (κ × α)} (hl : (keys l).Nodup) (h : (k, v) ∈ l) :
    get? k l = some v := by
  induction l with
  | nil => cases h
  | cons e rest ih =>
    rw [keys, List.map_cons, List.nodup_cons] at hl
    rcases List.mem_cons.mp h with rfl | hr
    · rw [get?, if_pos rfl]
    · have hne : e.1 ≠ k := fun he => hl.1 (he ▸ mem_keys.mpr ⟨v, hr⟩)
      rw [get?, if_neg hne, ih hl.2 hr]

/-- A key is looked up in the same way where keys are changed without being mixed up with it. -/
theorem get?_map_keys (f : κ → κ) (g : α → β) {k : κ} {l : List (κ × α)}
    (h : ∀ e ∈ l, f e.1 = k ↔ e.1 = k) :
    get? k (l.map fun e => (f e.1, g e.2)) = (get? k l).map g := by
  induction l with
  | nil => rfl
  | cons e rest ih =>
    obtain ⟨he, hrest⟩ := List.forall_mem_cons.mp h
    rw [List.map_cons, get?, get?, ih hrest]
    by_cases hk : e.1 = k
    · rw [if_pos hk, if_pos (he.mpr hk), Option.map_some]
    · rw [if_neg hk, if_neg fun hf => hk (he.mp hf)]

theorem get?_reverse {k : κ} {l : List (κ × α)} (hl : (keys l).Nodup) :
    get? k l.reverse = get? k l := by
  have hkeys : keys l.reverse = (keys l).reverse := List.map_reverse
  cases hg : get? k l with
  | none =>
    rw [get?_eq_none_iff] at hg ⊢
    rwa [hkeys, List.mem_reverse]
  | some v =>
    refine get?_of_mem ?_ (List.mem_reverse.mpr (mem_of_get?_eq_some hg))
    rwa [hkeys, List.nodup_reverse]

/-- With distinct keys, entries may be moved about. -/
theorem get?_perm {k : κ} {l m : List (κ × α)} (h : l.Perm m) (hl : (keys l).Nodup) :
    get? k l = get? k m := by
  have hkeys : (keys l).Perm (keys m) := h.map Prod.fst
  cases hg : get? k m with
  | none =>
    rw [get?_eq_none_iff] at hg ⊢
    rwa [hkeys.mem_iff]
  | some v => exact get?_of_mem hl (h.mem_iff.mpr (mem_of_get?_eq_some hg))

theorem get?_append (k : κ) (l m : List (κ × α)) :
    get? k (l ++ m) = (get? k l).or (get? k m) := by
  induction l with
  | nil => rfl
  | cons e rest ih =>
    rw [List.cons_append, get?, get?, ih]
    split <;> rfl

theorem map_put (f : α → β) (k : κ) (v : α) (l : List (κ × α)) :
    (put k v l).map (fun e => (e.1, f e.2)) = put k (f v) (l.map fun e => (e.1, f e.2)) := by
  induction l with
  | nil => rfl
  | cons e rest ih =>
    rw [put, List.map_cons, put]
    split
    · rfl
    · rw [List.map_cons, ih]

end Entries

namespace Dict

variable {κ α β : Type} [DecidableEq κ]

theorem entries_foldl_insert (d : Dict κ α) (l : List (κ × α)) :
    (l.foldl (fun d e => d.insert e.1 e.2) d).entries =
      l.foldl (fun entries e => Entries.put e.1 e.2 entries) d.entries := by
  induction l generalizing d with
  | nil => rfl
  | cons e rest ih => exact ih (d.insert e.1 e.2)

theorem entries_ofList (l : List (κ × α)) :
    (ofList l).entries = l.foldl (fun entries e => Entries.put e.1 e.2 entries) [] :=
  entries_foldl_insert empty l

theorem foldl_put_of_nodup {done l : List (κ × α)} (h : (Entries.keys (done ++ l)).Nodup) :
    l.foldl (fun entries e => Entries.put e.1 e.2 entries) done = done ++ l := by
  induction l generalizing done with
  | nil => rw [List.foldl_nil, List.append_nil]
  | cons e rest ih =>
    have he : e.1 ∉ Entries.keys done := by
      rw [Entries.keys_append, List.nodup_append] at h
      exact fun hd => h.2.2 e.1 hd e.1 List.mem_cons_self rfl
    rw [List.append_cons] at h ⊢
    rw [List.foldl_cons, Entries.put_of_notMem he, ih h]

theorem get?_foldl_put (k : κ) (done l : List (κ × α)) :
    Entries.get? k (l.foldl (fun entries e => Entries.put e.1 e.2 entries) done) =
      (Entries.get? k l.reverse).or (Entries.get? k done) := by
  induction l generalizing done with
  | nil => rfl
  | cons e rest ih =>
    rw [List.foldl_cons, ih, Entries.get?_put, List.reverse_cons, Entries.get?_append, Entries.get?]
    by_cases he : e.1 = k
    · rw [if_pos he, if_pos he, Option.or_assoc, Option.some_or]
    · rw [if_neg he, if_neg he, Entries.get?, Option.or_none]

/-- Of several values for one key the last one counts. -/
theorem get?_ofList (k : κ) (l : List (κ × α)) : (ofList l).get? k = Entries.get? k l.reverse := by
  rw [get?, entries_ofList, get?_foldl_put]
  exact Option.or_none

theorem mem_foldl_put {e : κ × α} {done l : List (κ × α)}
    (h : e ∈ l.foldl (fun entries e => Entries.put e.1 e.2 entries) done) : e ∈ done ∨ e ∈ l := by
  induction l generalizing done with
  | nil => exact Or.inl h
  | cons d rest ih =>
    rcases ih h with hput | hrest
    · rcases Entries.mem_put hput with rfl | hdone
      · exact Or.inr List.mem_cons_self
      · exact Or.inl hdone
    · exact Or.inr (List.mem_cons_of_mem _ hrest)

theorem mem_of_mem_ofList {e : κ × α} {l : List (κ × α)} (h : e ∈ (ofList l).entries) : e ∈ l := by
  rw [entries_ofList] at h
  exact (mem_foldl_put h).resolve_left List.not_mem_nil

theorem entries_ofList_of_nodup {l : List (κ × α)} (h : (Entries.keys l).Nodup) :
    (ofList l).entries = l := by
  rw [entries_ofList, foldl_put_of_nodup (show (Entries.keys ([] ++ l)).Nodup from h),
    List.nil_append]

theorem ofList_entries (d : Dict κ α) : ofList d.entries = d :=
  ext (entries_ofList_of_nodup d.nodup)

theorem foldl_put_map (f : α → β) (done l : List (κ × α)) :
    (l.map fun e => (e.1, f e.2)).foldl (fun entries e => Entries.put e.1 e.2 entries)
        (done.map fun e => (e.1, f e.2)) =
      (l.foldl (fun entries e => Entries.put e.1 e.2 entries) done).map fun e => (e.1, f e.2) := by
  induction l generalizing done with
  | nil => rfl
  | cons e rest ih =>
    have hput := Entries.map_put f e.1 e.2 done
    rw [List.map_cons, List.foldl_cons, List.foldl_cons, ← hput, ih]

/-- Values may be changed before or after the entries are put together. -/
theorem ofList_map (f : α → β) (l : List (κ × α)) :
    ofList (l.map fun e => (e.1, f e.2)) = (ofList l).mapValues f := by
  have hentries : ((ofList l).mapValues f).entries =
      (ofList l).entries.map fun e => (e.1, f e.2) := rfl
  apply ext
  rw [hentries, entries_ofList, entries_ofList]
  exact foldl_put_map f [] l

theorem mem_of_get?_eq_some {d : Dict κ α} {k : κ} {v : α} (h : d.get? k = some v) :
    (k, v) ∈ d.entries :=
  Entries.mem_of_get?_eq_some h

end Dict

end SchemaTransfer
