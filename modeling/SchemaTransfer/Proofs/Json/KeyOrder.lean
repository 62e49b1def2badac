import Mathlib.Data.List.Sort
import SchemaTransfer.Proofs.Json.RoundTrip

/-!
# The order of keys

A value may differ from another in nothing but the order that its objects, at any depth, have their
keys in. Putting the keys in order makes no other difference, so what is shown of a portable value,
on one line and with its keys in order, is read as that value up to this order. Nor does it leave any
difference in the order, so the same is shown of two portable values just if they differ in nothing
else.
-/
namespace SchemaTransfer

theorem CodePoint.val_injective : Function.Injective CodePoint.val := fun _ _ h => ext h

/-- The order of texts is the lexicographic one. -/
theorem Text.precedes_iff {s t : Text} :
    precedes s t = true ↔ s.map CodePoint.val < t.map CodePoint.val := by
  induction s generalizing t with
  | nil => cases t <;> simp [precedes]
  | cons a s ih =>
    cases t with
    | nil => simp [precedes]
    | cons b t => simp [precedes, List.cons_lt_cons_iff, ih]

namespace Json

/-- The second value is the first one with members moved about in their objects, at any depth. -/
inductive Reordered : Json → Json → Prop
  | refl (v : Json) : Reordered v v
  | trans {u v w : Json} (huv : Reordered u v) (hvw : Reordered v w) : Reordered u w
  | item {before after : List Json} {v w : Json} (h : Reordered v w) :
    Reordered (.array (before ++ v :: after)) (.array (before ++ w :: after))
  | member {before after : List (Text × Json)} {key : Text} {v w : Json} (h : Reordered v w) :
    Reordered (.object (before ++ (key, v) :: after)) (.object (before ++ (key, w) :: after))
  | moved {members members' : List (Text × Json)} (h : members.Perm members') :
    Reordered (.object members) (.object members')

theorem Reordered.symm {v w : Json} (h : Reordered v w) : Reordered w v := by
  induction h with
  | refl v => exact .refl v
  | trans _ _ hvu hwv => exact hwv.trans hvu
  | item _ ih => exact .item ih
  | member _ ih => exact .member ih
  | moved h => exact .moved h.symm

/-! ## Sorting -/

theorem insertSorted_perm (m : Text × Json) (members : List (Text × Json)) :
    (insertSorted m members).Perm (m :: members) := by
  induction members with
  | nil => simp [insertSorted]
  | cons n rest ih =>
    by_cases h : Text.precedes m.1 n.1
    · simp [insertSorted, h]
    · simp only [insertSorted, if_neg h]
      exact (ih.cons n).trans (.swap m n rest)

mutual

theorem reordered_sortKeys : ∀ v : Json, Reordered v v.sortKeys
  | .null | .bool _ | .int _ | .double _ | .string _ => .refl _
  | .array items => reordered_sortItems [] items
  | .object members => reordered_sortMembers [] members

/-- The elements that were worked through stand in front of the others. -/
theorem reordered_sortItems (done : List Json) : ∀ items : List Json,
    Reordered (.array (done ++ items)) (.array (done ++ sortItems items))
  | [] => .refl _
  | v :: rest => by
    have hrest := reordered_sortItems (done ++ [v.sortKeys]) rest
    rw [List.append_assoc, List.append_assoc] at hrest
    exact (Reordered.item (reordered_sortKeys v)).trans hrest

theorem reordered_sortMembers (done : List (Text × Json)) : ∀ members : List (Text × Json),
    Reordered (.object (done ++ members)) (.object (done ++ sortMembers members))
  | [] => .refl _
  | (key, v) :: rest => by
    have hrest := reordered_sortMembers (done ++ [(key, v.sortKeys)]) rest
    rw [List.append_assoc, List.append_assoc] at hrest
    have hmoved := (insertSorted_perm (key, v.sortKeys) (sortMembers rest)).symm.append_left done
    exact (Reordered.member (reordered_sortKeys v)).trans (hrest.trans (.moved hmoved))

end

/-! ## What is kept

A relation that is generated by moves says little of what it leaves alone: kinds of values, scalars,
the order of elements, and which keys there are.
-/

/-- Members may be moved in a portable value. -/
theorem Reordered.portable {v w : Json} (h : Reordered v w) : v.Portable → w.Portable := by
  induction h with
  | refl v => exact id
  | trans _ _ huv hvw => exact fun hu => hvw (huv hu)
  | item _ ih =>
    simp only [portable_array, List.forall_mem_append, List.forall_mem_cons]
    exact fun ⟨hbefore, hv, hafter⟩ => ⟨hbefore, ih hv, hafter⟩
  | @member before after key v w _ ih =>
    have hkeys : Entries.keys (before ++ (key, w) :: after) =
        Entries.keys (before ++ (key, v) :: after) := by
      simp [Entries.keys]
    simp only [portable_object, hkeys, List.forall_mem_append, List.forall_mem_cons]
    exact fun ⟨hdistinct, hunpaired, hbefore, hv, hafter⟩ =>
      ⟨hdistinct, hunpaired, hbefore, ih hv, hafter⟩
  | @moved members members' hperm =>
    have hkeys : (Entries.keys members).Perm (Entries.keys members') := hperm.map Prod.fst
    simp only [portable_object, hkeys.nodup_iff, hkeys.mem_iff, hperm.mem_iff]
    exact id

/-- What two values have in common that differ in the order of keys at most. -/
inductive Kept : Json → Json → Prop
  | same (v : Json) : Kept v v
  | array {items items' : List Json} (h : List.Forall₂ Reordered items items') :
    Kept (.array items) (.array items')
  | object {members members' : List (Text × Json)}
    (hkeys : (Entries.keys members).Perm (Entries.keys members'))
    (hvalues : ∀ key v w, (key, v) ∈ members → (key, w) ∈ members' → Reordered v w) :
    Kept (.object members) (.object members')

theorem forall₂_reordered_refl (items : List Json) : List.Forall₂ Reordered items items :=
  List.forall₂_same.mpr fun v _ => .refl v

theorem forall₂_reordered_trans {items₁ items₂ items₃ : List Json}
    (h : List.Forall₂ Reordered items₁ items₂) (h' : List.Forall₂ Reordered items₂ items₃) :
    List.Forall₂ Reordered items₁ items₃ := by
  induction h generalizing items₃ with
  | nil => exact h'
  | cons huv _ ih =>
    cases h' with
    | cons hvw hrest => exact .cons (huv.trans hvw) (ih hrest)

theorem Kept.trans {u v w : Json} (huv : Kept u v) (hvw : Kept v w) : Kept u w := by
  cases huv with
  | same => exact hvw
  | array h =>
    cases hvw with
    | same => exact .array h
    | array h' => exact .array (forall₂_reordered_trans h h')
  | object hkeys hvalues =>
    cases hvw with
    | same => exact .object hkeys hvalues
    | object hkeys' hvalues' =>
      refine .object (hkeys.trans hkeys') fun key v w hv hw => ?_
      obtain ⟨u, hu⟩ := Entries.mem_keys.mp (hkeys.mem_iff.mp (Entries.mem_keys.mpr ⟨v, hv⟩))
      exact (hvalues key v u hv hu).trans (hvalues' key u w hu hw)

/-- A key that comes once has one value. -/
theorem eq_of_mem {members : List (Text × Json)} (h : (Entries.keys members).Nodup) {key : Text}
    {v w : Json} (hv : (key, v) ∈ members) (hw : (key, w) ∈ members) : v = w :=
  congrArg Prod.snd (List.inj_on_of_nodup_map h hv hw rfl)

theorem Reordered.kept {v w : Json} (h : Reordered v w) : v.Portable → Kept v w := by
  induction h with
  | refl v => exact fun _ => .same v
  | trans huv _ ihu ihv => exact fun hu => (ihu hu).trans (ihv (huv.portable hu))
  | @item before after v w h _ =>
    exact fun _ => .array (List.rel_append (forall₂_reordered_refl before)
      (.cons h (forall₂_reordered_refl after)))
  | @member before after key v w h _ =>
    intro hv
    have hdistinct := (portable_object.mp hv).1
    refine .object (by simp [Entries.keys]) fun key' v' w' hv' hw' => ?_
    by_cases hchanged : (key', w') = (key, w)
    · cases hchanged
      rw [eq_of_mem hdistinct hv' (List.mem_append_right before List.mem_cons_self)]
      exact h
    · have hsame : (key', w') ∈ before ++ (key, v) :: after := by
        rcases List.mem_append.mp hw' with hbefore | hafter
        · exact List.mem_append_left _ hbefore
        · exact List.mem_append_right before
            (List.mem_cons_of_mem _ ((List.mem_cons.mp hafter).resolve_left hchanged))
      rw [eq_of_mem hdistinct hv' hsame]
      exact .refl w'
  | moved hperm =>
    intro hv
    have hdistinct := (portable_object.mp hv).1
    refine .object (hperm.map Prod.fst) fun key v w hv hw => ?_
    rw [eq_of_mem hdistinct hv (hperm.mem_iff.mpr hw)]
    exact .refl w

/-! ## Reading what is shown -/

theorem read_sorted {v : Json} (h : v.Portable) : read v.sortKeys.compact = .ok v.sortKeys := by
  have hsorted := (reordered_sortKeys v).portable h
  have hread := read_render .line hsorted.digits (List.forall_mem_nil (isBlank · = true))
  rwa [List.append_nil, hsorted.joined_eq_self] at hread

/-- A portable value, shown on one line with its keys in order, is read as that value up to the
order of its keys. -/
theorem read_shown {v : Json} (h : v.Portable) :
    ∃ w, read v.sortKeys.compact = .ok w ∧ Reordered v w :=
  ⟨v.sortKeys, read_sorted h, reordered_sortKeys v⟩

/-! ## One order for all -/

/-- No member comes behind one with a greater key. -/
def InOrder (members : List (Text × Json)) : Prop :=
  members.Pairwise fun m n => m.1.map CodePoint.val ≤ n.1.map CodePoint.val

theorem inOrder_insertSorted (m : Text × Json) {members : List (Text × Json)}
    (h : InOrder members) : InOrder (insertSorted m members) := by
  induction members with
  | nil => exact List.pairwise_singleton _ m
  | cons n rest ih =>
    obtain ⟨hn, hrest⟩ := List.pairwise_cons.mp h
    by_cases hmn : Text.precedes m.1 n.1
    · have hle := le_of_lt (Text.precedes_iff.mp hmn)
      rw [insertSorted, if_pos hmn]
      refine List.pairwise_cons.mpr ⟨fun k hk => ?_, h⟩
      rcases List.mem_cons.mp hk with rfl | hk
      · exact hle
      · exact hle.trans (hn k hk)
    · have hle := not_lt.mp (mt Text.precedes_iff.mpr hmn)
      rw [insertSorted, if_neg hmn]
      refine List.pairwise_cons.mpr ⟨fun k hk => ?_, ih hrest⟩
      rcases List.mem_cons.mp ((insertSorted_perm m rest).mem_iff.mp hk) with rfl | hk
      · exact hle
      · exact hn k hk

/-- The members of an object with their own values sorted. -/
def withSorted (members : List (Text × Json)) : List (Text × Json) :=
  members.map fun m => (m.1, m.2.sortKeys)

theorem sortItems_eq_map (items : List Json) : sortItems items = items.map sortKeys := by
  induction items with
  | nil => rfl
  | cons v rest ih => rw [sortItems, ih, List.map_cons]

theorem sortMembers_eq_foldr (members : List (Text × Json)) :
    sortMembers members = (withSorted members).foldr insertSorted [] := by
  induction members with
  | nil => rfl
  | cons m rest ih =>
    rw [sortMembers, ih]
    rfl

theorem inOrder_sortMembers (members : List (Text × Json)) : InOrder (sortMembers members) := by
  induction members with
  | nil => exact List.Pairwise.nil
  | cons m rest ih => exact inOrder_insertSorted _ ih

theorem sortMembers_perm (members : List (Text × Json)) :
    (sortMembers members).Perm (withSorted members) := by
  induction members with
  | nil => exact .refl []
  | cons m rest ih => exact (insertSorted_perm _ _).trans (ih.cons _)

theorem keys_withSorted (members : List (Text × Json)) :
    Entries.keys (withSorted members) = Entries.keys members := by
  simp [Entries.keys, withSorted]

/-- Distinct keys can be put in order in one way only. -/
theorem eq_of_inOrder {members members' : List (Text × Json)} (h : InOrder members)
    (h' : InOrder members') (hkeys : (Entries.keys members').Nodup)
    (hperm : members.Perm members') : members = members' := by
  refine hperm.eq_of_pairwise (fun m n hm hn hmn hnm => ?_) h h'
  have hsame : m.1 = n.1 := CodePoint.val_injective.list_map (le_antisymm hmn hnm)
  exact List.inj_on_of_nodup_map hkeys (hperm.mem_iff.mp hm) hn hsame

theorem sortMembers_of_perm {members members' : List (Text × Json)}
    (hkeys : (Entries.keys members).Nodup) (h : members.Perm members') :
    sortMembers members = sortMembers members' := by
  have hvalues : (withSorted members).Perm (withSorted members') := h.map _
  have hperm := (sortMembers_perm members).trans (hvalues.trans (sortMembers_perm members').symm)
  refine eq_of_inOrder (inOrder_sortMembers members) (inOrder_sortMembers members') ?_ hperm
  have hsorted : (Entries.keys (sortMembers members')).Perm (Entries.keys members) := by
    rw [← keys_withSorted members]
    exact ((sortMembers_perm members').trans hvalues.symm).map Prod.fst
  exact hsorted.nodup_iff.mpr hkeys

theorem Reordered.sortKeys_eq {v w : Json} (h : Reordered v w) (hv : v.Portable) :
    v.sortKeys = w.sortKeys := by
  induction h with
  | refl v => rfl
  | trans huv _ ihu ihv => exact (ihu hv).trans (ihv (huv.portable hv))
  | item _ ih =>
    have hitem := ih (portable_array.mp hv _ (List.mem_append_right _ List.mem_cons_self))
    simp only [sortKeys, sortItems_eq_map, List.map_append, List.map_cons, hitem]
  | member _ ih =>
    have hmember := ih ((portable_object.mp hv).2.2 _
      (List.mem_append_right _ List.mem_cons_self))
    simp only [sortKeys, sortMembers_eq_foldr, withSorted, List.map_append, List.map_cons, hmember]
  | moved hperm => rw [sortKeys, sortKeys, sortMembers_of_perm (portable_object.mp hv).1 hperm]

/-- The same is shown of two portable values just if they differ in the order of keys at most. -/
theorem shown_eq_iff {v w : Json} (hv : v.Portable) (hw : w.Portable) :
    v.sortKeys.compact = w.sortKeys.compact ↔ Reordered v w := by
  constructor
  · intro h
    have hsorted : v.sortKeys = w.sortKeys := by
      have hread := read_sorted hv
      rw [h, read_sorted hw] at hread
      exact (Except.ok.inj hread).symm
    have hvw := reordered_sortKeys v
    rw [hsorted] at hvw
    exact hvw.trans (reordered_sortKeys w).symm
  · intro h
    rw [h.sortKeys_eq hv]

end Json

end SchemaTransfer
