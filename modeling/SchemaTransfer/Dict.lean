/-!
# Ordered dictionaries

A dictionary keeps its keys in the order in which they first arrived. A later value for a known key
takes the place of the earlier one.
-/
namespace SchemaTransfer

namespace Entries

variable {κ α β : Type} [DecidableEq κ]

def keys (entries : List (κ × α)) : List κ := entries.map Prod.fst

/-- The entries after the value of `k` became `v`. -/
def put (k : κ) (v : α) : List (κ × α) → List (κ × α)
  | [] => [(k, v)]
  | e :: rest => if e.1 = k then (k, v) :: rest else e :: put k v rest

def get? (k : κ) : List (κ × α) → Option α
  | [] => none
  | e :: rest => if e.1 = k then some e.2 else get? k rest

theorem keys_put (k : κ) (v : α) (entries : List (κ × α)) :
    keys (put k v entries) = if k ∈ keys entries then keys entries else keys entries ++ [k] := by
  induction entries with
  | nil => simp [put, keys]
  | cons e rest ih =>
    by_cases h : e.1 = k
    · simp [put, keys, h]
    · have h' : ¬ k = e.1 := fun hk => h hk.symm
      simp only [keys, put, if_neg h, List.map_cons, List.mem_cons, h', false_or] at ih ⊢
      rw [ih]
      by_cases hk : k ∈ rest.map Prod.fst <;> simp [hk]

theorem nodup_keys_put (k : κ) (v : α) {entries : List (κ × α)} (h : (keys entries).Nodup) :
    (keys (put k v entries)).Nodup := by
  rw [keys_put]
  split
  · exact h
  · next hk =>
    rw [List.nodup_append]
    refine ⟨h, by simp, ?_⟩
    intro a ha b hb
    rw [List.mem_singleton] at hb
    rintro rfl
    exact hk (hb ▸ ha)

theorem get?_put (k l : κ) (v : α) (entries : List (κ × α)) :
    get? l (put k v entries) = if k = l then some v else get? l entries := by
  induction entries with
  | nil => simp [put, get?]
  | cons e rest ih =>
    by_cases h : e.1 = k
    · by_cases hl : k = l
      · simp [put, get?, h, hl]
      · have : ¬ e.1 = l := fun he => hl (h ▸ he)
        simp [put, get?, h, hl]
    · by_cases hl : e.1 = l
      · have : ¬ k = l := fun hk => h (hl.trans hk.symm)
        simp only [put, if_neg h, get?, if_pos hl, if_neg this]
      · simp [put, get?, h, hl, ih]

end Entries

structure Dict (κ α : Type) where
  entries : List (κ × α)
  nodup : (Entries.keys entries).Nodup

namespace Dict

variable {κ α β : Type} [DecidableEq κ]

def empty : Dict κ α := ⟨[], List.nodup_nil⟩

instance : EmptyCollection (Dict κ α) := ⟨empty⟩

instance : Inhabited (Dict κ α) := ⟨empty⟩

def keys (d : Dict κ α) : List κ := Entries.keys d.entries

def get? (d : Dict κ α) (k : κ) : Option α := Entries.get? k d.entries

def insert (d : Dict κ α) (k : κ) (v : α) : Dict κ α :=
  ⟨Entries.put k v d.entries, Entries.nodup_keys_put k v d.nodup⟩

/-- The dictionary that arises when the entries arrive one after another. -/
def ofList (entries : List (κ × α)) : Dict κ α :=
  entries.foldl (fun d e => d.insert e.1 e.2) empty

def mapValues (f : α → β) (d : Dict κ α) : Dict κ β :=
  ⟨d.entries.map fun e => (e.1, f e.2), by
    simpa [Entries.keys, List.map_map, Function.comp_def] using d.nodup⟩

omit [DecidableEq κ] in
theorem ext {d e : Dict κ α} (h : d.entries = e.entries) : d = e := by
  cases d; cases e; cases h; rfl

theorem get?_insert (d : Dict κ α) (k l : κ) (v : α) :
    (d.insert k v).get? l = if k = l then some v else d.get? l :=
  Entries.get?_put k l v d.entries

end Dict

end SchemaTransfer
