import Mathlib.Data.List.Forall2

/-!
# Results that may be refusals

When steps that may refuse follow one another, the first refusal is that of the whole. A list is
worked through from its head, so its refusal is that of the first element that has one.
-/
namespace SchemaTransfer

variable {ε ε' α β γ : Type}

theorem bind_eq_ok {x : Except ε α} {f : α → Except ε β} {b : β} :
    x >>= f = .ok b ↔ ∃ a, x = .ok a ∧ f a = .ok b := by
  cases x <;> simp [bind, Except.bind]

theorem bind_eq_error {x : Except ε α} {f : α → Except ε β} {e : ε} :
    x >>= f = .error e ↔ x = .error e ∨ ∃ a, x = .ok a ∧ f a = .error e := by
  cases x <;> simp [bind, Except.bind]

theorem map_eq_ok {x : Except ε α} {f : α → β} {b : β} :
    x.map f = .ok b ↔ ∃ a, x = .ok a ∧ f a = b := by
  cases x <;> simp [Except.map]

theorem map_eq_error {x : Except ε α} {f : α → β} {e : ε} :
    x.map f = .error e ↔ x = .error e := by
  cases x <;> simp [Except.map]

theorem eq_ok_of_toOption {x : Except ε α} {f : α → β} {b : β} (h : x.toOption.map f = some b) :
    ∃ a, x = .ok a ∧ f a = b := by
  cases x with
  | error e => cases h
  | ok a => exact ⟨a, rfl, Option.some.inj h⟩

theorem mapError_eq_ok {x : Except ε α} {f : ε → ε'} {a : α} :
    x.mapError f = .ok a ↔ x = .ok a := by
  cases x <;> simp [Except.mapError]

theorem mapError_eq_error {x : Except ε α} {f : ε → ε'} {e : ε'} :
    x.mapError f = .error e ↔ ∃ d, x = .error d ∧ f d = e := by
  cases x <;> simp [Except.mapError]

/-! ## Lists -/

/-- The list up to the first element that `f` refuses, and the refusal. -/
def FirstRefusal (f : α → Except ε β) (l : List α) (e : ε) : Prop :=
  ∃ before a after, l = before ++ a :: after ∧ (∀ b ∈ before, ∃ y, f b = .ok y) ∧ f a = .error e

theorem firstRefusal_cons {f : α → Except ε β} {a : α} {l : List α} {e : ε} :
    FirstRefusal f (a :: l) e ↔ f a = .error e ∨ (∃ y, f a = .ok y) ∧ FirstRefusal f l e := by
  constructor
  · rintro ⟨before, b, after, heq, hbefore, hb⟩
    cases before with
    | nil =>
      cases heq
      exact Or.inl hb
    | cons c before =>
      cases heq
      exact Or.inr ⟨hbefore a List.mem_cons_self, before, b, after, rfl,
        fun d hd => hbefore d (List.mem_cons_of_mem _ hd), hb⟩
  · rintro (h | ⟨hy, before, b, after, rfl, hbefore, hb⟩)
    · exact ⟨[], a, l, rfl, by simp, h⟩
    · exact ⟨a :: before, b, after, rfl, List.forall_mem_cons.mpr ⟨hy, hbefore⟩, hb⟩

theorem mapM_eq_ok {f : α → Except ε β} {l : List α} {ys : List β} :
    l.mapM f = .ok ys ↔ List.Forall₂ (fun a y => f a = .ok y) l ys := by
  induction l generalizing ys with
  | nil =>
    rw [List.mapM_nil, List.forall₂_nil_left_iff]
    exact ⟨fun h => by cases h; rfl, fun h => by rw [h]; rfl⟩
  | cons a l ih =>
    simp only [List.mapM_cons, bind_eq_ok, List.forall₂_cons_left_iff, ih]
    constructor
    · rintro ⟨y, hy, zs, hzs, h⟩
      cases h
      exact ⟨y, zs, hy, hzs, rfl⟩
    · rintro ⟨y, zs, hy, hzs, rfl⟩
      exact ⟨y, hy, zs, hzs, rfl⟩

theorem mapM_eq_ok_map {f : α → Except ε β} {g : α → β} {l : List α}
    (h : ∀ a ∈ l, f a = .ok (g a)) : l.mapM f = .ok (l.map g) :=
  mapM_eq_ok.mpr (List.forall₂_map_right_iff.mpr (List.forall₂_same.mpr h))

theorem mapM_eq_error {f : α → Except ε β} {l : List α} {e : ε} :
    l.mapM f = .error e ↔ FirstRefusal f l e := by
  induction l with
  | nil =>
    constructor
    · intro h
      cases h
    · rintro ⟨before, a, after, h, -⟩
      exact absurd h (by simp)
  | cons a l ih =>
    simp only [List.mapM_cons, bind_eq_error, firstRefusal_cons, ← ih]
    constructor
    · rintro (h | ⟨y, hy, h | ⟨zs, -, h⟩⟩)
      · exact Or.inl h
      · exact Or.inr ⟨⟨y, hy⟩, h⟩
      · cases h
    · rintro (h | ⟨⟨y, hy⟩, h⟩)
      · exact Or.inl h
      · exact Or.inr ⟨y, hy, Or.inl h⟩

theorem exists_of_mapM_eq_error {f : α → Except ε β} {l : List α} {e : ε}
    (h : l.mapM f = .error e) : ∃ a ∈ l, f a = .error e := by
  obtain ⟨before, a, after, rfl, -, ha⟩ := mapM_eq_error.mp h
  exact ⟨a, by simp, ha⟩

/-! ## Lists with values that may be missing -/

theorem mapM_eq_some {f : α → Option β} {l : List α} {ys : List β} :
    l.mapM f = some ys ↔ List.Forall₂ (fun a y => f a = some y) l ys := by
  induction l generalizing ys with
  | nil => simp [List.forall₂_nil_left_iff, eq_comm]
  | cons a l ih =>
    simp only [List.mapM_cons, Option.bind_eq_bind, Option.bind_eq_some_iff, Option.pure_def,
      Option.some.injEq, List.forall₂_cons_left_iff, ih]
    constructor
    · rintro ⟨y, hy, zs, hzs, rfl⟩
      exact ⟨y, zs, hy, hzs, rfl⟩
    · rintro ⟨y, zs, hy, hzs, rfl⟩
      exact ⟨y, hy, zs, hzs, rfl⟩

theorem mapM_eq_none {f : α → Option β} {l : List α} :
    l.mapM f = none ↔ ∃ a ∈ l, f a = none := by
  induction l with
  | nil => simp
  | cons a l ih =>
    simp only [List.mapM_cons, Option.bind_eq_bind, Option.bind_eq_none_iff, Option.pure_def,
      reduceCtorEq, List.exists_mem_cons_iff, ← ih]
    cases f a with
    | none => simp
    | some y => simp [Option.eq_none_iff_forall_ne_some]

/-! ## Lists related element by element -/

/-- Every element is related to something if and only if the list is to some list. -/
theorem exists_forall₂_and {R : α → β → Prop} {p : β → Prop} {l : List α} :
    (∃ m, (∀ b ∈ m, p b) ∧ List.Forall₂ R l m) ↔ ∀ a ∈ l, ∃ b, p b ∧ R a b := by
  induction l with
  | nil => simp
  | cons a l ih =>
    simp only [List.forall₂_cons_left_iff, List.forall_mem_cons, ← ih]
    constructor
    · rintro ⟨_, hp, b, m, hb, hm, rfl⟩
      obtain ⟨hpb, hpm⟩ := List.forall_mem_cons.mp hp
      exact ⟨⟨b, hpb, hb⟩, m, hpm, hm⟩
    · rintro ⟨⟨b, hpb, hb⟩, m, hpm, hm⟩
      exact ⟨b :: m, List.forall_mem_cons.mpr ⟨hpb, hpm⟩, b, m, hb, hm, rfl⟩

theorem exists_forall₂ {R : α → β → Prop} {l : List α} :
    (∃ m, List.Forall₂ R l m) ↔ ∀ a ∈ l, ∃ b, R a b := by
  simpa using exists_forall₂_and (R := R) (p := fun _ => True) (l := l)

/-- One refusal is enough for the list to be refused. -/
theorem mapM_fails {f : α → Except ε β} {l : List α} {a : α} (ha : a ∈ l)
    (h : ∃ e, f a = .error e) : ∃ e, l.mapM f = .error e := by
  cases hl : l.mapM f with
  | error e => exact ⟨e, rfl⟩
  | ok ys =>
    obtain ⟨e, he⟩ := h
    obtain ⟨y, hy⟩ := exists_forall₂.mp ⟨ys, mapM_eq_ok.mp hl⟩ a ha
    cases he.symm.trans hy

theorem forall_of_forall₂ {R : α → β → Prop} {p : β → Prop} {l : List α} {m : List β}
    (h : List.Forall₂ R l m) (hp : ∀ a ∈ l, ∀ b, R a b → p b) : ∀ b ∈ m, p b := by
  induction h with
  | nil => exact fun _ hb => (nomatch hb)
  | cons hr _ ih =>
    obtain ⟨ha, hl⟩ := List.forall_mem_cons.mp hp
    exact List.forall_mem_cons.mpr ⟨ha _ hr, ih hl⟩

theorem map_eq_map_of_forall₂ {f : α → γ} {g : β → γ} {l : List α} {m : List β}
    (h : List.Forall₂ (fun a b => f a = g b) l m) : l.map f = m.map g := by
  induction h with
  | nil => rfl
  | cons hab _ ih => rw [List.map_cons, List.map_cons, hab, ih]

end SchemaTransfer
