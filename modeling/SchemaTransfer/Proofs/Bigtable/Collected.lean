import Mathlib.Data.Rat.Cast.Order
import SchemaTransfer.Bigtable.Retention
import SchemaTransfer.Proofs.Dict
import SchemaTransfer.Proofs.Except
import SchemaTransfer.Proofs.Text.WholeNumber

/-!
# Which cells a rule collects

A family bounds its cells by two settings, each of which stands for a whole number or for none. The
rule that is made of the settings collects a cell exactly if the cell is beyond one of the bounds,
and its form shows which of them there are. Only a setting that is infinite keeps a rule from being
made.
-/
namespace SchemaTransfer

/-! ## The whole numbers that values stand for -/

/-- A finite double and what is left of it without its fraction: a whole number of the same sign or
zero, and the greatest one whose magnitude is not above that of the double. -/
inductive Double.WholePart : Double → Int → Prop
  | positive {rank : Fin finiteRanks} {n : Nat} (hle : n * unitsPerOne ≤ units rank)
    (hlt : units rank < (n + 1) * unitsPerOne) : WholePart (.finite false rank) n
  | negative {rank : Fin finiteRanks} {n : Nat} (hle : n * unitsPerOne ≤ units rank)
    (hlt : units rank < (n + 1) * unitsPerOne) : WholePart (.finite true rank) (-n)

theorem Double.units_div_eq_iff {rank n : Nat} : units rank / unitsPerOne = n ↔
    n * unitsPerOne ≤ units rank ∧ units rank < (n + 1) * unitsPerOne := by
  have hpos : 0 < unitsPerOne := by decide +kernel
  rw [Nat.div_eq_iff hpos, Nat.add_mul, Nat.one_mul]
  generalize units rank = u at *
  omega

theorem Double.truncate?_eq_some {d : Double} {i : Int} :
    d.truncate? = some i ↔ d.WholePart i := by
  constructor
  · intro h
    cases d with
    | nan => cases h
    | inf negative => cases h
    | finite negative rank =>
      obtain ⟨hle, hlt⟩ := units_div_eq_iff.mp (Eq.refl (units rank / unitsPerOne))
      rw [truncate?] at h
      obtain rfl := Option.some.inj h
      cases negative with
      | false => exact .positive hle hlt
      | true => exact .negative hle hlt
  · rintro (⟨hle, hlt⟩ | ⟨hle, hlt⟩)
    · rw [truncate?, units_div_eq_iff.mpr ⟨hle, hlt⟩]
      rfl
    · rw [truncate?, units_div_eq_iff.mpr ⟨hle, hlt⟩]
      rfl

/-- The whole number that a value stands for as a bound, if it stands for one. -/
inductive Json.StandsFor : Json → Int → Prop
  | no : StandsFor (.bool false) 0
  | yes : StandsFor (.bool true) 1
  | whole (i : Int) : StandsFor (.int i) i
  | cut {d : Double} {i : Int} (hd : d.WholePart i) : StandsFor (.double d) i
  | spelled {t : Text} {i : Int} (ht : t.SpellsWhole i) : StandsFor (.string t) i

theorem ConfigValue.bound?_eq_ok {v : Json} {i : Int} :
    (json v).bound? = .ok (some i) ↔ v.StandsFor i := by
  constructor
  · intro h
    cases v with
    | null | array items | object members => cases h
    | bool b =>
      cases b with
      | false =>
        cases h
        exact .no
      | true =>
        cases h
        exact .yes
    | int =>
      cases h
      exact .whole _
    | double d =>
      cases d with
      | inf negative => cases h
      | nan => cases h
      | finite negative rank => exact .cut (Double.truncate?_eq_some.mp (Except.ok.inj h))
    | string t => exact .spelled (Text.wholeNumber?_eq_some.mp (Except.ok.inj h))
  · intro h
    cases h with
    | no | yes | whole => rfl
    | @cut d i hd =>
      have htruncate := Double.truncate?_eq_some.mpr hd
      cases d with
      | inf negative => cases htruncate
      | nan => cases htruncate
      | finite negative rank => exact congrArg Except.ok htruncate
    | spelled ht => exact congrArg Except.ok (Text.wholeNumber?_eq_some.mpr ht)

theorem ConfigValue.bound?_eq_error {cv : ConfigValue} {e : Failure} : cv.bound? = .error e ↔
    (∃ negative, cv = .json (.double (.inf negative))) ∧ e = .infiniteBound := by
  constructor
  · intro h
    unfold bound? at h
    split at h <;> cases h
    exact ⟨⟨_, rfl⟩, rfl⟩
  · rintro ⟨⟨negative, rfl⟩, rfl⟩
    rfl

/-! ## The bounds of a family -/

namespace Config

variable {c : Config} {key : Text}

/-- All settings are JSON values. -/
def OfJson (c : Config) : Prop := ∀ e ∈ c.entries, ∃ v, e.2 = .json v

def versionsKey : Text := "max_versions"

def ageKey : Text := "time_to_live"

/-- The setting under the key stands for the number. -/
def HasBound (c : Config) (key : Text) (i : Int) : Prop :=
  ∃ v, c.get? key = some (.json v) ∧ v.StandsFor i

/-- The setting under the key is an infinite double. -/
def HasInfinite (c : Config) (key : Text) : Prop :=
  ∃ negative, c.get? key = some (.json (.double (.inf negative)))

/-- The family keeps the newest `n` versions of a cell. -/
def KeepsVersions (c : Config) (n : Nat) : Prop := 0 < n ∧ c.HasBound versionsKey n

/-- The family keeps a cell for `s` seconds, and not for ever. -/
def KeepsFor (c : Config) (s : Nat) : Prop :=
  0 < s ∧ s < foreverSeconds ∧ c.HasBound ageKey s

theorem OfJson.get? (hc : c.OfJson) (key : Text) :
    c.get? key = none ∨ ∃ v, c.get? key = some (.json v) := by
  cases hg : c.get? key with
  | none => exact Or.inl rfl
  | some cv =>
    obtain ⟨v, rfl⟩ := hc _ (Dict.mem_of_get?_eq_some hg)
    exact Or.inr ⟨v, rfl⟩

theorem positive?_eq_error {e : Failure} :
    c.positive? key = .error e ↔ c.HasInfinite key ∧ e = .infiniteBound := by
  rw [HasInfinite, positive?]
  cases hg : c.get? key with
  | none => exact ⟨nofun, nofun⟩
  | some cv =>
    simp only [Option.some.injEq]
    rw [← ConfigValue.bound?_eq_error]
    split
    · next heq => rw [heq, Except.error.injEq, Except.error.injEq]
    · next heq => simp [heq]
    · next heq => simp [heq]

theorem positive?_eq_ok (hc : c.OfJson) {bound : Option Nat} (h : c.positive? key = .ok bound)
    (n : Nat) : bound = some n ↔ 0 < n ∧ c.HasBound key n := by
  rw [HasBound]
  rw [positive?] at h
  rcases hc.get? key with hg | ⟨v, hg⟩
  · rw [hg] at h ⊢
    cases h
    exact ⟨nofun, nofun⟩
  · have hbound : (∃ w, c.get? key = some (.json w) ∧ w.StandsFor n) ↔
        (ConfigValue.json v).bound? = .ok (some n) := by
      rw [ConfigValue.bound?_eq_ok]
      simp [hg]
    rw [hbound]
    rw [hg] at h
    dsimp only at h
    split at h
    · cases h
    · next m heq =>
      cases h
      rw [heq]
      simp only [Option.some.injEq, Except.ok.injEq, Int.ofNat_eq_natCast]
      omega
    · next hnone heq =>
      cases h
      refine iff_of_false nofun fun ⟨hpos, hn⟩ => ?_
      obtain ⟨m, rfl⟩ := Nat.exists_eq_add_one.mpr hpos
      exact hnone m (Except.ok.inj (heq.symm.trans hn))

/-! ## Rules -/

/-- What makes up the rule of a family. -/
inductive RuledBy (c : Config) : Option Retention → Prop
  | unbounded (hn : ∀ n, ¬ c.KeepsVersions n) (hs : ∀ s, ¬ c.KeepsFor s) : RuledBy c none
  | versions {n : Nat} (hn : c.KeepsVersions n) (hs : ∀ s, ¬ c.KeepsFor s) :
    RuledBy c (some (.maxVersions n))
  | age {s : Nat} (hn : ∀ n, ¬ c.KeepsVersions n) (hs : c.KeepsFor s) :
    RuledBy c (some (.maxAge s))
  | both {n s : Nat} (hn : c.KeepsVersions n) (hs : c.KeepsFor s) :
    RuledBy c (some (.union (.maxVersions n) (.maxAge s)))

/-- A rule cannot be made exactly if one of the two settings is infinite. -/
theorem retention?_eq_error {e : Failure} : c.retention? = .error e ↔
    (c.HasInfinite versionsKey ∨ c.HasInfinite ageKey) ∧ e = .infiniteBound := by
  constructor
  · intro h
    rcases bind_eq_error.mp h with hv | ⟨versions, -, h⟩
    · have hversions : c.HasInfinite versionsKey ∧ e = .infiniteBound :=
        positive?_eq_error.mp hv
      exact ⟨Or.inl hversions.1, hversions.2⟩
    rcases bind_eq_error.mp h with ha | ⟨age, -, h⟩
    · have hage : c.HasInfinite ageKey ∧ e = .infiniteBound := positive?_eq_error.mp ha
      exact ⟨Or.inr hage.1, hage.2⟩
    dsimp only at h
    split at h <;> cases h
  · rintro ⟨hinfinite, rfl⟩
    cases hv : c.positive? versionsKey with
    | error e =>
      obtain ⟨-, rfl⟩ := positive?_eq_error.mp hv
      exact bind_eq_error.mpr (Or.inl hv)
    | ok versions =>
      have hfinite : ¬ c.HasInfinite versionsKey := by
        intro hi
        cases hv.symm.trans (positive?_eq_error.mpr ⟨hi, rfl⟩)
      have ha : c.positive? ageKey = .error .infiniteBound :=
        positive?_eq_error.mpr ⟨hinfinite.resolve_left hfinite, rfl⟩
      exact bind_eq_error.mpr (Or.inr ⟨versions, hv, bind_eq_error.mpr (Or.inl ha)⟩)

theorem ruledBy_of_retention? (hc : c.OfJson) {rule : Option Retention}
    (h : c.retention? = .ok rule) : c.RuledBy rule := by
  obtain ⟨versions, hv, h⟩ := bind_eq_ok.mp h
  obtain ⟨bound, ha, h⟩ := bind_eq_ok.mp h
  have hversions : ∀ n, versions = some n ↔ c.KeepsVersions n := positive?_eq_ok hc hv
  have hage : ∀ s, bound.filter (· < foreverSeconds) = some s ↔ c.KeepsFor s := by
    intro s
    rw [Option.filter_eq_some_iff, positive?_eq_ok hc ha s, KeepsFor, decide_eq_true_eq]
    exact ⟨fun ⟨⟨hpos, hs⟩, hlt⟩ => ⟨hpos, hlt, hs⟩, fun ⟨hpos, hlt, hs⟩ => ⟨⟨hpos, hs⟩, hlt⟩⟩
  dsimp only at h
  generalize bound.filter (· < foreverSeconds) = age at h hage
  cases versions with
  | none =>
    have hn : ∀ n, ¬ c.KeepsVersions n := fun n => mt (hversions n).mpr nofun
    cases age with
    | none =>
      cases h
      exact .unbounded hn fun s => mt (hage s).mpr nofun
    | some s =>
      cases h
      exact .age hn ((hage s).mp rfl)
  | some n =>
    have hn : c.KeepsVersions n := (hversions n).mp rfl
    cases age with
    | none =>
      cases h
      exact .versions hn fun s => mt (hage s).mpr nofun
    | some s =>
      cases h
      exact .both hn ((hage s).mp rfl)

theorem HasBound.unique {i j : Int} (hi : c.HasBound key i) (hj : c.HasBound key j) : i = j := by
  obtain ⟨v, hv, hi⟩ := hi
  obtain ⟨w, hw, hj⟩ := hj
  cases hv.symm.trans hw
  cases (ConfigValue.bound?_eq_ok.mpr hi).symm.trans (ConfigValue.bound?_eq_ok.mpr hj)
  rfl

theorem KeepsVersions.unique {m n : Nat} (hm : c.KeepsVersions m) (hn : c.KeepsVersions n) :
    m = n :=
  Int.ofNat_inj.mp (hm.2.unique hn.2)

theorem KeepsFor.unique {s u : Nat} (hs : c.KeepsFor s) (hu : c.KeepsFor u) : s = u :=
  Int.ofNat_inj.mp (hs.2.2.unique hu.2.2)

end Config

/-! ## Collection -/

namespace Retention

/-- Whether a cell is collected: `rank` is its place among the versions, the newest first and
counted from one, and `age` is its age in seconds. -/
def Collects : Retention → (rank : Nat) → (age : ℚ) → Prop
  | maxVersions count, rank, _ => count < rank
  | maxAge seconds, _, age => seconds < age
  | union a b, rank, age => a.Collects rank age ∨ b.Collects rank age

/-- Without a rule no cell is collected. -/
def Collected (rule : Option Retention) (rank : Nat) (age : ℚ) : Prop :=
  ∃ r, rule = some r ∧ r.Collects rank age

end Retention

namespace Config

open Retention (Collected)

variable {c : Config} {rule : Option Retention}

/-- The cell is beyond one of the bounds. -/
def Outlived (c : Config) (rank : Nat) (age : ℚ) : Prop :=
  (∃ n, c.KeepsVersions n ∧ n < rank) ∨ ∃ s : Nat, c.KeepsFor s ∧ (s : ℚ) < age

theorem KeepsVersions.exists_lt_iff {n rank : Nat} (hn : c.KeepsVersions n) :
    (∃ m, c.KeepsVersions m ∧ m < rank) ↔ n < rank :=
  ⟨fun ⟨_, hm, hlt⟩ => hm.unique hn ▸ hlt, fun hlt => ⟨n, hn, hlt⟩⟩

theorem KeepsFor.exists_lt_iff {s : Nat} {age : ℚ} (hs : c.KeepsFor s) :
    (∃ u : Nat, c.KeepsFor u ∧ (u : ℚ) < age) ↔ (s : ℚ) < age :=
  ⟨fun ⟨_, hu, hlt⟩ => hu.unique hs ▸ hlt, fun hlt => ⟨s, hs, hlt⟩⟩

theorem RuledBy.collected_iff (h : c.RuledBy rule) (rank : Nat) (age : ℚ) :
    Collected rule rank age ↔ c.Outlived rank age := by
  rw [Outlived, Collected]
  cases h with
  | unbounded hn hs => simp [hn, hs]
  | versions hn hs =>
    rw [hn.exists_lt_iff]
    simp [hs, Retention.Collects]
  | age hn hs =>
    rw [hs.exists_lt_iff]
    simp [hn, Retention.Collects]
  | both hn hs =>
    rw [hn.exists_lt_iff, hs.exists_lt_iff]
    simp [Retention.Collects]

theorem RuledBy.eq_none_iff (h : c.RuledBy rule) :
    rule = none ↔ (∀ n, ¬ c.KeepsVersions n) ∧ ∀ s, ¬ c.KeepsFor s := by
  cases h with
  | unbounded hn hs => exact iff_of_true rfl ⟨hn, hs⟩
  | versions hn | both hn => exact iff_of_false nofun fun h => h.1 _ hn
  | age _ hs => exact iff_of_false nofun fun h => h.2 _ hs

theorem RuledBy.eq_union_iff (h : c.RuledBy rule) (a b : Retention) :
    rule = some (.union a b) ↔
      ∃ n s, c.KeepsVersions n ∧ c.KeepsFor s ∧ a = .maxVersions n ∧ b = .maxAge s := by
  cases h with
  | unbounded hn => exact iff_of_false nofun fun ⟨n, _, h, _⟩ => hn n h
  | versions _ hs => exact iff_of_false nofun fun ⟨_, s, _, h, _⟩ => hs s h
  | age hn => exact iff_of_false nofun fun ⟨n, _, h, _⟩ => hn n h
  | @both n s hn hs =>
    constructor
    · intro heq
      cases heq
      exact ⟨n, s, hn, hs, rfl, rfl⟩
    · rintro ⟨m, u, hm, hu, rfl, rfl⟩
      rw [hm.unique hn, hu.unique hs]

theorem retention?_congr {d : Config} (hversions : d.get? versionsKey = c.get? versionsKey)
    (hage : d.get? ageKey = c.get? ageKey) : d.retention? = c.retention? := by
  have hpositive : ∀ key, d.get? key = c.get? key → d.positive? key = c.positive? key := by
    intro key h
    rw [positive?, positive?, h]
  rw [retention?, retention?, hpositive "max_versions" hversions, hpositive "time_to_live" hage]

/-- The rule of a family with JSON settings cannot be made exactly if its number of versions or its
time to live is infinite. The rule that is made collects a cell exactly if that is beyond the number
of versions or older than the time to live; there is none exactly if there is neither bound, and it
is a union, the versions first, exactly if there are both. Other settings make no difference. -/
theorem retention_exact (hc : c.OfJson) :
    (∀ e, c.retention? = .error e ↔
      (c.HasInfinite versionsKey ∨ c.HasInfinite ageKey) ∧ e = .infiniteBound) ∧
    (¬ (c.HasInfinite versionsKey ∨ c.HasInfinite ageKey) → ∃ rule, c.retention? = .ok rule ∧
      (∀ rank age, Collected rule rank age ↔ c.Outlived rank age) ∧
      (rule = none ↔ (∀ n, ¬ c.KeepsVersions n) ∧ ∀ s, ¬ c.KeepsFor s) ∧
      ∀ a b, rule = some (.union a b) ↔
        ∃ n s, c.KeepsVersions n ∧ c.KeepsFor s ∧ a = .maxVersions n ∧ b = .maxAge s) ∧
    ∀ d : Config, d.get? versionsKey = c.get? versionsKey → d.get? ageKey = c.get? ageKey →
      d.retention? = c.retention? := by
  refine ⟨fun e => retention?_eq_error, fun hfinite => ?_, fun d => retention?_congr⟩
  cases h : c.retention? with
  | error e => exact absurd (retention?_eq_error.mp h).1 hfinite
  | ok rule =>
    have hruled := ruledBy_of_retention? hc h
    exact ⟨rule, rfl, hruled.collected_iff, hruled.eq_none_iff, hruled.eq_union_iff⟩

/-- Bounds that are not written as plain numbers, and an infinite setting that is no bound. -/
def awkward : Config where
  entries := [("time_to_live", .json (.double (.ofDecimal false 864005 (-1)))),
    ("block_size", .json (.double (.inf false))), ("max_versions", .json (.string " +1_0 "))]
  nodup := by decide

theorem retention_exact_awkward : awkward.OfJson ∧
    ¬ (awkward.HasInfinite versionsKey ∨ awkward.HasInfinite ageKey) ∧
    awkward.KeepsVersions 10 ∧ awkward.KeepsFor 86400 ∧
    ∃ rule, awkward.retention? = .ok rule ∧
      ∀ rank age, Collected rule rank age ↔ awkward.Outlived rank age := by
  have hjson : awkward.OfJson := by
    intro e he
    simp only [awkward, List.mem_cons, List.not_mem_nil, or_false] at he
    rcases he with rfl | rfl | rfl <;> exact ⟨_, rfl⟩
  have hrule : awkward.retention?.toOption =
      some (some (.union (.maxVersions 10) (.maxAge 86400))) := by decide +kernel
  obtain ⟨herror, hexact, -⟩ := retention_exact hjson
  have hfinite : ¬ (awkward.HasInfinite versionsKey ∨ awkward.HasInfinite ageKey) := by
    intro hinfinite
    rw [(herror _).mpr ⟨hinfinite, rfl⟩] at hrule
    cases hrule
  obtain ⟨rule, hok, hcollected, -, hunion⟩ := hexact hfinite
  rw [hok] at hrule
  obtain ⟨n, s, hn, hs, hcount, hseconds⟩ := (hunion _ _).mp (Option.some.inj hrule)
  cases hcount
  cases hseconds
  exact ⟨hjson, hfinite, hn, hs, rule, hok, hcollected⟩

end Config

end SchemaTransfer
