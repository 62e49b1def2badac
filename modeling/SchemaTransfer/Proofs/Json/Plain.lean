import SchemaTransfer.Proofs.Json.Number
import SchemaTransfer.Proofs.Json.String
import SchemaTransfer.Text.Newline

/-!
# The alphabet of written values

The writer uses printable ASCII and line feeds alone. Such text has no byte order mark, no
surrogates and no carriage returns, so it passes through a file as it is.
-/
namespace SchemaTransfer

/-- Text of printable ASCII and line feeds. -/
def Text.Plain (t : Text) : Prop := ∀ c ∈ t, c = '\n' ∨ 0x20 ≤ c.val ∧ c.val ≤ 0x7E

instance (t : Text) : Decidable t.Plain :=
  inferInstanceAs (Decidable (∀ c ∈ t, c = '\n' ∨ 0x20 ≤ c.val ∧ c.val ≤ 0x7E))

namespace Text

theorem plain_append {s t : Text} : Plain (s ++ t) ↔ s.Plain ∧ t.Plain :=
  List.forall_mem_append

theorem plain_cons {c : CodePoint} {t : Text} :
    Plain (c :: t) ↔ (c = '\n' ∨ 0x20 ≤ c.val ∧ c.val ≤ 0x7E) ∧ t.Plain :=
  List.forall_mem_cons

theorem Plain.val_lt {t : Text} (h : t.Plain) : ∀ c ∈ t, c.val < 0x80 := by
  intro c hc
  rcases h c hc with rfl | hp
  · decide
  · omega

theorem Plain.surrogateFree {t : Text} (h : t.Plain) : t.SurrogateFree := by
  intro c hc
  have hlt := h.val_lt c hc
  exact CodePoint.isSurrogate_eq_false_iff.mpr (by omega)

theorem unifyFrom_eq_self {t : Text} (h : ∀ c ∈ t, c ≠ '\r') : unifyFrom false t = t := by
  induction t with
  | nil => rfl
  | cons c t ih =>
    rw [unifyFrom, if_neg (h c (by simp)), if_neg (by simp), ih fun d hd => h d (by simp [hd])]

/-- Without carriage returns there is nothing to unify. -/
theorem Plain.unifyNewlines_eq_self {t : Text} (h : t.Plain) : t.unifyNewlines = t := by
  refine unifyFrom_eq_self fun c hc hr => ?_
  have hp := h c hc
  rw [hr] at hp
  revert hp
  decide

end Text

open Text (Plain plain_append plain_cons)

namespace Json

theorem AllDigits.plain {t : Text} (h : AllDigits t) : t.Plain := by
  intro c hc
  have hd := CodePoint.isAsciiDigit_iff.mp (h c hc)
  exact Or.inr (by omega)

theorem plain_ofInt (i : Int) : (Text.ofInt i).Plain := by
  cases i with
  | ofNat n => exact (allDigits_ofNat n).plain
  | negSucc n => exact plain_cons.mpr ⟨by decide, (allDigits_ofNat (n + 1)).plain⟩

/-! ## Doubles -/

theorem plain_positional {digits : Text} (h : digits.Plain) (point : Int) :
    (NumberLayout.positional digits point).Plain := by
  have hzeros : ∀ k, (Text.zeros k).Plain := fun k => (allDigits_zeros k).plain
  rw [NumberLayout.positional]
  split
  · exact plain_append.mpr ⟨plain_append.mpr ⟨by decide, hzeros _⟩, h⟩
  split
  · exact plain_append.mpr ⟨plain_append.mpr ⟨fun c hc => h c (List.mem_of_mem_take hc), by decide⟩,
      fun c hc => h c (List.mem_of_mem_drop hc)⟩
  · exact plain_append.mpr ⟨plain_append.mpr ⟨h, hzeros _⟩, by decide⟩

theorem plain_scientific (l : NumberLayout) {digits : Text} (h : digits.Plain) (point : Int) :
    (l.scientific digits point).Plain := by
  have hpadded : ∀ width n, (Text.ofNatPadded width n).Plain := fun width n =>
    plain_append.mpr ⟨(allDigits_zeros _).plain, (allDigits_ofNat n).plain⟩
  rw [NumberLayout.scientific]
  refine plain_append.mpr ⟨plain_append.mpr ⟨?_, ?_⟩, hpadded _ _⟩
  · split
    · exact h
    · exact plain_append.mpr ⟨plain_append.mpr ⟨fun c hc => h c (List.mem_of_mem_take hc),
        by decide⟩, fun c hc => h c (List.mem_of_mem_drop hc)⟩
  · split <;> decide

theorem plain_finiteText (negative : Bool) (rank : Nat) :
    (Double.finiteText negative rank).Plain := by
  have hdigits := (allDigits_ofNat (Double.shortest rank).digits).plain
  rw [Double.finiteText, NumberLayout.render]
  refine plain_append.mpr ⟨by cases negative <;> decide, ?_⟩
  split
  · exact plain_positional hdigits _
  · exact plain_scientific doubleLayout hdigits _

theorem plain_doubleText (d : Double) : (doubleText d).Plain := by
  cases d with
  | nan => decide
  | inf negative => cases negative <;> decide
  | finite negative rank => exact plain_finiteText negative rank.val

/-! ## Strings -/

theorem plain_hex (width n : Nat) : (Text.hex width n).Plain := by
  induction width generalizing n with
  | zero => exact List.forall_mem_nil _
  | succ width ih =>
    have hdigit : ∀ m < 16, Text.Plain [CodePoint.hexDigit m] := by decide
    exact plain_append.mpr ⟨ih (n / 16), hdigit _ (Nat.mod_lt n (by decide))⟩

theorem plain_unitEscape (n : Nat) : (unitEscape n).Plain :=
  plain_append.mpr ⟨by decide, plain_hex 4 n⟩

theorem plain_escaped (c : CodePoint) : (escaped c).Plain := by
  rw [escaped]
  split
  · next h => rcases h with rfl | rfl <;> decide
  split
  · decide
  split
  · decide
  split
  · decide
  split
  · decide
  split
  · decide
  split
  · next h => exact plain_cons.mpr ⟨Or.inr h, by decide⟩
  split
  · exact plain_unitEscape _
  · exact plain_append.mpr ⟨plain_unitEscape _, plain_unitEscape _⟩

theorem plain_stringText (t : Text) : (stringText t).Plain := by
  have hbody : Text.Plain (t.flatMap escaped) := by
    intro c hc
    obtain ⟨d, -, hd⟩ := List.mem_flatMap.mp hc
    exact plain_escaped d c hd
  exact plain_append.mpr ⟨plain_append.mpr ⟨by decide, hbody⟩, by decide⟩

/-! ## Values -/

theorem plain_gap (layout : Layout) (level : Nat) : (layout.gap level).Plain := by
  cases layout with
  | line => exact List.forall_mem_nil _
  | indented width =>
    refine plain_append.mpr ⟨by decide, fun c hc => ?_⟩
    rw [List.eq_of_mem_replicate hc]
    decide

theorem plain_separator (layout : Layout) (level : Nat) : (layout.separator level).Plain := by
  cases layout with
  | line => exact (by decide : Text.Plain ", ")
  | indented width => exact plain_append.mpr ⟨by decide, plain_gap (.indented width) level⟩

mutual

theorem plain_render (layout : Layout) (level : Nat) : ∀ v : Json, (render layout level v).Plain
  | .null => by rw [render]; decide
  | .bool true => by rw [render]; decide
  | .bool false => by rw [render]; decide
  | .int i => plain_ofInt i
  | .double d => plain_doubleText d
  | .string t => plain_stringText t
  | .array [] => by rw [render]; decide
  | .array (v :: items) => by
    rw [render]
    simp only [plain_append]
    exact ⟨⟨⟨⟨⟨by decide, plain_gap layout _⟩, plain_render layout _ v⟩,
      plain_renderItems layout _ items⟩, plain_gap layout _⟩, by decide⟩
  | .object [] => by rw [render]; decide
  | .object ((k, v) :: members) => by
    rw [render]
    simp only [plain_append]
    exact ⟨⟨⟨⟨⟨⟨⟨by decide, plain_gap layout _⟩, plain_stringText k⟩, by decide⟩,
      plain_render layout _ v⟩, plain_renderMembers layout _ members⟩, plain_gap layout _⟩,
      by decide⟩

theorem plain_renderItems (layout : Layout) (level : Nat) : ∀ items : List Json,
    (renderItems layout level items).Plain
  | [] => by rw [renderItems]; decide
  | v :: items => by
    rw [renderItems]
    simp only [plain_append]
    exact ⟨⟨plain_separator layout level, plain_render layout level v⟩,
      plain_renderItems layout level items⟩

theorem plain_renderMembers (layout : Layout) (level : Nat) : ∀ members : List (Text × Json),
    (renderMembers layout level members).Plain
  | [] => by rw [renderMembers]; decide
  | (k, v) :: members => by
    rw [renderMembers]
    simp only [plain_append]
    exact ⟨⟨⟨⟨plain_separator layout level, plain_stringText k⟩, by decide⟩,
      plain_render layout level v⟩, plain_renderMembers layout level members⟩

end

end Json

end SchemaTransfer
