import Mathlib.Data.List.Chain
import SchemaTransfer.Text.CodePoint

/-!
# Surrogates in text

A high surrogate with a low one right behind it is written as the escapes of a pair, and what is
read from those is the one code point that the pair stands for. Text without such neighbours is not
changed by that, and text from UTF-8 has no surrogates at all.
-/
namespace SchemaTransfer

namespace CodePoint

theorem isHighSurrogate_iff {c : CodePoint} :
    c.isHighSurrogate = true ↔ 0xD800 ≤ c.val ∧ c.val < 0xDC00 := by
  simp [isHighSurrogate]

theorem isLowSurrogate_iff {c : CodePoint} :
    c.isLowSurrogate = true ↔ 0xDC00 ≤ c.val ∧ c.val < 0xE000 := by
  simp [isLowSurrogate]

theorem isSurrogate_eq_false_iff {c : CodePoint} :
    c.isSurrogate = false ↔ c.val < 0xD800 ∨ 0xE000 ≤ c.val := by
  simp only [isSurrogate, Bool.and_eq_false_iff, decide_eq_false_iff_not]
  omega

/-- The halves of a pair: two code points that together are read as one. -/
def FormPair (high low : CodePoint) : Prop :=
  high.isHighSurrogate = true ∧ low.isLowSurrogate = true

instance (high low : CodePoint) : Decidable (FormPair high low) :=
  inferInstanceAs (Decidable (_ ∧ _))

end CodePoint

namespace Text

/-- Text that UTF-8 can hold. -/
def SurrogateFree (t : Text) : Prop := ∀ c ∈ t, c.isSurrogate = false

/-- Text in which no high surrogate stands right before a low one. -/
def Unpaired (t : Text) : Prop := t.IsChain fun a b => ¬ a.FormPair b

instance (t : Text) : Decidable t.Unpaired :=
  inferInstanceAs (Decidable (t.IsChain fun a b => ¬ a.FormPair b))

/-- The text with every high surrogate joined to a low one right behind it. -/
def joined : Text → Text
  | [] => []
  | [c] => [c]
  | c :: d :: rest => if c.FormPair d then .ofPair c d :: joined rest else c :: joined (d :: rest)

theorem unpaired_cons {c : CodePoint} {t : Text} :
    Unpaired (c :: t) ↔ (∀ d ∈ t.head?, ¬ c.FormPair d) ∧ Unpaired t :=
  List.isChain_cons

theorem joined_eq_self {t : Text} (h : t.Unpaired) : t.joined = t := by
  fun_induction joined t with
  | case1 => rfl
  | case2 c => rfl
  | case3 c d rest hp ih => exact absurd hp ((unpaired_cons.mp h).1 d rfl)
  | case4 c d rest hp ih => rw [ih (unpaired_cons.mp h).2]

theorem SurrogateFree.unpaired {t : Text} (h : t.SurrogateFree) : t.Unpaired := by
  induction t with
  | nil => exact List.isChain_nil
  | cons c t ih =>
    refine unpaired_cons.mpr ⟨fun d _ hp => ?_, ih fun d hd => h d (by simp [hd])⟩
    have hc := CodePoint.isSurrogate_eq_false_iff.mp (h c (by simp))
    have hh := CodePoint.isHighSurrogate_iff.mp hp.1
    omega

/-- Joining changes nothing where the outcome has no code points above FFFF, since a joined pair is
one of those. -/
theorem eq_of_joined_eq {s t : Text} (hs : ∀ c ∈ s, c.val < 0x10000) (h : t.joined = s) : t = s := by
  fun_induction joined t generalizing s with
  | case1 => exact h
  | case2 c => exact h
  | case3 c d rest hp ih =>
    subst h
    have hlt := hs (CodePoint.ofPair c d) List.mem_cons_self
    have hh := CodePoint.isHighSurrogate_iff.mp hp.1
    have hl := CodePoint.isLowSurrogate_iff.mp hp.2
    rw [CodePoint.ofPair, CodePoint.val_ofNat (by omega)] at hlt
    omega
  | case4 c d rest hp ih =>
    subst h
    rw [← ih (fun c hc => hs c (by simp [hc])) rfl]

end Text

end SchemaTransfer
