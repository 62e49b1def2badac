import Mathlib.Data.List.TakeWhile
import SchemaTransfer.Proofs.Json.Joined
import SchemaTransfer.Proofs.Json.Steps

/-!
# What reading gives

Behind every part that was read there is an end of the text. Whatever is read from text without
surrogates is portable: its strings may have surrogates, from escapes, but no pairs of them, because
the reader joins those.
-/
namespace SchemaTransfer

theorem Text.SurrogateFree.suffix {s t : Text} (ht : t.SurrogateFree) (h : s <:+ t) :
    s.SurrogateFree :=
  fun c hc => ht c (h.subset hc)

/-- A joined pair lies above all surrogates. -/
theorem CodePoint.FormPair.le_val_ofPair {a b : CodePoint} (h : a.FormPair b) :
    0x10000 ≤ (ofPair a b).val := by
  have hh := isHighSurrogate_iff.mp h.1
  have hl := isLowSurrogate_iff.mp h.2
  rw [ofPair, val_ofNat (by omega)]
  omega

namespace Json

theorem skipBlank_suffix (t : Text) : skipBlank t <:+ t := List.dropWhile_suffix _

/-! ## Escapes -/

theorem suffix_of_fourHex? {t rest : Text} {n : Nat} (h : fourHex? t = some (n, rest)) :
    rest <:+ t := by
  unfold fourHex? at h
  split at h
  · next a b c d tail =>
    split at h
    · cases h
      exact ⟨[a, b, c, d], rfl⟩
    · cases h
  · cases h

theorem secondHalf_eq_some {rest after : Text} {low : CodePoint}
    (h : secondHalf rest = .ok (some (low, after))) :
    low.isLowSurrogate = true ∧ after <:+ rest := by
  unfold secondHalf at h
  split at h
  · next a b tail =>
    split at h
    · split at h
      · cases h
      · next hf =>
        split at h
        · next hl =>
          cases h
          exact ⟨hl, (suffix_of_fourHex? hf).trans ⟨[a, b], rfl⟩⟩
        · cases h
    · cases h
  · cases h

/-- An escape stands for the number of its digits, or with the escape behind it for a pair. -/
theorem unicodeEscape_eq_ok {u c : CodePoint} {tail after : Text}
    (h : unicodeEscape u tail = .ok (c, after)) :
    ∃ n rest, fourHex? tail = some (n, rest) ∧ rest ≠ [] ∧
      (c = .ofNat n ∧ after = rest ∧ (c.isHighSurrogate = true → secondHalf after = .ok none) ∨
        0x10000 ≤ c.val ∧ after <:+ rest) := by
  unfold unicodeEscape at h
  split at h
  · cases h
  · cases h
  · next n rest hne hf =>
    refine ⟨n, rest, hf, hne, ?_⟩
    split at h
    · next hn =>
      split at h
      · cases h
      · next hs =>
        simp only [Except.ok.injEq, Prod.mk.injEq] at h
        obtain ⟨rfl, rfl⟩ := h
        obtain ⟨hl, hsuffix⟩ := secondHalf_eq_some hs
        exact Or.inr ⟨CodePoint.FormPair.le_val_ofPair ⟨hn, hl⟩, hsuffix⟩
      · next hs =>
        cases h
        exact Or.inl ⟨rfl, rfl, fun _ => hs⟩
    · next hn =>
      cases h
      exact Or.inl ⟨rfl, rfl, fun hc => absurd hc hn⟩

/-- A letter behind a backslash stands for an ASCII code point. -/
theorem val_lt_of_shortEscape? {c d : CodePoint} (h : shortEscape? c = some d) : d.val < 0x80 := by
  unfold shortEscape? at h
  split at h
  · next hc =>
    cases h
    rcases hc with rfl | rfl | rfl <;> decide
  repeat' split at h
  all_goals first
    | cases h; decide
    | cases h

theorem escape_eq_ok {opening tail after : Text} {b c : CodePoint}
    (h : escape opening b tail = .ok (c, after)) :
    (∃ rest, tail = CodePoint.ofChar 'u' :: rest ∧ unicodeEscape 'u' rest = .ok (c, after)) ∨
      c.val < 0x80 ∧ after <:+ tail := by
  unfold escape at h
  split at h
  · cases h
  · next d rest =>
    split at h
    · next hd =>
      subst hd
      exact Or.inl ⟨rest, rfl, h⟩
    · split at h
      · next hs =>
        cases h
        exact Or.inr ⟨val_lt_of_shortEscape? hs, List.suffix_cons d _⟩
      · cases h

theorem suffix_of_escape {opening tail after : Text} {b c : CodePoint}
    (h : escape opening b tail = .ok (c, after)) : after <:+ tail := by
  rcases escape_eq_ok h with ⟨rest, rfl, hu⟩ | ⟨-, hs⟩
  · obtain ⟨n, rest', hf, -, ⟨-, rfl, -⟩ | ⟨-, hs⟩⟩ := unicodeEscape_eq_ok hu
    · exact (suffix_of_fourHex? hf).trans (List.suffix_cons _ _)
    · exact (hs.trans (suffix_of_fourHex? hf)).trans (List.suffix_cons _ _)
  · exact hs

/-- Behind a high surrogate from an escape there is no escape of a low one. -/
theorem secondHalf_of_escape {opening tail after : Text} {b c : CodePoint}
    (h : escape opening b tail = .ok (c, after)) (hc : c.isHighSurrogate = true) :
    secondHalf after = .ok none := by
  have hh := CodePoint.isHighSurrogate_iff.mp hc
  rcases escape_eq_ok h with ⟨rest, rfl, hu⟩ | ⟨hlt, -⟩
  · obtain ⟨n, rest', -, -, ⟨-, rfl, hs⟩ | ⟨hle, -⟩⟩ := unicodeEscape_eq_ok hu
    · exact hs hc
    · omega
  · omega

/-! ## Strings -/

/-- What happens at the head of a string that is read to its end. -/
theorem stringBody_cons_eq_ok {opening t rest s : Text} {c : CodePoint}
    (h : stringBody opening (c :: t) = .ok (s, rest)) :
    (c = '"' ∧ s = [] ∧ rest = t) ∨
      (c = '\\' ∧ ∃ d after s', escape opening '\\' t = .ok (d, after) ∧
        stringBody opening after = .ok (s', rest) ∧ s = d :: s') ∨
      c ≠ '"' ∧ c ≠ '\\' ∧ ∃ s', stringBody opening t = .ok (s', rest) ∧ s = c :: s' := by
  rw [stringBody] at h
  split at h
  · next hc =>
    cases h
    exact Or.inl ⟨hc, rfl, rfl⟩
  next hquote =>
  split at h
  · next hc =>
    subst hc
    split at h
    · cases h
    · next d after he =>
      obtain ⟨⟨s', r⟩, hs, heq⟩ := map_eq_ok.mp h
      cases heq
      exact Or.inr (Or.inl ⟨rfl, d, after, s', he, hs, rfl⟩)
  next hbackslash =>
  split at h
  · cases h
  · obtain ⟨⟨s', r⟩, hs, heq⟩ := map_eq_ok.mp h
    cases heq
    exact Or.inr (Or.inr ⟨hquote, hbackslash, s', hs, rfl⟩)

/-- A low surrogate at the head of a string comes from an escape that a high surrogate in front of
it would have taken in. -/
theorem isLowSurrogate_head {opening t rest s : Text} (ht : t.SurrogateFree)
    (hs : secondHalf t = .ok none) (h : stringBody opening t = .ok (s, rest)) :
    ∀ d ∈ s.head?, d.isLowSurrogate = false := by
  cases t with
  | nil =>
    rw [stringBody] at h
    cases h
  | cons c t =>
    rcases stringBody_cons_eq_ok h with ⟨-, rfl, -⟩ | ⟨rfl, d, after, s', he, -, rfl⟩ |
      ⟨-, -, s', -, rfl⟩
    · intro d hd
      cases hd
    · intro _ hd
      cases hd
      rw [Bool.eq_false_iff]
      intro hlow
      have hval := CodePoint.isLowSurrogate_iff.mp hlow
      rcases escape_eq_ok he with ⟨tail, rfl, hu⟩ | ⟨hlt, -⟩
      · obtain ⟨n, tail', hf, hne, ⟨rfl, -⟩ | ⟨hle, -⟩⟩ := unicodeEscape_eq_ok hu
        · have hlen := length_of_fourHex? hf
          have hpos := List.length_pos_iff.mpr hne
          rw [secondHalf, if_pos ⟨rfl, rfl, by omega⟩, hf] at hs
          dsimp only at hs
          rw [if_pos hlow] at hs
          cases hs
        · omega
      · omega
    · intro _ hd
      cases hd
      have hc := CodePoint.isSurrogate_eq_false_iff.mp (ht c List.mem_cons_self)
      rw [Bool.eq_false_iff]
      intro hlow
      have hval := CodePoint.isLowSurrogate_iff.mp hlow
      omega

theorem suffix_of_stringBody {opening t rest s : Text}
    (h : stringBody opening t = .ok (s, rest)) : rest <:+ t := by
  -- The text gets shorter, by more than its head where that begins an escape.
  induction hn : t.length using Nat.strongRecOn generalizing t s with
  | ind n ih =>
    cases t with
    | nil =>
      rw [stringBody] at h
      cases h
    | cons c t =>
      subst hn
      have htail : t <:+ c :: t := List.suffix_cons c t
      rcases stringBody_cons_eq_ok h with
        ⟨-, -, rfl⟩ | ⟨rfl, d, after, s', he, hs, -⟩ | ⟨-, -, s', hs, -⟩
      · exact htail
      · have hafter := suffix_of_escape he
        have hr := ih after.length (Nat.lt_succ_of_le hafter.length_le) hs rfl
        exact (hr.trans hafter).trans htail
      · exact (ih t.length (Nat.lt_succ_self _) hs rfl).trans htail

theorem unpaired_of_stringBody {opening t rest s : Text} (ht : t.SurrogateFree)
    (h : stringBody opening t = .ok (s, rest)) : s.Unpaired := by
  induction hn : t.length using Nat.strongRecOn generalizing t s with
  | ind n ih =>
    cases t with
    | nil =>
      rw [stringBody] at h
      cases h
    | cons c t =>
      subst hn
      have htail : t <:+ c :: t := List.suffix_cons c t
      rcases stringBody_cons_eq_ok h with
        ⟨-, rfl, -⟩ | ⟨rfl, d, after, s', he, hs, rfl⟩ | ⟨-, -, s', hs, rfl⟩
      · exact List.isChain_nil
      · have hafter := suffix_of_escape he
        have hfree := ht.suffix (hafter.trans htail)
        have hu := ih after.length (Nat.lt_succ_of_le hafter.length_le) hfree hs rfl
        refine Text.unpaired_cons.mpr ⟨fun e hd hp => ?_, hu⟩
        have hlow := isLowSurrogate_head hfree (secondHalf_of_escape he hp.1) hs e hd
        rw [hp.2] at hlow
        cases hlow
      · have hu := ih t.length (Nat.lt_succ_self _) (ht.suffix htail) hs rfl
        refine Text.unpaired_cons.mpr ⟨fun e _ hp => ?_, hu⟩
        have hc := CodePoint.isSurrogate_eq_false_iff.mp (ht c List.mem_cons_self)
        have hh := CodePoint.isHighSurrogate_iff.mp hp.1
        omega

/-! ## Numbers and words -/

theorem integerPart?_eq_some {t digits rest : Text} (h : integerPart? t = some (digits, rest)) :
    digits ≠ [] ∧ AllDigits digits ∧ rest <:+ t := by
  unfold integerPart? at h
  split at h
  · cases h
  · next c tail =>
    split at h
    · next hc =>
      cases h
      subst hc
      exact ⟨by simp, allDigits_zeros 1, List.suffix_cons _ _⟩
    split at h
    · next hc =>
      cases h
      refine ⟨?_, fun d hd => List.mem_takeWhile_imp hd, List.dropWhile_suffix _⟩
      rw [List.takeWhile_cons_of_pos hc]
      simp
    · cases h

theorem suffix_of_fractionPart? {t digits rest : Text}
    (h : fractionPart? t = some (digits, rest)) : rest <:+ t := by
  unfold fractionPart? at h
  split at h
  · split at h
    · cases h
      exact (List.dropWhile_suffix _).trans (List.suffix_cons _ _)
    · cases h
  · cases h

theorem exponentSign_suffix (t : Text) : (exponentSign t).2 <:+ t := by
  unfold exponentSign
  split
  · exact List.suffix_refl _
  split
  · exact List.suffix_cons _ _
  split
  · exact List.suffix_cons _ _
  · exact List.suffix_refl _

theorem suffix_of_exponentPart? {t rest : Text} {power : Int}
    (h : exponentPart? t = some (power, rest)) : rest <:+ t := by
  unfold exponentPart? at h
  split at h
  · cases h
  split at h
  · next c tail _ =>
    have hsign := exponentSign_suffix tail
    dsimp only at h
    split at h
    · cases h
    · simp only [Option.some.injEq, Prod.mk.injEq] at h
      rw [← h.2]
      exact ((List.dropWhile_suffix _).trans hsign).trans (List.suffix_cons c tail)
  · cases h

/-- What is left behind a part that may be missing. -/
theorem getD_rest {α : Type} {p : Text → Prop} {t : Text} {x : Option (α × Text)} (ht : p t)
    (h : ∀ a rest, x = some (a, rest) → p rest) : p ((x.map Prod.snd).getD t) := by
  cases x with
  | none => exact ht
  | some r => exact h r.1 r.2 rfl

theorem portable_of_magnitude {negative : Bool} {start t : Text} {v : Json} {rest : Text}
    (h : magnitude negative start t = .ok (v, rest)) : v.Portable ∧ rest <:+ t := by
  unfold magnitude at h
  split at h
  · cases h
  · next digits tail hi =>
    obtain ⟨hne, hall, htail⟩ := integerPart?_eq_some hi
    have hfraction : ((fractionPart? tail).map Prod.snd).getD tail <:+ tail :=
      getD_rest (p := (· <:+ tail)) (List.suffix_refl _) fun _ _ => suffix_of_fractionPart?
    have hexponent : ∀ t, ((exponentPart? t).map Prod.snd).getD t <:+ t :=
      fun t => getD_rest (p := (· <:+ t)) (List.suffix_refl t) fun _ _ => suffix_of_exponentPart?
    dsimp only at h
    split at h
    · cases h
      exact ⟨⟨trivial, trivial, trivial⟩, ((hexponent _).trans hfraction).trans htail⟩
    split at h
    · cases h
    · next hlen =>
      cases h
      refine ⟨⟨trivial, ?_, trivial⟩, ((hexponent _).trans hfraction).trans htail⟩
      have hle := Text.length_decimalDigits_digitsValue hne hall
      have habs : (if negative then -(Text.digitsValue digits : Int)
          else Text.digitsValue digits).natAbs = Text.digitsValue digits := by
        split <;> omega
      show FewDigits _
      rw [fewDigits_iff, habs]
      omega

theorem portable_of_scalar {t : Text} {v : Json} {rest : Text} (h : scalar t = .ok (v, rest)) :
    v.Portable ∧ rest <:+ t := by
  unfold scalar at h
  split at h
  · next w hw =>
    cases h
    refine ⟨?_, List.drop_suffix _ _⟩
    have hmem := List.mem_of_find?_eq_some hw
    simp only [words, List.mem_cons, List.not_mem_nil, or_false] at hmem
    rcases hmem with rfl | rfl | rfl | rfl | rfl | rfl <;> exact ⟨trivial, trivial, trivial⟩
  · unfold number at h
    split at h
    · cases h
    split at h
    · obtain ⟨hp, hs⟩ := portable_of_magnitude h
      exact ⟨hp, hs.trans (List.suffix_cons _ _)⟩
    · exact portable_of_magnitude h

/-! ## What is left behind a value -/

/-- What is left behind a value that was read is an end of the text. -/
def LeavesEnd (reader : Text → Except Stop (Json × Text)) : Prop :=
  ∀ t v rest, reader t = .ok (v, rest) → rest <:+ t

theorem suffix_of_continues {close : CodePoint} {rest behind : Text} {done v : Json}
    {next : Text → Except Stop (Json × Text)} (hnext : LeavesEnd next)
    (h : Continues close rest done next (v, behind)) : behind <:+ rest := by
  cases h with
  | close after hr h =>
    cases h
    exact (List.suffix_cons close behind).trans (hr ▸ skipBlank_suffix rest)
  | comma after hr h =>
    have hafter := (List.suffix_cons _ after).trans (hr ▸ skipBlank_suffix rest)
    exact ((hnext _ _ _ h).trans (skipBlank_suffix after)).trans hafter

theorem value_leavesEnd {fuel : Nat} (hm : LeavesEnd (members fuel []))
    (he : LeavesEnd (elements fuel [])) : LeavesEnd (value (fuel + 1)) := by
  intro t v rest h
  have hbehind : ∀ {c : CodePoint} {t s : Text}, s <:+ skipBlank t → s <:+ c :: t :=
    fun hs => (hs.trans (skipBlank_suffix _)).trans (List.suffix_cons _ _)
  cases valueStep_of_value h with
  | string hs => exact (suffix_of_stringBody hs).trans (List.suffix_cons _ _)
  | emptyObject hb => exact hbehind (hb ▸ List.suffix_cons _ _)
  | object hm' => exact hbehind (hm _ _ _ hm')
  | emptyArray hb => exact hbehind (hb ▸ List.suffix_cons _ _)
  | array he' => exact hbehind (he _ _ _ he')
  | scalar hs => exact (portable_of_scalar hs).2

theorem elements_leavesEnd {fuel : Nat} (hv : LeavesEnd (value fuel))
    (he : ∀ done, LeavesEnd (elements fuel done)) (done : List Json) :
    LeavesEnd (elements (fuel + 1) done) := by
  intro t w behind h
  obtain ⟨v, rest, hread, hc⟩ := elements_eq_ok.mp h
  exact (suffix_of_continues (he _) hc).trans (hv t v rest hread)

/-- The text from the value of a member on. -/
theorem suffix_of_member {body key colon afterColon : Text}
    (hs : stringBody ('"' :: body) body = .ok (key, colon))
    (hc : skipBlank colon = CodePoint.ofChar ':' :: afterColon) :
    skipBlank afterColon <:+ CodePoint.ofChar '"' :: body := by
  have hcolon := (List.suffix_cons _ afterColon).trans (hc ▸ skipBlank_suffix colon)
  have hbody := (suffix_of_stringBody hs).trans (List.suffix_cons (CodePoint.ofChar '"') body)
  exact ((skipBlank_suffix afterColon).trans hcolon).trans hbody

theorem members_leavesEnd {fuel : Nat} (hv : LeavesEnd (value fuel))
    (hm : ∀ done, LeavesEnd (members fuel done)) (done : List (Text × Json)) :
    LeavesEnd (members (fuel + 1) done) := by
  intro t w behind h
  obtain ⟨body, key, colon, afterColon, v, rest, rfl, hs, hcolon, hread, hc⟩ := members_eq_ok.mp h
  have hrest := (hv _ v rest hread).trans (suffix_of_member hs hcolon)
  exact (suffix_of_continues (hm _) hc).trans hrest

theorem leavesEnd (fuel : Nat) : LeavesEnd (value fuel) ∧
    (∀ done, LeavesEnd (elements fuel done)) ∧ ∀ done, LeavesEnd (members fuel done) := by
  induction fuel with
  | zero =>
    refine ⟨fun t v rest h => ?_, fun done t v rest h => ?_, fun done t v rest h => ?_⟩
    all_goals cases h
  | succ fuel ih =>
    obtain ⟨hv, he, hm⟩ := ih
    exact ⟨value_leavesEnd (hm []) (he []), elements_leavesEnd hv he, members_leavesEnd hv hm⟩

theorem suffix_of_value {fuel : Nat} {t rest : Text} {v : Json}
    (h : value fuel t = .ok (v, rest)) : rest <:+ t :=
  (leavesEnd fuel).1 t v rest h

/-! ## Values -/

theorem portable_put {k : Text} {v : Json} {members : List (Text × Json)}
    (hm : Portable (.object members)) (hk : k.Unpaired) (hv : v.Portable) :
    Portable (.object (Entries.put k v members)) := by
  obtain ⟨hd, hu, hmem⟩ := portable_object.mp hm
  refine portable_object.mpr ⟨Entries.nodup_keys_put k v hd, fun key hkey => ?_, fun m hput => ?_⟩
  · rw [Entries.keys_put] at hkey
    split at hkey
    · exact hu key hkey
    · rcases List.mem_append.mp hkey with h | h
      · exact hu key h
      · rw [List.mem_singleton.mp h]
        exact hk
  · rcases Entries.mem_put hput with rfl | h
    · exact hv
    · exact hmem m h

/-- From text without surrogates a portable value is read. -/
def Yields (reader : Text → Except Stop (Json × Text)) : Prop :=
  ∀ t v rest, t.SurrogateFree → reader t = .ok (v, rest) → v.Portable

theorem yields_of_continues {close : CodePoint} {rest behind : Text} {done v : Json}
    {next : Text → Except Stop (Json × Text)} (hdone : done.Portable) (hnext : Yields next)
    (hr : rest.SurrogateFree) (h : Continues close rest done next (v, behind)) : v.Portable := by
  cases h with
  | close after hb h =>
    cases h
    exact hdone
  | comma after hb h =>
    have hafter := (List.suffix_cons _ after).trans (hb ▸ skipBlank_suffix rest)
    exact hnext _ _ _ (hr.suffix ((skipBlank_suffix after).trans hafter)) h

theorem value_yields {fuel : Nat} (hm : Yields (members fuel [])) (he : Yields (elements fuel [])) :
    Yields (value (fuel + 1)) := by
  intro t v rest ht h
  have hbehind : ∀ {c : CodePoint} {t : Text}, skipBlank t <:+ c :: t :=
    (skipBlank_suffix _).trans (List.suffix_cons _ _)
  cases valueStep_of_value h with
  | string hs =>
    exact ⟨trivial, trivial, unpaired_of_stringBody (ht.suffix (List.suffix_cons _ _)) hs⟩
  | emptyObject =>
    exact portable_object.mpr ⟨List.nodup_nil, by simp [Entries.keys], by simp⟩
  | object hm' => exact hm _ _ _ (ht.suffix hbehind) hm'
  | emptyArray => exact portable_array.mpr (by simp)
  | array he' => exact he _ _ _ (ht.suffix hbehind) he'
  | scalar hs => exact (portable_of_scalar hs).1

theorem elements_yields {fuel : Nat} (hv : Yields (value fuel))
    (he : ∀ done : List Json, (∀ v ∈ done, v.Portable) → Yields (elements fuel done))
    {done : List Json} (hdone : ∀ v ∈ done, v.Portable) : Yields (elements (fuel + 1) done) := by
  intro t w behind ht h
  obtain ⟨v, rest, hread, hc⟩ := elements_eq_ok.mp h
  have hp := hv t v rest ht hread
  have hall : ∀ u ∈ v :: done, u.Portable := List.forall_mem_cons.mpr ⟨hp, hdone⟩
  have harray : Portable (.array (done.reverse ++ [v])) := by
    refine portable_array.mpr fun u hu => hall u ?_
    simpa [or_comm] using hu
  exact yields_of_continues harray (he _ hall) (ht.suffix (suffix_of_value hread)) hc

theorem members_yields {fuel : Nat} (hv : Yields (value fuel))
    (hm : ∀ done : List (Text × Json), Portable (.object done) → Yields (members fuel done))
    {done : List (Text × Json)} (hdone : Portable (.object done)) :
    Yields (members (fuel + 1) done) := by
  intro t w behind ht h
  obtain ⟨body, key, colon, afterColon, v, rest, rfl, hs, hcolon, hread, hc⟩ := members_eq_ok.mp h
  have hkey := unpaired_of_stringBody (ht.suffix (List.suffix_cons _ _)) hs
  have hafter := suffix_of_member hs hcolon
  have hp := hv _ v rest (ht.suffix hafter) hread
  have hput := portable_put hdone hkey hp
  have hrest := (suffix_of_value hread).trans hafter
  exact yields_of_continues hput (hm _ hput) (ht.suffix hrest) hc

theorem yields (fuel : Nat) : Yields (value fuel) ∧
    (∀ done : List Json, (∀ v ∈ done, v.Portable) → Yields (elements fuel done)) ∧
    ∀ done : List (Text × Json), Portable (.object done) → Yields (members fuel done) := by
  induction fuel with
  | zero =>
    refine ⟨fun t v rest _ h => ?_, fun done _ t v rest _ h => ?_, fun done _ t v rest _ h => ?_⟩
    all_goals cases h
  | succ fuel ih =>
    obtain ⟨hv, he, hm⟩ := ih
    have hempty : Portable (.object []) :=
      portable_object.mpr ⟨List.nodup_nil, by simp [Entries.keys], by simp⟩
    exact ⟨value_yields (hm [] hempty) (he [] (by simp)), fun _ => elements_yields hv he,
      fun _ => members_yields hv hm⟩

theorem document_of_read {t : Text} {v : Json} (h : read t = .ok v) : document t = .ok v :=
  mapError_eq_ok.mp h

/-- Text without surrogates, if it is read at all, is read as a portable value. -/
theorem portable_of_read {t : Text} {v : Json} (ht : t.SurrogateFree) (h : read t = .ok v) :
    v.Portable := by
  have hdoc := document_of_read h
  unfold document at hdoc
  split at hdoc
  · cases hdoc
  · obtain ⟨⟨w, rest⟩, hv, hend⟩ := bind_eq_ok.mp hdoc
    dsimp only at hend
    split at hend
    · cases hend
      exact (yields _).1 _ _ _ (ht.suffix (skipBlank_suffix t)) hv
    · cases hend

end Json

end SchemaTransfer
