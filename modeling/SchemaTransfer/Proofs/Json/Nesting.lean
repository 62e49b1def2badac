import SchemaTransfer.Json.Nesting
import SchemaTransfer.Proofs.Json.Outcome

/-!
# Room for what is read

There is room for a text with few opening brackets. What is read from a text for which there is room
nests no deeper than the room: each part that is read leaves the level of brackets as it was, and
that level bounds how deep the value lies.
-/
namespace SchemaTransfer.Json

variable {room level n : Nat} {t rest : Text} {v : Json}

/-! ## Few brackets -/

def opens (c : CodePoint) : Bool := c = '[' || c = '{'

/-- Each bracket that opens takes one place at most. -/
theorem overflowFrom?_eq_none {position : Position} (h : level + t.countP opens ≤ room) :
    overflowFrom? room level position t = none := by
  induction t generalizing level position with
  | nil => cases position <;> rfl
  | cons c rest ih =>
    rw [List.countP_cons] at h
    cases position with
    | escaped => exact ih (by omega)
    | quoted => exact ih (by omega)
    | outside =>
      have hopens : c = '[' ∨ c = '{' → opens c = true := by
        rintro (rfl | rfl) <;> rfl
      have hroom : c = '[' ∨ c = '{' → level + 1 + rest.countP opens ≤ room := by
        intro hc
        rw [if_pos (hopens hc)] at h
        omega
      rw [overflowFrom?]
      split
      · exact ih (by omega)
      split
      · next hc =>
        have hrest := hroom (Or.inl hc)
        rw [if_pos (by omega)]
        exact ih hrest
      split
      · next hc =>
        have hrest := hroom (Or.inr hc)
        rw [if_pos (by omega)]
        exact ih hrest
      split
      · exact ih (by omega)
      · exact ih (by omega)

/-- A text with no more opening brackets than there is room is not too deep. -/
theorem overflow?_eq_none (h : t.countP opens ≤ room) : overflow? room t = none := by
  refine overflowFrom?_eq_none ?_
  rw [Nat.zero_add, traversed]
  split
  · exact h
  · exact ((List.take_sublist _ _).countP_le).trans h

/-! ## Depth -/

mutual

/-- How many arrays and objects lie one inside the other in a value. -/
def depth : Json → Nat
  | .array items => depthItems items + 1
  | .object members => depthMembers members + 1
  | .null | .bool _ | .int _ | .double _ | .string _ => 0

def depthItems : List Json → Nat
  | [] => 0
  | v :: rest => max (depth v) (depthItems rest)

def depthMembers : List (Text × Json) → Nat
  | [] => 0
  | (_, v) :: rest => max (depth v) (depthMembers rest)

end

theorem depth_array_le {items : List Json} (h : ∀ v ∈ items, v.depth ≤ n) :
    (array items).depth ≤ n + 1 := by
  rw [depth]
  refine Nat.succ_le_succ ?_
  induction items with
  | nil => exact Nat.zero_le n
  | cons v rest ih =>
    obtain ⟨hv, hrest⟩ := List.forall_mem_cons.mp h
    exact max_le hv (ih hrest)

theorem depth_object_le {members : List (Text × Json)} (h : ∀ m ∈ members, m.2.depth ≤ n) :
    (object members).depth ≤ n + 1 := by
  rw [depth]
  refine Nat.succ_le_succ ?_
  induction members with
  | nil => exact Nat.zero_le n
  | cons m rest ih =>
    obtain ⟨hm, hrest⟩ := List.forall_mem_cons.mp h
    exact max_le hm (ih hrest)

/-! ## Parts without brackets -/

def isStructural (c : CodePoint) : Bool := opens c || c = ']' || c = '}' || c = '"'

/-- What is read of a text is neither a quote nor a bracket. -/
def PassesOver (t rest : Text) : Prop := ∃ s, s ++ rest = t ∧ ∀ c ∈ s, isStructural c = false

theorem passesOver_refl (t : Text) : PassesOver t t := ⟨[], rfl, List.forall_mem_nil _⟩

theorem passesOver_cons {c : CodePoint} (hc : isStructural c = false) (t : Text) :
    PassesOver (c :: t) t := ⟨[c], rfl, List.forall_mem_singleton.mpr hc⟩

theorem PassesOver.trans {s : Text} (h : PassesOver s t) (h' : PassesOver t rest) :
    PassesOver s rest := by
  obtain ⟨a, rfl, ha⟩ := h
  obtain ⟨b, rfl, hb⟩ := h'
  exact ⟨a ++ b, List.append_assoc a b rest, List.forall_mem_append.mpr ⟨ha, hb⟩⟩

theorem passesOver_dropWhile {p : CodePoint → Bool} (h : ∀ c, p c → isStructural c = false)
    (t : Text) : PassesOver t (t.dropWhile p) :=
  ⟨t.takeWhile p, List.takeWhile_append_dropWhile, fun c hc => h c (List.mem_takeWhile_imp hc)⟩

theorem overflowFrom?_cons {c : CodePoint} (hc : isStructural c = false) :
    overflowFrom? room level .outside (c :: t) = overflowFrom? room level .outside t := by
  simp only [isStructural, opens, Bool.or_eq_false_iff, decide_eq_false_iff_not] at hc
  obtain ⟨⟨⟨⟨harray, hobject⟩, harrayEnd⟩, hobjectEnd⟩, hquote⟩ := hc
  rw [overflowFrom?, if_neg hquote, if_neg harray, if_neg hobject,
    if_neg (not_or.mpr ⟨harrayEnd, hobjectEnd⟩)]

theorem PassesOver.overflowFrom?_eq (h : PassesOver t rest) :
    overflowFrom? room level .outside t = overflowFrom? room level .outside rest := by
  obtain ⟨s, rfl, hs⟩ := h
  induction s with
  | nil => rfl
  | cons c s ih =>
    obtain ⟨hc, hs⟩ := List.forall_mem_cons.mp hs
    exact (overflowFrom?_cons hc).trans (ih hs)

theorem isStructural_of_isBlank {c : CodePoint} (h : isBlank c) : isStructural c = false := by
  simp only [isBlank, Bool.or_eq_true, decide_eq_true_eq] at h
  rcases h with ((rfl | rfl) | rfl) | rfl <;> decide

theorem isStructural_of_isAsciiDigit {c : CodePoint} (h : c.isAsciiDigit) :
    isStructural c = false := by
  rw [Bool.eq_false_iff]
  intro hc
  simp only [isStructural, opens, Bool.or_eq_true, decide_eq_true_eq] at hc
  rcases hc with (((rfl | rfl) | rfl) | rfl) | rfl <;> exact absurd h (by decide)

theorem overflowFrom?_skipBlank (t : Text) :
    overflowFrom? room level .outside (skipBlank t) = overflowFrom? room level .outside t :=
  (passesOver_dropWhile (fun _ => isStructural_of_isBlank) t).overflowFrom?_eq.symm

/-! ## Numbers and words -/

theorem passesOver_digits (t : Text) : PassesOver t (t.dropWhile (·.isAsciiDigit)) :=
  passesOver_dropWhile (fun _ => isStructural_of_isAsciiDigit) t

theorem passesOver_integerPart? {digits : Text} (h : integerPart? t = some (digits, rest)) :
    PassesOver t rest := by
  unfold integerPart? at h
  split at h
  · cases h
  split at h
  · next hc =>
    cases h
    exact passesOver_cons (hc ▸ rfl) _
  split at h
  · cases h
    exact passesOver_digits _
  · cases h

theorem passesOver_fractionPart? {digits : Text} (h : fractionPart? t = some (digits, rest)) :
    PassesOver t rest := by
  unfold fractionPart? at h
  split at h
  · split at h
    · next hc =>
      cases h
      exact (passesOver_cons (hc.1 ▸ rfl) _).trans (passesOver_digits _)
    · cases h
  · cases h

theorem passesOver_exponentSign (t : Text) : PassesOver t (exponentSign t).2 := by
  unfold exponentSign
  split
  · exact passesOver_refl _
  split
  · next hc => exact passesOver_cons (hc ▸ rfl) _
  split
  · next hc => exact passesOver_cons (hc ▸ rfl) _
  · exact passesOver_refl _

theorem passesOver_exponentPart? {power : Int} (h : exponentPart? t = some (power, rest)) :
    PassesOver t rest := by
  unfold exponentPart? at h
  split at h
  · cases h
  split at h
  · next c tail hc =>
    have hmark : isStructural c = false := by
      rcases hc with rfl | rfl <;> rfl
    dsimp only at h
    split at h
    · cases h
    · simp only [Option.some.injEq, Prod.mk.injEq] at h
      rw [← h.2]
      exact ((passesOver_cons hmark tail).trans (passesOver_exponentSign tail)).trans
        (passesOver_digits _)
  · cases h

theorem passesOver_magnitude {negative : Bool} {start : Text}
    (h : magnitude negative start t = .ok (v, rest)) : v.depth = 0 ∧ PassesOver t rest := by
  unfold magnitude at h
  split at h
  · cases h
  · next digits tail hi =>
    have htail := passesOver_integerPart? hi
    have hfraction : PassesOver tail (((fractionPart? tail).map Prod.snd).getD tail) :=
      getD_rest (passesOver_refl _) fun _ _ => passesOver_fractionPart?
    have hexponent : ∀ t, PassesOver t (((exponentPart? t).map Prod.snd).getD t) :=
      fun t => getD_rest (passesOver_refl t) fun _ _ => passesOver_exponentPart?
    have hall := (htail.trans hfraction).trans (hexponent _)
    dsimp only at h
    split at h
    · cases h
      exact ⟨rfl, hall⟩
    split at h
    · cases h
    · cases h
      exact ⟨rfl, hall⟩

theorem passesOver_scalar (h : scalar t = .ok (v, rest)) : v.depth = 0 ∧ PassesOver t rest := by
  unfold scalar at h
  split at h
  · next w hw =>
    cases h
    have hwords : ∀ w ∈ words, w.2.depth = 0 ∧ ∀ c ∈ w.1, isStructural c = false := by decide
    obtain ⟨hdepth, hword⟩ := hwords w (List.mem_of_find?_eq_some hw)
    have hprefix := List.find?_some hw
    obtain ⟨tail, htail⟩ := List.isPrefixOf_iff_prefix.mp hprefix
    rw [← htail, List.drop_left]
    exact ⟨hdepth, w.1, rfl, hword⟩
  · unfold number at h
    split at h
    · cases h
    split at h
    · next hc =>
      obtain ⟨hdepth, hpasses⟩ := passesOver_magnitude h
      exact ⟨hdepth, (passesOver_cons (hc ▸ rfl) _).trans hpasses⟩
    · exact passesOver_magnitude h

/-! ## Strings -/

theorem overflowFrom?_escaped (c : CodePoint) (t : Text) :
    overflowFrom? room level .escaped (c :: t) = overflowFrom? room level .quoted t := rfl

theorem overflowFrom?_quoted {c : CodePoint} (hquote : c ≠ '"') (hbackslash : c ≠ '\\') :
    overflowFrom? room level .quoted (c :: t) = overflowFrom? room level .quoted t := by
  rw [overflowFrom?, if_neg hquote, if_neg hbackslash]

theorem overflowFrom?_hexDigit {c : CodePoint} {k : Nat} (h : c.hexValue? = some k) :
    overflowFrom? room level .quoted (c :: t) = overflowFrom? room level .quoted t := by
  refine overflowFrom?_quoted ?_ ?_ <;>
  · rintro rfl
    cases h

theorem overflowFrom?_fourHex? {k : Nat} (h : fourHex? t = some (k, rest)) :
    overflowFrom? room level .quoted t = overflowFrom? room level .quoted rest := by
  unfold fourHex? at h
  split at h
  · split at h
    · next ha hb hc hd =>
      cases h
      rw [overflowFrom?_hexDigit ha, overflowFrom?_hexDigit hb, overflowFrom?_hexDigit hc,
        overflowFrom?_hexDigit hd]
    · cases h
  · cases h

theorem overflowFrom?_secondHalf {low : CodePoint} (h : secondHalf t = .ok (some (low, rest))) :
    overflowFrom? room level .quoted t = overflowFrom? room level .quoted rest := by
  unfold secondHalf at h
  split at h
  · next a b tail =>
    split at h
    · next hescape =>
      obtain ⟨rfl, rfl, -⟩ := hescape
      have hpair : overflowFrom? room level .quoted
          (CodePoint.ofChar '\\' :: CodePoint.ofChar 'u' :: tail) =
        overflowFrom? room level .quoted tail := rfl
      split at h
      · cases h
      · next hf =>
        split at h
        · cases h
          exact hpair.trans (overflowFrom?_fourHex? hf)
        · cases h
    · cases h
  · cases h

theorem overflowFrom?_unicodeEscape {u c : CodePoint} (h : unicodeEscape u t = .ok (c, rest)) :
    overflowFrom? room level .quoted t = overflowFrom? room level .quoted rest := by
  unfold unicodeEscape at h
  split at h
  · cases h
  · cases h
  · next hf =>
    split at h
    · split at h
      · cases h
      · next hs =>
        simp only [Except.ok.injEq, Prod.mk.injEq] at h
        obtain ⟨-, rfl⟩ := h
        exact (overflowFrom?_fourHex? hf).trans (overflowFrom?_secondHalf hs)
      · cases h
        exact overflowFrom?_fourHex? hf
    · cases h
      exact overflowFrom?_fourHex? hf

theorem overflowFrom?_escape {opening : Text} {b c : CodePoint}
    (h : escape opening b t = .ok (c, rest)) :
    overflowFrom? room level .escaped t = overflowFrom? room level .quoted rest := by
  unfold escape at h
  split at h
  · cases h
  · rw [overflowFrom?_escaped]
    split at h
    · exact overflowFrom?_unicodeEscape h
    split at h
    · cases h
      rfl
    · cases h

theorem overflowFrom?_stringBody {opening s : Text} (h : stringBody opening t = .ok (s, rest)) :
    overflowFrom? room level .quoted t = overflowFrom? room level .outside rest := by
  induction hn : t.length using Nat.strongRecOn generalizing t s with
  | ind n ih =>
    cases t with
    | nil =>
      rw [stringBody] at h
      cases h
    | cons c t =>
      subst hn
      rcases stringBody_cons_eq_ok h with
        ⟨rfl, -, rfl⟩ | ⟨rfl, d, after, s', he, hs, -⟩ | ⟨hquote, hbackslash, s', hs, -⟩
      · rfl
      · have hafter := (suffix_of_escape he).length_le
        exact (overflowFrom?_escape he).trans (ih after.length (Nat.lt_succ_of_le hafter) hs rfl)
      · exact (overflowFrom?_quoted hquote hbackslash).trans
          (ih t.length (Nat.lt_succ_self _) hs rfl)

/-! ## Values -/

/-- A reader that begins at one level of brackets and is left at another, and reads what is no
deeper than `n`, if there is room for the text. -/
def Fits (room inner outer n : Nat) (reader : Text → Except Stop (Json × Text)) : Prop :=
  ∀ t v rest, reader t = .ok (v, rest) → overflowFrom? room inner .outside t = none →
    v.depth ≤ n ∧ overflowFrom? room outer .outside rest = none

theorem fits_of_continues {close : CodePoint} {done : Json} {behind : Text}
    {next : Text → Except Stop (Json × Text)}
    (hclose : ∀ t, overflowFrom? room (level + 1) .outside (close :: t) =
      overflowFrom? room level .outside t)
    (hdone : done.depth ≤ n + 1) (hnext : Fits room (level + 1) level (n + 1) next)
    (hroom : overflowFrom? room (level + 1) .outside rest = none)
    (h : Continues close rest done next (v, behind)) :
    v.depth ≤ n + 1 ∧ overflowFrom? room level .outside behind = none := by
  rw [← overflowFrom?_skipBlank] at hroom
  cases h with
  | close after hr h =>
    cases h
    rw [hr, hclose] at hroom
    exact ⟨hdone, hroom⟩
  | comma after hr h =>
    rw [hr, overflowFrom?_cons rfl, ← overflowFrom?_skipBlank] at hroom
    exact hnext _ _ _ h hroom

/-- A bracket opens only where there is room for one more. -/
theorem room_of_bracket {c : CodePoint} (hc : c = '[' ∨ c = '{')
    (h : overflowFrom? room level .outside (c :: t) = none) :
    level < room ∧ overflowFrom? room (level + 1) .outside t = none := by
  rcases hc with rfl | rfl
  · rw [overflowFrom?, if_neg (by decide), if_pos rfl] at h
    split at h
    · next hlt => exact ⟨hlt, h⟩
    · cases h
  · rw [overflowFrom?, if_neg (by decide), if_neg (by decide), if_pos rfl] at h
    split at h
    · next hlt => exact ⟨hlt, h⟩
    · cases h

theorem value_fits {fuel : Nat} (hlevel : room = level + n)
    (he : ∀ k, n = k + 1 → Fits room (level + 1) level n (elements fuel []))
    (hm : ∀ k, n = k + 1 → Fits room (level + 1) level n (members fuel [])) :
    Fits room level level n (value (fuel + 1)) := by
  have hopen : ∀ {c : CodePoint} {t : Text}, c = '[' ∨ c = '{' →
      overflowFrom? room level .outside (c :: t) = none →
      (∃ k, n = k + 1) ∧ overflowFrom? room (level + 1) .outside (skipBlank t) = none := by
    intro c t hc hroom
    obtain ⟨hlt, hrest⟩ := room_of_bracket hc hroom
    exact ⟨⟨n - 1, by omega⟩, (overflowFrom?_skipBlank t).trans hrest⟩
  intro t v rest h hroom
  cases valueStep_of_value h with
  | string hs => exact ⟨Nat.zero_le n, (overflowFrom?_stringBody hs).symm.trans hroom⟩
  | emptyObject hb =>
    obtain ⟨⟨k, rfl⟩, hrest⟩ := hopen (Or.inr rfl) hroom
    rw [hb] at hrest
    exact ⟨depth_object_le (List.forall_mem_nil _), hrest⟩
  | object hm' =>
    obtain ⟨⟨k, hk⟩, hrest⟩ := hopen (Or.inr rfl) hroom
    exact hm k hk _ _ _ hm' hrest
  | emptyArray hb =>
    obtain ⟨⟨k, rfl⟩, hrest⟩ := hopen (Or.inl rfl) hroom
    rw [hb] at hrest
    exact ⟨depth_array_le (List.forall_mem_nil _), hrest⟩
  | array he' =>
    obtain ⟨⟨k, hk⟩, hrest⟩ := hopen (Or.inl rfl) hroom
    exact he k hk _ _ _ he' hrest
  | scalar hs =>
    obtain ⟨hdepth, hpasses⟩ := passesOver_scalar hs
    exact ⟨hdepth ▸ Nat.zero_le n, hpasses.overflowFrom?_eq.symm.trans hroom⟩

theorem elements_fits {fuel : Nat} (hv : Fits room (level + 1) (level + 1) n (value fuel))
    (he : ∀ done : List Json, (∀ v ∈ done, v.depth ≤ n) →
      Fits room (level + 1) level (n + 1) (elements fuel done))
    {done : List Json} (hdone : ∀ v ∈ done, v.depth ≤ n) :
    Fits room (level + 1) level (n + 1) (elements (fuel + 1) done) := by
  intro t w behind h hroom
  obtain ⟨v, rest, hread, hc⟩ := elements_eq_ok.mp h
  obtain ⟨hdepth, hrest⟩ := hv t v rest hread hroom
  have hall : ∀ u ∈ v :: done, u.depth ≤ n := List.forall_mem_cons.mpr ⟨hdepth, hdone⟩
  have harray : (array (done.reverse ++ [v])).depth ≤ n + 1 := by
    refine depth_array_le fun u hu => hall u ?_
    simpa [or_comm] using hu
  exact fits_of_continues (fun _ => rfl) harray (he _ hall) hrest hc

theorem members_fits {fuel : Nat} (hv : Fits room (level + 1) (level + 1) n (value fuel))
    (hm : ∀ done : List (Text × Json), (∀ m ∈ done, m.2.depth ≤ n) →
      Fits room (level + 1) level (n + 1) (members fuel done))
    {done : List (Text × Json)} (hdone : ∀ m ∈ done, m.2.depth ≤ n) :
    Fits room (level + 1) level (n + 1) (members (fuel + 1) done) := by
  intro t w behind h hroom
  obtain ⟨body, key, colon, afterColon, v, rest, rfl, hs, hcolon, hread, hc⟩ := members_eq_ok.mp h
  have hkey : overflowFrom? room (level + 1) .outside (skipBlank afterColon) = none := by
    rw [overflowFrom?_skipBlank]
    have hbody := (overflowFrom?_stringBody hs).symm.trans hroom
    rwa [← overflowFrom?_skipBlank, hcolon, overflowFrom?_cons rfl] at hbody
  obtain ⟨hdepth, hrest⟩ := hv _ v rest hread hkey
  have hall : ∀ m ∈ Entries.put key v done, m.2.depth ≤ n := by
    intro m hput
    rcases Entries.mem_put hput with rfl | hmem
    · exact hdepth
    · exact hdone m hmem
  exact fits_of_continues (fun _ => rfl) (depth_object_le hall) (hm _ hall) hrest hc

theorem fits (fuel : Nat) :
    (∀ level n, room = level + n → Fits room level level n (value fuel)) ∧
    (∀ level n, room = level + 1 + n → ∀ done : List Json, (∀ v ∈ done, v.depth ≤ n) →
      Fits room (level + 1) level (n + 1) (elements fuel done)) ∧
    ∀ level n, room = level + 1 + n → ∀ done : List (Text × Json), (∀ m ∈ done, m.2.depth ≤ n) →
      Fits room (level + 1) level (n + 1) (members fuel done) := by
  induction fuel with
  | zero =>
    refine ⟨fun _ _ _ t v rest h => ?_, fun _ _ _ done _ t v rest h => ?_,
      fun _ _ _ done _ t v rest h => ?_⟩
    all_goals cases h
  | succ fuel ih =>
    obtain ⟨hv, he, hm⟩ := ih
    refine ⟨fun level n hroom => value_fits hroom ?_ ?_,
      fun level n hroom done => elements_fits (hv _ n hroom) (he level n hroom),
      fun level n hroom done => members_fits (hv _ n hroom) (hm level n hroom)⟩
    · rintro k rfl
      exact he level k (by omega) [] (List.forall_mem_nil _)
    · rintro k rfl
      exact hm level k (by omega) [] (List.forall_mem_nil _)

/-- A value that is read from a text for which there is room nests no deeper than the room. -/
theorem depth_le_of_read (h : read t = .ok v) (hroom : overflow? room t = none) :
    v.depth ≤ room := by
  have hdoc := document_of_read h
  rw [overflow?, traversed, hdoc] at hroom
  unfold document at hdoc
  split at hdoc
  · cases hdoc
  · obtain ⟨⟨w, rest⟩, hv, hend⟩ := bind_eq_ok.mp hdoc
    dsimp only at hend
    split at hend
    · cases hend
      rw [← overflowFrom?_skipBlank] at hroom
      exact ((fits _).1 0 room (Nat.zero_add room).symm _ _ _ hv hroom).1
    · cases hend

example : overflow? 2 "[[]]" = none ∧ overflow? 1 "[[]]" = some .array := by decide +kernel

end SchemaTransfer.Json
