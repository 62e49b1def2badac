import SchemaTransfer.Json.Writer
import SchemaTransfer.Proofs.Json.Joined
import SchemaTransfer.Proofs.Json.Plain
import SchemaTransfer.Proofs.Json.Steps

/-!
# Values are read as they were written

However a value is laid out, what is read of it is the value with its surrogate pairs joined. The
fuel is measured by the written text: every element is longer than the steps that read it.
-/
namespace SchemaTransfer.Json

/-! ## Blanks and ends -/

theorem skipBlank_append {b : Text} (h : ∀ c ∈ b, isBlank c = true) (t : Text) :
    skipBlank (b ++ t) = skipBlank t :=
  List.dropWhile_append_of_pos h

theorem skipBlank_cons {c : CodePoint} (h : isBlank c = false) (t : Text) :
    skipBlank (c :: t) = c :: t :=
  List.dropWhile_cons_of_neg (by simp [h])

theorem isBlank_of_mem_gap {layout : Layout} {level : Nat} :
    ∀ c ∈ layout.gap level, isBlank c = true := by
  cases layout with
  | line => exact fun c hc => absurd hc List.not_mem_nil
  | indented width =>
    intro c hc
    rcases List.mem_append.mp hc with h | h
    · rw [List.mem_singleton.mp h]
      rfl
    · rw [List.eq_of_mem_replicate h]
      rfl

/-- Neighbours are parted by a comma and blanks. -/
theorem separator_eq (layout : Layout) (level : Nat) :
    ∃ b : Text, layout.separator level = CodePoint.ofChar ',' :: b ∧
      ∀ c ∈ b, isBlank c = true := by
  cases layout with
  | line => exact ⟨" ", rfl, by decide⟩
  | indented width => exact ⟨_, rfl, isBlank_of_mem_gap⟩

theorem endsNumber_nil : EndsNumber [] := fun _ hc => nomatch hc

theorem endsNumber_cons {c : CodePoint} (t : Text)
    (h : c.isAsciiDigit = false ∧ c ≠ '.' ∧ c ≠ 'e' ∧ c ≠ 'E') : EndsNumber (c :: t) := by
  intro d hd
  cases hd
  exact h

theorem endsNumber_of_isBlank {c : CodePoint} (t : Text) (h : isBlank c = true) :
    EndsNumber (c :: t) := by
  simp only [isBlank, Bool.or_eq_true, decide_eq_true_eq] at h
  rcases h with ((rfl | rfl) | rfl) | rfl <;> exact endsNumber_cons t (by decide)

theorem endsNumber_gap (layout : Layout) (level : Nat) {t : Text} (h : EndsNumber t) :
    EndsNumber (layout.gap level ++ t) := by
  have hb : ∀ c ∈ layout.gap level, isBlank c = true := isBlank_of_mem_gap
  cases hg : layout.gap level with
  | nil => exact h
  | cons c b => exact endsNumber_of_isBlank _ (hb c (by simp [hg]))

theorem endsNumber_separator (layout : Layout) (level : Nat) (t : Text) :
    EndsNumber (layout.separator level ++ t) := by
  obtain ⟨b, hb, -⟩ := separator_eq layout level
  rw [hb]
  exact endsNumber_cons _ (by decide)

/-! ## Strings as values and as keys -/

theorem stringText_append (t rest : Text) :
    stringText t ++ rest =
      CodePoint.ofChar '"' :: (t.flatMap escaped ++ CodePoint.ofChar '"' :: rest) := by
  rw [stringText, List.append_assoc, List.append_assoc]
  rfl

/-! ## Elements and members -/

/-- The text of an array with its closing bracket in front of whatever follows. -/
theorem render_array_append (layout : Layout) (level : Nat) (v : Json) (items : List Json)
    (rest : Text) :
    render layout level (.array (v :: items)) ++ rest =
      CodePoint.ofChar '[' :: (layout.gap (level + 1) ++ (render layout (level + 1) v ++
        (renderItems layout (level + 1) items ++
          (layout.gap level ++ CodePoint.ofChar ']' :: rest)))) := by
  simp only [render, List.append_assoc]
  rfl

theorem render_object_append (layout : Layout) (level : Nat) (k : Text) (v : Json)
    (members : List (Text × Json)) (rest : Text) :
    render layout level (.object ((k, v) :: members)) ++ rest =
      CodePoint.ofChar '{' :: (layout.gap (level + 1) ++ (stringText k ++
        CodePoint.ofChar ':' :: CodePoint.ofChar ' ' :: (render layout (level + 1) v ++
          (renderMembers layout (level + 1) members ++
            (layout.gap level ++ CodePoint.ofChar '}' :: rest))))) := by
  simp only [render, List.append_assoc]
  rfl

theorem renderMembers_append (layout : Layout) (level : Nat) (k : Text) (v : Json)
    (members : List (Text × Json)) (rest : Text) :
    renderMembers layout level ((k, v) :: members) ++ rest =
      layout.separator level ++ (stringText k ++
        CodePoint.ofChar ':' :: CodePoint.ofChar ' ' :: (render layout level v ++
          (renderMembers layout level members ++ rest))) := by
  simp only [renderMembers, List.append_assoc]
  rfl

/-- The value is read from its text wherever a number would end, with its pairs joined. -/
def ReadsBack (layout : Layout) (level : Nat) (v : Json) : Prop :=
  ∀ fuel rest, EndsNumber rest → 0 < fuel → 2 * (render layout level v).length ≤ fuel + 1 →
    value fuel (render layout level v ++ rest) = .ok (v.joined, rest)

/-- A value as it is written begins with no blank. -/
theorem ReadsBack.head {layout : Layout} {level : Nat} {v : Json} (h : ReadsBack layout level v) :
    ∃ c t, render layout level v = c :: t ∧ isBlank c = false := by
  obtain ⟨c, t, ht, hb, -⟩ := head_of_value
    (h (2 * (render layout level v).length + 1) [] endsNumber_nil (by omega) (by omega))
  rw [List.append_nil] at ht
  exact ⟨c, t, ht, hb⟩

theorem ReadsBack.skipBlank {layout : Layout} {level : Nat} {v : Json}
    (h : ReadsBack layout level v) (rest : Text) :
    skipBlank (render layout level v ++ rest) = render layout level v ++ rest := by
  obtain ⟨c, t, ht, hb⟩ := h.head
  rw [ht, List.cons_append, skipBlank_cons hb]

theorem ReadsBack.length_pos {layout : Layout} {level : Nat} {v : Json}
    (h : ReadsBack layout level v) : 0 < (render layout level v).length := by
  obtain ⟨c, t, ht, -⟩ := h.head
  rw [ht]
  exact Nat.succ_pos _

/-- One element of an array is read, whatever comes behind it. -/
theorem ReadsBack.elements {layout : Layout} {level : Nat} {v : Json} (h : ReadsBack layout level v)
    {fuel : Nat} {done : List Json} {rest : Text} {r : Json × Text} (hr : EndsNumber rest)
    (hf : 2 * (render layout level v).length ≤ fuel)
    (hc : Continues ']' rest (.array (done.reverse ++ [v.joined]))
      (Json.elements fuel (v.joined :: done)) r) :
    Json.elements (fuel + 1) done (render layout level v ++ rest) = .ok r := by
  have hpos := h.length_pos
  exact elements_eq_ok.mpr ⟨v.joined, rest, h fuel rest hr (by omega) (by omega), hc⟩

/-- One member of an object is read, whatever comes behind it. -/
theorem ReadsBack.members {layout : Layout} {level : Nat} {v : Json} (h : ReadsBack layout level v)
    (k : Text) {fuel : Nat} {done : List (Text × Json)} {rest : Text} {r : Json × Text}
    (hr : EndsNumber rest) (hf : 2 * (render layout level v).length ≤ fuel)
    (hc : Continues '}' rest (.object (Entries.put k.joined v.joined done))
      (Json.members fuel (Entries.put k.joined v.joined done)) r) :
    Json.members (fuel + 1) done (stringText k ++
      CodePoint.ofChar ':' :: CodePoint.ofChar ' ' :: (render layout level v ++ rest)) = .ok r := by
  have hpos := h.length_pos
  have hv : value fuel (Json.skipBlank (CodePoint.ofChar ' ' :: (render layout level v ++ rest))) =
      .ok (v.joined, rest) := by
    rw [← h fuel rest hr (by omega) (by omega)]
    exact congrArg (value fuel) (h.skipBlank rest)
  exact members_eq_ok.mpr ⟨_, k.joined, _, _, v.joined, rest, stringText_append k _,
    stringBody_escaped _ k _, skipBlank_cons (by decide) _, hv, hc⟩

/-- The text behind a value in an array: its neighbours and the closing bracket. -/
theorem endsNumber_items (layout : Layout) (level : Nat) (items : List Json) (t : Text) :
    EndsNumber (renderItems layout (level + 1) items ++
      (layout.gap level ++ CodePoint.ofChar ']' :: t)) := by
  cases items with
  | nil => exact endsNumber_gap layout level (endsNumber_cons t (by decide))
  | cons v items =>
    rw [renderItems, List.append_assoc, List.append_assoc]
    exact endsNumber_separator layout (level + 1) _

theorem endsNumber_members (layout : Layout) (level : Nat) (members : List (Text × Json))
    (t : Text) :
    EndsNumber (renderMembers layout (level + 1) members ++
      (layout.gap level ++ CodePoint.ofChar '}' :: t)) := by
  cases members with
  | nil => exact endsNumber_gap layout level (endsNumber_cons t (by decide))
  | cons m members =>
    rw [renderMembers_append]
    exact endsNumber_separator layout (level + 1) _

mutual

/-- What is read of a written value is the value with its pairs joined. -/
theorem readsBack (layout : Layout) (level : Nat) : ∀ v : Json, Everywhere DigitsFit v →
    ReadsBack layout level v
  | v, _, 0, _, _, hpos, _ => absurd hpos (Nat.lt_irrefl 0)
  | .null, _, _ + 1, _, _, _, _ => rfl
  | .bool true, _, _ + 1, _, _, _, _ => rfl
  | .bool false, _, _ + 1, _, _, _, _ => rfl
  | .int _, h, fuel + 1, _, hr, _, _ => value_scalar fuel (scalar_ofInt h.self hr)
  | .double d, _, fuel + 1, _, hr, _, _ => value_scalar fuel (scalar_doubleText d hr)
  | .string t, _, fuel + 1, rest, _, _, _ => by
    rw [render, joined, stringText_append]
    exact value_string fuel (stringBody_escaped _ t rest)
  | .array [], _, _ + 1, _, _, _, _ => rfl
  | .array (v :: items), h, fuel + 1, rest, _, _, hf => by
    have hv := readsBack layout (level + 1) v h.2.1
    have hlen := congrArg List.length (render_array_append layout level v items [])
    simp only [List.length_append, List.length_cons, List.append_nil] at hlen
    rw [render_array_append, joined]
    refine value_array ?_
    rw [skipBlank_append isBlank_of_mem_gap, hv.skipBlank]
    exact elements_render layout level v hv items h.2.2 fuel [] rest (by omega)
  | .object [], _, _ + 1, _, _, _, _ => rfl
  | .object ((k, v) :: members), h, fuel + 1, rest, _, _, hf => by
    have hv := readsBack layout (level + 1) v h.2.1
    have hlen := congrArg List.length (render_object_append layout level k v members [])
    simp only [List.length_append, List.length_cons, List.append_nil] at hlen
    rw [render_object_append, joined]
    refine value_object ?_
    rw [skipBlank_append isBlank_of_mem_gap, stringText_append, skipBlank_cons (by decide),
      ← stringText_append]
    exact members_render layout level k v hv members h.2.2 fuel [] rest (by omega)

theorem elements_render (layout : Layout) (level : Nat) (v : Json)
    (hv : ReadsBack layout (level + 1) v) : ∀ items : List Json, EveryItem DigitsFit items →
    ∀ (fuel : Nat) (done : List Json) (rest : Text),
    2 * ((render layout (level + 1) v).length +
      (renderItems layout (level + 1) items).length + 1) ≤ fuel →
    elements fuel done (render layout (level + 1) v ++ (renderItems layout (level + 1) items ++
      (layout.gap level ++ CodePoint.ofChar ']' :: rest))) =
      .ok (.array (done.reverse ++ v.joined :: joinedItems items), rest)
  | _, _, 0, _, _, hf => by omega
  | [], _, fuel + 1, done, rest, hf => by
    refine hv.elements (endsNumber_items layout level [] rest) (by omega) (.close rest ?_ rfl)
    rw [renderItems, List.nil_append, skipBlank_append isBlank_of_mem_gap,
      skipBlank_cons (by decide)]
  | w :: items, h, fuel + 1, done, rest, hf => by
    have hw := readsBack layout (level + 1) w h.1
    obtain ⟨b, hsep, hb⟩ := separator_eq layout (level + 1)
    rw [renderItems, hsep] at hf
    simp only [List.length_append, List.length_cons] at hf
    have hread := elements_render layout level w hw items h.2 fuel (v.joined :: done) rest
      (by omega)
    refine hv.elements (endsNumber_items layout level (w :: items) rest) (by omega)
      (.comma (b ++ (render layout (level + 1) w ++ (renderItems layout (level + 1) items ++
        (layout.gap level ++ CodePoint.ofChar ']' :: rest)))) ?_ ?_)
    · rw [renderItems, hsep]
      simp only [List.append_assoc, List.cons_append]
      rw [skipBlank_cons (by decide)]
    · rw [skipBlank_append hb, hw.skipBlank, hread, joinedItems, List.reverse_cons,
        List.append_assoc]
      rfl

theorem members_render (layout : Layout) (level : Nat) (k : Text) (v : Json)
    (hv : ReadsBack layout (level + 1) v) : ∀ members : List (Text × Json),
    EveryMember DigitsFit members → ∀ (fuel : Nat) (done : List (Text × Json)) (rest : Text),
    2 * ((render layout (level + 1) v).length +
      (renderMembers layout (level + 1) members).length + 1) ≤ fuel →
    Json.members fuel done (stringText k ++
      CodePoint.ofChar ':' :: CodePoint.ofChar ' ' :: (render layout (level + 1) v ++
        (renderMembers layout (level + 1) members ++
          (layout.gap level ++ CodePoint.ofChar '}' :: rest)))) =
      .ok (.object (joinedMembers done ((k, v) :: members)), rest)
  | _, _, 0, _, _, hf => by omega
  | [], _, fuel + 1, done, rest, hf => by
    refine hv.members k (endsNumber_members layout level [] rest) (by omega) (.close rest ?_ rfl)
    rw [renderMembers, List.nil_append, skipBlank_append isBlank_of_mem_gap,
      skipBlank_cons (by decide)]
  | (l, w) :: members, h, fuel + 1, done, rest, hf => by
    have hw := readsBack layout (level + 1) w h.1
    obtain ⟨b, hsep, hb⟩ := separator_eq layout (level + 1)
    rw [renderMembers, hsep] at hf
    simp only [List.length_append, List.length_cons] at hf
    have hread := members_render layout level l w hw members h.2 fuel
      (Entries.put k.joined v.joined done) rest (by omega)
    refine hv.members k (endsNumber_members layout level ((l, w) :: members) rest) (by omega)
      (.comma (b ++ (stringText l ++
        CodePoint.ofChar ':' :: CodePoint.ofChar ' ' :: (render layout (level + 1) w ++
          (renderMembers layout (level + 1) members ++
            (layout.gap level ++ CodePoint.ofChar '}' :: rest))))) ?_ ?_)
    · rw [renderMembers_append, hsep, List.cons_append, skipBlank_cons (by decide)]
    · rw [skipBlank_append hb, stringText_append, skipBlank_cons (by decide),
        ← stringText_append, hread]
      rfl

end

/-! ## Documents -/

/-- What is read of a document is the written value with its pairs joined. -/
theorem read_render (layout : Layout) {v : Json} (h : Everywhere DigitsFit v) {blanks : Text}
    (hb : ∀ c ∈ blanks, isBlank c = true) :
    read (render layout 0 v ++ blanks) = .ok v.joined := by
  have hv : ReadsBack layout 0 v := readsBack layout 0 v h
  have hends : EndsNumber blanks := by
    cases blanks with
    | nil => exact endsNumber_nil
    | cons c t => exact endsNumber_of_isBlank t (hb c (by simp))
  have hvalue : value (2 * (render layout 0 v ++ blanks).length + 1) (render layout 0 v ++ blanks) =
      .ok (v.joined, blanks) :=
    hv _ blanks hends (by omega) (by rw [List.length_append]; omega)
  have hmark : (render layout 0 v ++ blanks).head? ≠ some byteOrderMark := by
    obtain ⟨c, t, ht, -⟩ := hv.head
    have hc : c.val < 0x80 :=
      (plain_render layout 0 v).val_lt c (by rw [ht]; exact List.mem_cons_self)
    rw [ht, List.cons_append, List.head?_cons]
    rintro ⟨⟩
    exact absurd hc (by decide)
  have hend : skipBlank blanks = [] := by
    have happ := skipBlank_append hb []
    rwa [List.append_nil] at happ
  have hdoc : document (render layout 0 v ++ blanks) = .ok v.joined := by
    rw [document, if_neg hmark, hv.skipBlank, hvalue]
    exact if_pos (by rw [hend]; rfl)
  rw [read, hdoc]
  rfl

theorem read_pretty {v : Json} (h : Everywhere DigitsFit v) {blanks : Text}
    (hb : ∀ c ∈ blanks, isBlank c = true) : read (v.pretty ++ blanks) = .ok v.joined :=
  read_render (.indented 2) h hb

end SchemaTransfer.Json
