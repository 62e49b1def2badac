import SchemaTransfer.Bigtable.ResourceId
import SchemaTransfer.Proofs.Text.Trim

/-!
# Ids from full names

Of a full name, however it is padded and whatever path follows it, the id of the project is found.
So is the id of the instance, but for one project: the collection is looked for among all parts of
the name, and a project that is called as the collection of instances is taken for it.
-/
namespace SchemaTransfer

open Text (Bare)

/-! ## Names -/

/-- An id has no slash and neither begins nor ends with a blank. -/
structure IsId (t : Text) : Prop where
  bare : Bare (·.isBlank) t
  noSlash : CodePoint.ofChar '/' ∉ t

theorem isId_iff {t : Text} : IsId t ↔ Bare (·.isBlank) t ∧ CodePoint.ofChar '/' ∉ t :=
  ⟨fun h => ⟨h.bare, h.noSlash⟩, fun ⟨hbare, hslash⟩ => ⟨hbare, hslash⟩⟩

instance (t : Text) : Decidable (IsId t) := decidable_of_iff' _ isId_iff

/-- A path that may follow a name, or nothing. -/
def IsPath (t : Text) : Prop := t = [] ∨ ∃ rest, t = CodePoint.ofChar '/' :: rest

/-- The collection of projects. -/
def projectsName : Text := "projects"

/-- The collection of the instances of a project. -/
def instancesName : Text := "instances"

/-- The name of an instance of a project. -/
def fullName (project instanceId : Text) : Text :=
  projectsName ++ CodePoint.ofChar '/' :: (project ++ CodePoint.ofChar '/' ::
    (instancesName ++ CodePoint.ofChar '/' :: instanceId))

/-- Slashes on both sides of a name, and blanks around these. -/
structure Padding where
  blanksBefore : Text
  slashesBefore : Nat
  slashesAfter : Nat
  blanksAfter : Text
  blank_before : ∀ c ∈ blanksBefore, c.isBlank
  blank_after : ∀ c ∈ blanksAfter, c.isBlank

def slashes (n : Nat) : Text := List.replicate n (CodePoint.ofChar '/')

def Padding.around (pad : Padding) (t : Text) : Text :=
  pad.blanksBefore ++ (slashes pad.slashesBefore ++ (t ++
    (slashes pad.slashesAfter ++ pad.blanksAfter)))

/-! ## Paths -/

theorem IsPath.initial {s t : Text} (ht : IsPath t) (h : s <+: t) : IsPath s := by
  obtain ⟨rest, rfl⟩ := h
  cases s with
  | nil => exact Or.inl rfl
  | cons c s =>
    rcases ht with hnil | ⟨tail, htail⟩
    · cases hnil
    · cases htail
      exact Or.inr ⟨s, rfl⟩

theorem isPath_slashes (n : Nat) : IsPath (slashes n) := by
  cases n with
  | zero => exact Or.inl rfl
  | succ n => exact Or.inr ⟨_, rfl⟩

theorem IsPath.append_slashes {t : Text} (ht : IsPath t) (n : Nat) : IsPath (t ++ slashes n) := by
  rcases ht with rfl | ⟨rest, rfl⟩
  · exact isPath_slashes n
  · exact Or.inr ⟨_, rfl⟩

/-! ## What is left of a padded name -/

def isSlash (c : CodePoint) : Bool := c = CodePoint.ofChar '/'

theorem resourceId_eq (value collection : Text) : resourceId value collection =
    (partAfter? collection (Text.splitAt (CodePoint.ofChar '/')
      (Text.trim isSlash (Text.trim (·.isBlank) value)))).getD
      (Text.trim isSlash (Text.trim (·.isBlank) value)) := rfl

theorem IsId.bare_slash {t : Text} (ht : IsId t) : Bare isSlash t := by
  refine ht.bare.of_forall fun c hc => ?_
  simp only [isSlash, decide_eq_false_iff_not]
  rintro rfl
  exact ht.noSlash hc

/-- Slashes are no blanks. -/
theorem bare_slashes_append {t : Text} (ht : Bare (·.isBlank) t) (n : Nat) :
    Bare (·.isBlank) (slashes n ++ t) := by
  cases n with
  | zero => exact ht
  | succ n =>
    obtain ⟨front, c, rfl, hc⟩ := ht.last
    exact ⟨⟨_, _, rfl, by decide⟩, slashes (n + 1) ++ front, c, by simp, hc⟩

/-- What is left of a path and the slashes behind it, after those were taken away and blanks before
them. -/
def Padding.leftOf (pad : Padding) (path : Text) : Text :=
  ((path ++ slashes pad.slashesAfter).rdropWhile (·.isBlank)).rdropWhile isSlash

/-- The padding vanishes in front of a name, and the end of a path behind it at most. -/
theorem trim_around {t : Text} (hblank : Bare (·.isBlank) t) (hslash : Bare isSlash t)
    (pad : Padding) (path : Text) :
    Text.trim isSlash (Text.trim (·.isBlank) (pad.around (t ++ path))) = t ++ pad.leftOf path := by
  have hregroup : pad.around (t ++ path) = pad.blanksBefore ++
      ((slashes pad.slashesBefore ++ t) ++
        ((path ++ slashes pad.slashesAfter) ++ pad.blanksAfter)) := by
    simp [Padding.around]
  have hslashes : ∀ c ∈ slashes pad.slashesBefore, isSlash c := by
    intro c hc
    rw [List.eq_of_mem_replicate hc]
    rfl
  rw [hregroup, Text.trim_append pad.blank_before (bare_slashes_append hblank _),
    Text.rdropWhile_append_excess pad.blank_after, List.append_assoc,
    Text.trim_append hslashes hslash]
  rfl

theorem Padding.isPath_leftOf (pad : Padding) {path : Text} (hpath : IsPath path) :
    IsPath (pad.leftOf path) := by
  have hpadded := hpath.append_slashes pad.slashesAfter
  have hinner := hpadded.initial <| List.rdropWhile_prefix (·.isBlank) _
  exact hinner.initial <| List.rdropWhile_prefix isSlash _

theorem Padding.leftOf_nil (pad : Padding) : pad.leftOf [] = [] := by
  rw [leftOf, List.rdropWhile_eq_nil_iff]
  intro c hc
  have hinitial : _ <+: slashes pad.slashesAfter := List.rdropWhile_prefix (·.isBlank) _
  have hslash := hinitial.subset hc
  rw [List.eq_of_mem_replicate hslash]
  rfl

/-! ## Parts -/

theorem bare_fullName {q : CodePoint → Bool} {i : Text} (hprojects : Bare q projectsName)
    (hi : Bare q i) (p : Text) : Bare q (fullName p i) := by
  have happend := hprojects.append hi (CodePoint.ofChar '/' :: (p ++ CodePoint.ofChar '/' ::
    (instancesName ++ [CodePoint.ofChar '/'])))
  simpa [fullName] using happend

theorem splitAt_path {t path : Text} (ht : CodePoint.ofChar '/' ∉ t) (hpath : IsPath path) :
    ∃ parts, Text.splitAt (CodePoint.ofChar '/') (t ++ path) = t :: parts := by
  rcases hpath with rfl | ⟨rest, rfl⟩
  · exact ⟨[], by rw [List.append_nil, Text.splitAt_of_notMem ht]⟩
  · exact ⟨_, Text.splitAt_append ht rest⟩

theorem splitAt_fullName {p i path : Text} (hp : IsId p) (hi : IsId i) (hpath : IsPath path) :
    ∃ parts, Text.splitAt (CodePoint.ofChar '/') (fullName p i ++ path) =
      projectsName :: p :: instancesName :: i :: parts := by
  obtain ⟨parts, hparts⟩ := splitAt_path hi.noSlash hpath
  refine ⟨parts, ?_⟩
  simp only [fullName, List.append_assoc, List.cons_append]
  rw [Text.splitAt_append (by decide), Text.splitAt_append hp.noSlash,
    Text.splitAt_append (by decide), hparts]

theorem resourceId_around {p i path : Text} (hp : IsId p) (hi : IsId i) (hpath : IsPath path)
    (pad : Padding) (collection : Text) : ∃ rest parts,
      resourceId (pad.around (fullName p i ++ path)) collection =
        (partAfter? collection (projectsName :: p :: instancesName :: i :: parts)).getD
          (fullName p i ++ rest) := by
  have hblank : Bare (·.isBlank) projectsName := by decide
  have hslash : Bare isSlash projectsName := by decide
  obtain ⟨parts, hparts⟩ := splitAt_fullName hp hi (pad.isPath_leftOf hpath)
  refine ⟨pad.leftOf path, parts, ?_⟩
  rw [resourceId_eq, trim_around (bare_fullName hblank hi.bare p)
    (bare_fullName hslash hi.bare_slash p), hparts]

theorem resourceId_of_id {t : Text} (ht : IsId t) (pad : Padding) (collection : Text) :
    resourceId (pad.around t) collection = t := by
  have htrimmed := trim_around ht.bare ht.bare_slash pad []
  rw [List.append_nil, pad.leftOf_nil, List.append_nil] at htrimmed
  rw [resourceId_eq, htrimmed, Text.splitAt_of_notMem ht.noSlash, partAfter?]
  split <;> rfl

/-- Of a padded full name, whatever path follows it, the id of the project is found, and the id of
the instance too unless the project is called `instances`: then that word is taken for the id. A
padded id is found as it is. -/
theorem resourceId_of_fullName {p i path : Text} (hp : IsId p) (hi : IsId i) (hpath : IsPath path)
    (pad : Padding) :
    resourceId (pad.around (fullName p i ++ path)) projectsName = p ∧
    (p ≠ instancesName → resourceId (pad.around (fullName p i ++ path)) instancesName = i) ∧
    (p = instancesName →
      resourceId (pad.around (fullName p i ++ path)) instancesName = instancesName) ∧
    ∀ collection, resourceId (pad.around i) collection = i := by
  have hwords : projectsName ≠ instancesName := by decide
  refine ⟨?_, fun hne => ?_, fun heq => ?_, resourceId_of_id hi pad⟩
  · obtain ⟨rest, parts, h⟩ := resourceId_around hp hi hpath pad projectsName
    rw [h, partAfter?, if_pos rfl]
    rfl
  · obtain ⟨rest, parts, h⟩ := resourceId_around hp hi hpath pad instancesName
    rw [h, partAfter?, if_neg hwords, partAfter?, if_neg hne, partAfter?, if_pos rfl]
    rfl
  · obtain ⟨rest, parts, h⟩ := resourceId_around hp hi hpath pad instancesName
    rw [h, partAfter?, if_neg hwords, partAfter?, if_pos heq]
    rfl

/-- Slashes and blanks on both sides. -/
def padded : Padding := ⟨" \t", 2, 1, "\u3000", by decide, by decide⟩

/-- Neither a project with the name of a collection nor a path that has one in it is in the way. -/
theorem resourceId_of_fullName_coincidence :
    IsId "projects" ∧ IsId "instances" ∧ IsPath "/tables/instances/t " ∧
    resourceId (padded.around (fullName "projects" "instances" ++ "/tables/instances/t "))
      projectsName = "projects" ∧
    resourceId (padded.around (fullName "projects" "instances" ++ "/tables/instances/t "))
      instancesName = "instances" := by
  have hp : IsId "projects" := by decide
  have hi : IsId "instances" := by decide
  have hpath : IsPath "/tables/instances/t " := Or.inr ⟨_, rfl⟩
  obtain ⟨hproject, hinstance, -⟩ := resourceId_of_fullName hp hi hpath padded
  exact ⟨hp, hi, hpath, hproject, hinstance (by decide)⟩

/-- The instance `i` of the project `instances` is not found. -/
theorem resourceId_project_instances : IsId "instances" ∧ IsId "i" ∧
    fullName "instances" "i" = "projects/instances/instances/i" ∧
    resourceId "projects/instances/instances/i" "instances" ≠ "i" := by
  decide

end SchemaTransfer
