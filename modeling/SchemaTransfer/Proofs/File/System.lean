import SchemaTransfer.File.System

/-!
# Writing a file and reading it again

A path that leads to a file leads there still after the file was written: all the way to it there
are directories, and none of these is the file.
-/
namespace SchemaTransfer.FileSystem

variable {fs : FileSystem} {l : Location} {content : Bytes}

theorem node?_put {l m : Location} (hl : l ≠ []) (n : Node) :
    (fs.put l n).node? m = if m = l then some n else fs.node? m := by
  by_cases hm : m = []
  · subst hm
    rw [node?, node?, if_pos rfl, if_pos rfl, if_neg hl.symm]
  · rw [node?, node?, if_neg hm, if_neg hm, put, Dict.get?_insert]
    by_cases h : m = l
    · rw [if_pos h.symm, if_pos h]
    · rw [if_neg (Ne.symm h), if_neg h]

theorem ne_nil_of_notDirectory (h : fs.node? l ≠ some .directory) : l ≠ [] := by
  rintro rfl
  exact h (if_pos rfl)

/-- Directories on the way are not touched by what is put at a place that is none. -/
theorem walk_put {start : Location} {parts : List Text} (h : fs.node? l ≠ some .directory)
    (hw : fs.walk start parts = .ok l) (n : Node) : (fs.put l n).walk start parts = .ok l := by
  induction parts generalizing start with
  | nil => exact hw
  | cons part rest ih =>
    rw [walk] at hw ⊢
    split at hw
    · cases hw
    · cases hw
    · cases hw
    · next hnode hclosed =>
      have hne : start ≠ l := fun he => h (he ▸ hnode)
      have hclosed' : (fs.put l n).closed? start = none := hclosed
      rw [node?_put (ne_nil_of_notDirectory h), if_neg hne, hnode, hclosed']
      dsimp only at hw ⊢
      split at hw
      · cases hw
      next hlength =>
      rw [if_neg hlength]
      split at hw
      · next hup =>
        rw [if_pos hup]
        exact ih hw
      · next hdown =>
        rw [if_neg hdown]
        exact ih hw

theorem locate_put {p : Path} (h : fs.node? l ≠ some .directory) (hp : fs.locate p = .ok l)
    (n : Node) : (fs.put l n).locate p = .ok l := by
  rw [locate] at hp ⊢
  split at hp
  · cases hp
  next hlength =>
  rw [if_neg hlength]
  exact walk_put h hp n

/-- What can be opened for writing is at a place that is no directory and is not shut. -/
theorem openable_eq_ok {p : Path} :
    fs.openable p = .ok l ↔
      fs.locate p = .ok l ∧ fs.node? l ≠ some .directory ∧ fs.unwritable? l = none := by
  rw [openable]
  cases fs.locate p with
  | error fault => simp
  | ok m =>
    dsimp only
    split
    · next hnode =>
      refine iff_of_false nofun ?_
      rintro ⟨⟨⟩, hne, -⟩
      exact hne hnode
    · next hshut _ =>
      refine iff_of_false nofun ?_
      rintro ⟨⟨⟩, -, hopen⟩
      cases hshut.symm.trans hopen
    · next hopen hnode =>
      constructor
      · rintro ⟨⟩
        exact ⟨rfl, hnode, hopen⟩
      · rintro ⟨⟨⟩, -, -⟩
        rfl

/-- What can be written to its end can be opened, and takes all. -/
theorem writable_eq_ok {p : Path} :
    fs.writable p = .ok l ↔ fs.openable p = .ok l ∧ fs.full? l = none := by
  rw [writable]
  cases fs.openable p with
  | error fault => simp
  | ok m =>
    dsimp only
    split
    · next hfull =>
      refine iff_of_false nofun ?_
      rintro ⟨⟨⟩, htakes⟩
      cases hfull.symm.trans htakes
    · next htakes =>
      constructor
      · rintro ⟨⟩
        exact ⟨rfl, htakes⟩
      · rintro ⟨⟨⟩, -⟩
        rfl

theorem openable_put {p : Path} (h : fs.openable p = .ok l) (content : Bytes) :
    (fs.put l (.file content)).openable p = .ok l := by
  obtain ⟨hp, hnode, hopen⟩ := openable_eq_ok.mp h
  refine openable_eq_ok.mpr ⟨locate_put hnode hp _, ?_, hopen⟩
  rw [node?_put (ne_nil_of_notDirectory hnode), if_pos rfl]
  exact fun he => (nomatch he)

/-- A place that can be opened for writing can be read. -/
theorem closed?_of_unwritable? (h : fs.unwritable? l = none) : fs.closed? l = none := by
  unfold unwritable? at h
  unfold closed?
  cases hl : fs.hindrance? l with
  | none => rfl
  | some hindrance =>
    rw [hl] at h
    cases hindrance with
    | closed fault => cases h
    | readOnly fault => cases h
    | full fault kept => rfl

theorem read_put {p : Path} (h : fs.openable p = .ok l) (content : Bytes) :
    (fs.put l (.file content)).read p = .ok content := by
  obtain ⟨hp, hnode, hopen⟩ := openable_eq_ok.mp h
  have hclosed : (fs.put l (.file content)).closed? l = none := closed?_of_unwritable? hopen
  rw [read, locate_put hnode hp]
  dsimp only
  rw [node?_put (ne_nil_of_notDirectory hnode), if_pos rfl, hclosed]

end SchemaTransfer.FileSystem
