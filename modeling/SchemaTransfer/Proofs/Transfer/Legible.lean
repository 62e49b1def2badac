import SchemaTransfer.Proofs.Json.LongNumeral
import SchemaTransfer.Proofs.Json.Nesting
import SchemaTransfer.Proofs.Run.Failures
import SchemaTransfer.Proofs.Schema.Acceptance
import SchemaTransfer.Proofs.Text.WellFormed
import SchemaTransfer.Proofs.Transfer.SchemaFile

/-!
# Files that can be read or be complained of

A schema file or a mapping file that is missing, that cannot be opened or whose content is malformed
is complained of as such. There are five things that neither reader has words for: two kinds of
paths that no file can have, bytes that are not UTF-8, numerals that are too long, and arrays and
objects that nest deeper than a reader has room for.
-/
namespace SchemaTransfer

/-- If the path has a file, a reader with so much room does not come to an array or an object that
is too deep inside others. -/
def Shallow (room : Nat) (p : Path) (fs : FileSystem) : Prop :=
  ∀ content t, fs.read p = .ok content → Utf8.Spells t content →
    Json.overflow? room t.unifyNewlines = none

/-- What such a reader reads there is no deeper than it has room for. -/
theorem Shallow.depth_le {room : Nat} {p : Path} {fs : FileSystem} {content : Bytes} {t : Text}
    {v : Json} (h : Shallow room p fs) (hread : fs.read p = .ok content)
    (ht : Utf8.Spells t content) (hv : Json.read t.unifyNewlines = .ok v) : v.depth ≤ room :=
  Json.depth_le_of_read hv (h content t hread ht)

/-- A path that may name a file, though there need not be one. If there is one, its bytes are UTF-8,
and a reader comes neither to a numeral that is too long nor to what it has no room for. -/
structure Legible (room : Nat) (p : Path) (fs : FileSystem) : Prop where
  encodable : ∀ c ∈ p.text, c.isSurrogate = true → FileName.isStray c = true
  nulFree : p.hasNul = false
  spelled : ∀ content, fs.read p = .ok content → Utf8.WellFormed content
  short : ∀ content t, fs.read p = .ok content → Utf8.Spells t content →
    ∀ count, Json.read t.unifyNewlines ≠ .error (.tooManyDigits count)
  shallow : Shallow room p fs

/-! ## Paths -/

theorem Unencodable.find?_eq_none {place : Nat} {t : Text} :
    find? place t = none ↔ ∀ c ∈ t, c.isSurrogate = true → FileName.isStray c = true := by
  induction t generalizing place with
  | nil => exact iff_of_true rfl (List.forall_mem_nil _)
  | cons c rest ih =>
    rw [find?, List.forall_mem_cons]
    by_cases h : c.isSurrogate = true → FileName.isStray c = true
    · rw [if_neg (by simpa using h), ih]
      exact (and_iff_right h).symm
    · rw [if_pos (by simpa using h)]
      exact iff_of_false nofun fun hall => h hall.1

theorem Run.noName?_eq_none {p : Path} : noName? p = none ↔
    (∀ c ∈ p.text, c.isSurrogate = true → FileName.isStray c = true) ∧ p.hasNul = false := by
  have hfind : Unencodable.find? 0 p.text = none ↔ _ := Unencodable.find?_eq_none
  rw [noName?, ← hfind]
  cases Unencodable.find? 0 p.text with
  | some u => simp
  | none => cases p.hasNul <;> simp

/-! ## The readers -/

/-- A parser that reads JSON, and decodes what it read if that can be done. -/
def parseWith {α : Type} (complaint : Json.Cause → Place → DecodeError)
    (decode : Json → Except Failure α) (t : Text) : Except Failure α :=
  match Json.read t with
  | .error (.malformed cause place) => .error (.decode (complaint cause place))
  | .error (.tooManyDigits count) => .error (.tooManyDigits count)
  | .ok v => decode v

/-- Whatever keeps a value that was read from being decoded is a decode error. -/
def Decodes {α : Type} (decode : Json → Except Failure α) : Prop :=
  ∀ v e, v.Everywhere Json.DigitsFit → decode v = .error e → ∃ d, e = .decode d

theorem ClusterSchema.ofText_eq : ofText = parseWith .schemaText ofJson := rfl

theorem ClusterSchema.decodes : Decodes ofJson := fun _ _ hd h => isDecode_of_ofJson hd h

/-- The renaming that a value stands for. -/
def Renaming.ofJson (p : Path) : Json → Except Failure Renaming
  | .object members => ((entriesOfJson p members).map Dict.ofList).mapError .decode
  | _ => .error (.decode (.mappingNotObject p))

theorem Renaming.ofText_eq (p : Path) : ofText p = parseWith (.mappingText p) (ofJson p) := by
  funext t
  rw [ofText, parseWith]
  cases Json.read t with
  | error stop => cases stop <;> rfl
  | ok v => cases v <;> rfl

theorem Renaming.eq_decode_of_ofJson {p : Path} {v : Json} {e : Failure}
    (h : ofJson p v = .error e) : ∃ d, e = .decode d := by
  cases v with
  | object members =>
    obtain ⟨d, -, rfl⟩ := mapError_eq_error.mp h
    exact ⟨d, rfl⟩
  | null | bool | int | double | string | array =>
    cases h
    exact ⟨_, rfl⟩

theorem Renaming.decodes (p : Path) : Decodes (ofJson p) := fun _ _ _ h => eq_decode_of_ofJson h

/-- What comes of reading a file: if the file is legible, all faults are complained of, and if it is
not, there is one that has no words. -/
inductive ReadOutcome {α : Type} (room : Nat) (p : Path) (fs : FileSystem) :
    Except Failure α → Prop
  | done {a : α} (hlegible : Legible room p fs) : ReadOutcome room p fs (.ok a)
  | complained {e : Failure} (hlegible : Legible room p fs) (hfile : e.isFileError) :
    ReadOutcome room p fs (.error e)
  | unworded {e : Failure} (hillegible : ¬ Legible room p fs) (hforeign : e.isReported = false) :
    ReadOutcome room p fs (.error e)

variable {α : Type} {room : Nat} {p : Path} {w : World}

theorem ReadOutcome.all_complained_iff {fs : FileSystem} {r : Except Failure α}
    (h : ReadOutcome room p fs r) :
    (∀ e, r = .error e → e.isFileError) ↔ Legible room p fs := by
  cases h with
  | done hlegible => exact iff_of_true nofun hlegible
  | @complained e hlegible hfile =>
    refine iff_of_true (fun e' he => ?_) hlegible
    cases he
    exact hfile
  | @unworded e hillegible hforeign =>
    have hother := Failure.not_isFileError_of_not_isReported hforeign
    exact iff_of_false (fun hall => Bool.false_ne_true (hother.symm.trans (hall e rfl))) hillegible

theorem ReadOutcome.isReported_iff {fs : FileSystem} {e : Failure}
    (h : ReadOutcome room p fs (.error e : Except Failure α)) :
    e.isReported ↔ Legible room p fs := by
  cases h with
  | complained hlegible hfile =>
    exact iff_of_true (Failure.isReported_of_isFileError hfile) hlegible
  | unworded hillegible hforeign =>
    exact iff_of_false (Bool.eq_false_iff.mp hforeign) hillegible

theorem ReadOutcome.fault_of_not_legible {fs : FileSystem} {r : Except Failure α}
    (h : ReadOutcome room p fs r) (hillegible : ¬ Legible room p fs) :
    ∃ e, r = .error e ∧ e.isReported = false := by
  cases h with
  | done hlegible => exact absurd hlegible hillegible
  | complained hlegible => exact absurd hlegible hillegible
  | unworded _ hforeign => exact ⟨_, rfl, hforeign⟩

/-- A file that cannot be read has no content that could be illegible. -/
theorem legible_of_unread {fs : FileSystem} {fault : FileFault} (hname : Run.noName? p = none)
    (hread : fs.read p = .error fault) : Legible room p fs := by
  have hnone : ∀ content, fs.read p ≠ .ok content := by
    intro content h
    cases hread.symm.trans h
  obtain ⟨hencodable, hnul⟩ := Run.noName?_eq_none.mp hname
  exact ⟨hencodable, hnul, fun content h => absurd h (hnone content),
    fun content _ h => absurd h (hnone content), fun content _ h => absurd h (hnone content)⟩

theorem legible_iff {fs : FileSystem} {content : Bytes} {t : Text} (hname : Run.noName? p = none)
    (hread : fs.read p = .ok content) (ht : Utf8.Spells t content) :
    Legible room p fs ↔ (∀ count, Json.read t.unifyNewlines ≠ .error (.tooManyDigits count)) ∧
      Json.overflow? room t.unifyNewlines = none := by
  obtain ⟨hencodable, hnul⟩ := Run.noName?_eq_none.mp hname
  refine ⟨fun h => ⟨h.short content t hread ht, h.shallow content t hread ht⟩,
    fun ⟨hshort, hshallow⟩ => ?_⟩
  have hsame : ∀ content' t', fs.read p = .ok content' → Utf8.Spells t' content' → t' = t := by
    intro content' t' hread' ht'
    cases hread.symm.trans hread'
    cases (Utf8.decode_eq_ok_iff.mpr ht).symm.trans (Utf8.decode_eq_ok_iff.mpr ht')
    rfl
  refine ⟨hencodable, hnul, fun content' hread' => ?_, fun content' t' hread' ht' => ?_,
    fun content' t' hread' ht' => ?_⟩
  · cases hread.symm.trans hread'
    exact ⟨t, ht⟩
  · rw [hsame content' t' hread' ht']
    exact hshort
  · rw [hsame content' t' hread' ht']
    exact hshallow

/-- What is parsed is too deep, or malformed, or comes to a numeral that is too long, or else it is
decoded. -/
theorem readOutcome_within {t : Text} {complaint : Json.Cause → Place → DecodeError}
    {decode : Json → Except Failure α} (hdecode : Decodes decode) (ht : t.SurrogateFree)
    {fs : FileSystem}
    (h : Legible room p fs ↔ (∀ count, Json.read t ≠ .error (.tooManyDigits count)) ∧
      Json.overflow? room t = none) :
    ReadOutcome room p fs (Json.within room (parseWith complaint decode) t) := by
  rw [Json.within]
  cases hroom : Json.overflow? room t with
  | some container =>
    refine .unworded (fun hlegible => ?_) rfl
    cases hroom.symm.trans (h.mp hlegible).2
  | none =>
    dsimp only
    rw [parseWith]
    cases hread : Json.read t with
    | error stop =>
      cases stop with
      | malformed cause place =>
        exact .complained (h.mpr ⟨fun _ hlong => (nomatch hread.symm.trans hlong), hroom⟩) rfl
      | tooManyDigits count =>
        exact .unworded (fun hlegible => (h.mp hlegible).1 count hread) rfl
    | ok v =>
      have hlegible := h.mpr ⟨fun _ hlong => (nomatch hread.symm.trans hlong), hroom⟩
      dsimp only
      cases hresult : decode v with
      | ok a => exact .done hlegible
      | error e =>
        obtain ⟨d, rfl⟩ := hdecode v e (Json.portable_of_read ht hread).digits hresult
        exact .complained hlegible rfl

theorem readOutcome (room : Nat) (p : Path) (describe : FileFault → AccessError)
    (complaint : Json.Cause → Place → DecodeError) {decode : Json → Except Failure α}
    (hdecode : Decodes decode) (w : World) :
    ReadOutcome room p w.files
      ((Run.readText p describe w).1.bind (Json.within room (parseWith complaint decode))) := by
  rw [Run.readText]
  cases hname : Run.noName? p with
  | some failure =>
    refine .unworded (fun h => ?_) ?_
    · cases hname.symm.trans (Run.noName?_eq_none.mpr ⟨h.encodable, h.nulFree⟩)
    · rcases Run.noName?_eq_some hname with ⟨u, rfl⟩ | rfl <;> rfl
  | none =>
    dsimp only
    cases hread : w.files.read p with
    | error fault => exact .complained (legible_of_unread hname hread) rfl
    | ok content =>
      dsimp only
      cases hdecoded : Utf8.decode content with
      | error malformed =>
        exact .unworded (fun h => Utf8.exists_decode_eq_error_iff.mp ⟨malformed, hdecoded⟩
          (h.spelled content hread)) rfl
      | ok t =>
        have hfree := surrogateFree_unifyFrom (Utf8.surrogateFree_of_decode hdecoded) false
        exact readOutcome_within hdecode hfree
          (legible_iff hname hread (Utf8.decode_eq_ok_iff.mp hdecoded))

/-- The reader of schema files that has so much room. -/
def readSchemaFileWithin (room : Nat) : Path → Run Failure ClusterSchema :=
  readSchemaFileBy (Json.within room ClusterSchema.ofText)

/-- The reader of mapping files that has so much room. -/
def Renaming.loadWithin (room : Nat) (p : Path) : Run Failure Renaming :=
  loadBy (Json.within room (ofText p)) p

theorem readOutcome_readSchemaFileWithin (room : Nat) (p : Path) (w : World) :
    ReadOutcome room p w.files (readSchemaFileWithin room p w).1 := by
  rw [readSchemaFileWithin, readSchemaFileBy_result, ClusterSchema.ofText_eq]
  exact readOutcome room p _ _ ClusterSchema.decodes w

theorem Renaming.loadBy_result (parse : Text → Except Failure Renaming) (p : Path) (w : World) :
    (loadBy parse p w).1 = (Run.readText p (.readMapping p) w).1.bind parse := by
  rw [loadBy, Run.bind_apply]
  rcases Run.readText p (.readMapping p) w with ⟨_ | t, v⟩
  · rfl
  · exact Run.ofExcept_result (parse t) v

theorem Renaming.readOutcome_loadWithin (room : Nat) (p : Path) (w : World) :
    ReadOutcome room p w.files (loadWithin room p w).1 := by
  rw [loadWithin, loadBy_result, ofText_eq]
  exact readOutcome room p _ _ (decodes p) w

/-! ## Room enough -/

/-- Where there is room enough it makes no difference how much there is. -/
theorem bind_within {describe : FileFault → AccessError} (h : Shallow room p w.files)
    (parse : Text → Except Failure α) :
    (Run.readText p describe w).1.bind (Json.within room parse) =
      (Run.readText p describe w).1.bind parse := by
  rw [Run.readText]
  cases Run.noName? p with
  | some failure => rfl
  | none =>
    dsimp only
    cases hread : w.files.read p with
    | error fault => rfl
    | ok content =>
      dsimp only
      cases hdecoded : Utf8.decode content with
      | error malformed => rfl
      | ok t =>
        have hroom := h content t hread (Utf8.decode_eq_ok_iff.mp hdecoded)
        show Json.within room parse t.unifyNewlines = parse t.unifyNewlines
        rw [Json.within, hroom]

theorem readOutcome_readSchemaFile (h : Shallow room p w.files) :
    ReadOutcome room p w.files (readSchemaFile p w).1 := by
  rw [readSchemaFile_result, ← bind_within h, ← readSchemaFileBy_result]
  exact readOutcome_readSchemaFileWithin room p w

theorem Renaming.readOutcome_load (h : Shallow room p w.files) :
    ReadOutcome room p w.files (load p w).1 := by
  rw [load, loadBy_result, ← bind_within h, ← loadBy_result]
  exact readOutcome_loadWithin room p w

/-- A file of well-formed text without too many digits in a row, and with no more brackets than there
is room for, is legible. -/
theorem legible_of_wellFormed (hname : Run.noName? p = none)
    (h : ∀ content, w.files.read p = .ok content → ∃ t, Utf8.Spells t content ∧
      (∀ count, ¬ Json.LongNumeral count t.unifyNewlines) ∧
      t.unifyNewlines.countP Json.opens ≤ room) : Legible room p w.files := by
  cases hread : w.files.read p with
  | error fault => exact legible_of_unread hname hread
  | ok content =>
    obtain ⟨t, ht, hshort, hfew⟩ := h content hread
    have hfree := surrogateFree_unifyFrom
      (Utf8.surrogateFree_of_decode (Utf8.decode_eq_ok_iff.mpr ht)) false
    exact (legible_iff hname hread ht).mpr
      ⟨fun count hlong => hshort count (Json.longNumeral_of_read hfree hlong),
        Json.overflow?_eq_none hfew⟩

end SchemaTransfer
