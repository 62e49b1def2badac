import SchemaTransfer.Proofs.Json.LineEnds
import SchemaTransfer.Proofs.Transfer.Legible

/-!
# Line ends in files

The line ends of a schema file or a mapping file are unified when it is read, anywhere in its text.
What is parsed then comes to the same as the text itself: no name and no value changes, and a text
that is refused is refused for the same reason.
-/
namespace SchemaTransfer

variable {α : Type} {complaint : Json.Cause → Place → DecodeError} {r r' : Except Failure α}

/-- Two ways in which a parser ends that differ at most in the place of a fault. -/
inductive ParsedAlike (complaint : Json.Cause → Place → DecodeError) :
    Except Failure α → Except Failure α → Prop
  | parsed (a : α) : ParsedAlike complaint (.ok a) (.ok a)
  | malformed (cause : Json.Cause) (place place' : Place) :
    ParsedAlike complaint (.error (.decode (complaint cause place)))
      (.error (.decode (complaint cause place')))
  | refused (e : Failure) : ParsedAlike complaint (.error e) (.error e)

theorem ParsedAlike.eq_ok_iff (h : ParsedAlike complaint r r') (a : α) :
    r' = .ok a ↔ r = .ok a := by
  cases h with
  | parsed b => exact Iff.rfl
  | malformed cause place place' => exact iff_of_false nofun nofun
  | refused e => exact Iff.rfl

theorem parsedAlike_unifyNewlines (complaint : Json.Cause → Place → DecodeError)
    (decode : Json → Except Failure α) (t : Text) :
    ParsedAlike complaint (parseWith complaint decode t)
      (parseWith complaint decode t.unifyNewlines) := by
  rw [parseWith, parseWith, Json.read, Json.read, Json.document_unifyNewlines]
  cases Json.document t with
  | error stop =>
    cases stop with
    | malformed cause rest => exact .malformed cause _ _
    | tooManyDigits count rest => exact .refused _
  | ok v =>
    dsimp only [Except.mapError]
    cases decode v with
    | error e => exact .refused _
    | ok a => exact .parsed a

theorem Run.readText_spelled {p : Path} {describe : FileFault → AccessError} {w : World} {t : Text}
    {content : Bytes} (hname : noName? p = none) (hread : w.files.read p = .ok content)
    (ht : Utf8.Spells t content) : readText p describe w = (.ok t.unifyNewlines, w) := by
  have hdecode := Utf8.decode_eq_ok_iff.mpr ht
  simp only [readText, hname, hread, hdecode]

/-- A mapping file renames tables as its text does, whatever the line ends are. -/
theorem Renaming.load_any_line_ends {p : Path} {w : World} {t : Text} {content : Bytes}
    (hname : Run.noName? p = none) (hread : w.files.read p = .ok content)
    (ht : Utf8.Spells t content) (r : Renaming) : (load p w).1 = .ok r ↔ ofText p t = .ok r := by
  have halike := parsedAlike_unifyNewlines (.mappingText p) (ofJson p) t
  rw [load, loadBy_result, Run.readText_spelled hname hread ht, ofText_eq]
  exact halike.eq_ok_iff r

/-- Whatever text a schema file holds, it is parsed with a line feed in place of every line end of
another kind. That is all one: either the very same definition comes from the text as it is, or that
is refused for the same reason, at a place that may be another. -/
theorem readSchemaFile_any_line_ends (t : Text) :
    ∃ s, (∀ s', Text.Unified t s' ↔ s' = s) ∧
      ParsedAlike .schemaText (ClusterSchema.ofText t) (ClusterSchema.ofText s) ∧
      ∀ p w content, Run.noName? p = none → w.files.read p = .ok content →
        Utf8.Spells t content → (readSchemaFile p w).1 = ClusterSchema.ofText s ∧
          ∀ c, (readSchemaFile p w).1 = .ok c ↔ ClusterSchema.ofText t = .ok c := by
  have halike : ParsedAlike .schemaText (ClusterSchema.ofText t)
      (ClusterSchema.ofText t.unifyNewlines) := by
    rw [ClusterSchema.ofText_eq]
    exact parsedAlike_unifyNewlines _ _ t
  refine ⟨t.unifyNewlines, fun s' => ⟨fun h => h.eq.symm, ?_⟩, halike, ?_⟩
  · rintro rfl
    exact Text.unified_unifyNewlines t
  · intro p w content hname hread ht
    have hfile : (readSchemaFile p w).1 = ClusterSchema.ofText t.unifyNewlines := by
      rw [readSchemaFile_result, Run.readText_spelled hname hread ht]
      rfl
    exact ⟨hfile, fun c => hfile ▸ halike.eq_ok_iff c⟩

/-- A text with line ends of two kinds, and with carriage returns that are written as escapes. -/
def twoLineEnds : Text :=
  "\x7b\r\n\"tableSchemaDefinitions\":\r[\x7b\"name\":\"a\\r\",\r\n\"splits\":\r[\"k\\r\\n\"]\x7d]\x7d"

/-- A world with the file `s`, which holds that text. -/
def twoLineEndsWorld : World where
  files := (FileSystem.empty []).place [[0x73]] (.file ((Utf8.encode? twoLineEnds).getD []))
  tables := []
  events := []

/-- Escapes in names and splits stay what they are, whatever becomes of the line ends around them. -/
theorem readSchemaFile_any_line_ends_two : ∃ c, (readSchemaFile (.ofText "s") twoLineEndsWorld).1 =
    .ok c ∧ ClusterSchema.ofText twoLineEnds = .ok c ∧
      c.tables.map TableSchema.name = ["a\r"] ∧
      c.tables.map TableSchema.splits = [[[0x6B, 0x0D, 0x0A]]] := by
  have hparsed : ((ClusterSchema.ofText twoLineEnds).toOption.map fun c =>
      (c.tables.map TableSchema.name, c.tables.map TableSchema.splits)) =
        some (([("a\r" : Text)], [[[0x6B, 0x0D, 0x0A]]]) : List Text × List (List Bytes)) := by
    decide +kernel
  obtain ⟨c, htext, hpair⟩ := eq_ok_of_toOption hparsed
  rcases hbytes : Utf8.encode? twoLineEnds with _ | content
  · have hencoded : (Utf8.encode? twoLineEnds).isSome := by decide +kernel
    rw [hbytes] at hencoded
    cases hencoded
  have hread : twoLineEndsWorld.files.read (.ofText "s") = .ok content := by
    rw [← Option.getD_some (a := content) (b := []), ← hbytes]
    rfl
  obtain ⟨s, -, -, hfile⟩ := readSchemaFile_any_line_ends twoLineEnds
  obtain ⟨-, hsame⟩ := hfile (.ofText "s") twoLineEndsWorld content (by decide +kernel) hread
    (Utf8.encode?_eq_some_iff.mp hbytes)
  exact ⟨c, (hsame c).mpr htext, htext, congrArg Prod.fst hpair, congrArg Prod.snd hpair⟩

end SchemaTransfer
