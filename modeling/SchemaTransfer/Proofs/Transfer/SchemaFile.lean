import SchemaTransfer.Proofs.File.System
import SchemaTransfer.Proofs.Schema.Renaming
import SchemaTransfer.Transfer.Pipeline

/-!
# Schema files

What is written to a schema file is read from it again. Reading changes nothing, and writing changes
no file but the one at the path.
-/
namespace SchemaTransfer

variable {F : Path} {c d : ClusterSchema} {w w' : World}

/-! ## Reading -/

/-- A path can be at fault in two ways. -/
theorem Run.noName?_eq_some {p : Path} {e : Failure} (h : noName? p = some e) :
    (∃ u, e = .unencodable u) ∨ e = .nulInPath := by
  rw [noName?] at h
  split at h
  · cases h
    exact Or.inl ⟨_, rfl⟩
  · split at h
    · cases h
      exact Or.inr rfl
    · cases h

theorem Run.readText_world (p : Path) (describe : FileFault → AccessError) (w : World) :
    (readText p describe w).2 = w := by
  rw [readText]
  split
  · rfl
  split
  · rfl
  split <;> rfl

theorem Run.unseen_readText (p : Path) (describe : FileFault → AccessError) :
    Unseen (readText p describe) := by
  intro w
  rw [readText_world]
  exact .refl _ w

theorem unseen_readSchemaFile (p : Path) : Run.Unseen (readSchemaFile p) :=
  Run.within_bind (Run.unseen_info _) fun _ => Run.within_bind (Run.unseen_readText _ _)
    fun _ => Run.within_ofExcept _

/-- What is read depends on the one file alone. -/
theorem Run.readText_congr {v : World} {describe : FileFault → AccessError}
    (h : v.files.read F = w.files.read F) :
    (readText F describe v).1 = (readText F describe w).1 := by
  rw [readText, readText, h]
  split
  · rfl
  split
  · rfl
  split <;> rfl

theorem Run.readText_of_plain {describe : FileFault → AccessError} {t : Text} {content : Bytes}
    (ht : t.Plain) (hF : noName? F = none) (hread : w.files.read F = .ok content)
    (hdecode : Utf8.decode content = .ok t) : readText F describe w = (.ok t, w) := by
  rw [readText, hF]
  dsimp only
  rw [hread]
  dsimp only
  rw [hdecode]
  dsimp only
  rw [ht.unifyNewlines_eq_self]

theorem readSchemaFileBy_result (parse : Text → Except Failure ClusterSchema) (F : Path)
    (w : World) :
    (readSchemaFileBy parse F w).1 = (Run.readText F (.readSchema F) w).1.bind parse := by
  have hread : (Run.readText F (.readSchema F) (w.note (.log .info
      ("Reading schema from file " ++ F.text ++ ".")))).1 = (Run.readText F (.readSchema F) w).1 :=
    Run.readText_congr rfl
  rw [← hread, readSchemaFileBy, Run.bind_apply, Run.log, Run.note]
  dsimp only
  rw [Run.bind_apply]
  rcases Run.readText F (.readSchema F) _ with ⟨_ | t, v⟩
  · rfl
  · exact Run.ofExcept_result (parse t) v

theorem readSchemaFile_result (F : Path) (w : World) :
    (readSchemaFile F w).1 = (Run.readText F (.readSchema F) w).1.bind ClusterSchema.ofText :=
  readSchemaFileBy_result _ F w

theorem readSchemaFile_congr {v : World} (h : v.files.read F = w.files.read F) :
    (readSchemaFile F v).1 = (readSchemaFile F w).1 := by
  rw [readSchemaFile_result, readSchemaFile_result, Run.readText_congr h]

/-- A definition from a file has all that a definition needs to be written and read again. -/
theorem readSchemaFile_portable (h : (readSchemaFile F w).1 = .ok c) : c.Sound ∧ c.Portable := by
  rw [readSchemaFile_result] at h
  rcases hread : Run.readText F (.readSchema F) w with ⟨_ | t, v⟩
  · rw [hread] at h
    cases h
  · rw [hread] at h
    exact ClusterSchema.portable_of_ofText (Run.surrogateFree_of_readText hread) h

/-! ## Writing and reading again -/

/-- The file at the path holds the written form of the definition. -/
structure World.Holds (w : World) (F : Path) (c : ClusterSchema) : Prop where
  named : Run.noName? F = none
  content : ∃ content, w.files.read F = .ok content ∧
    Utf8.decode content = .ok (c.asJson.pretty ++ "\n")

theorem World.Holds.of_read {v : World} (h : w.Holds F c) (hv : v.files.read F = w.files.read F) :
    v.Holds F c :=
  ⟨h.named, hv ▸ h.content⟩

/-- The written form of a definition is the same bytes wherever it is held. -/
theorem World.Holds.read_eq {v : World} {G : Path} (h : w.Holds F c) (h' : v.Holds G c) :
    v.files.read G = w.files.read F := by
  obtain ⟨content, hread, hdecode⟩ := h.content
  obtain ⟨content', hread', hdecode'⟩ := h'.content
  have hcontent : some content' = some content :=
    (Utf8.encode?_of_decode hdecode').symm.trans (Utf8.encode?_of_decode hdecode)
  rw [hread, hread', Option.some.inj hcontent]

theorem plain_written (c : ClusterSchema) : Text.Plain (c.asJson.pretty ++ "\n") :=
  Text.plain_append.mpr ⟨Json.plain_render _ _ _, by decide⟩

/-! ## How writing ends -/

/-- The path leads to a place that can be opened for writing. -/
structure World.Opens (w : World) (F : Path) (l : Location) : Prop where
  named : Run.noName? F = none
  openable : w.files.openable F = .ok l

/-- The world with an empty file at a place, and a record of that. -/
def World.emptied (w : World) (l : Location) : World :=
  { w with files := w.files.put l (.file []) }.note (.opened l)

def World.holding (w : World) (l : Location) (content : Bytes) : World :=
  { w with files := w.files.put l (.file content) }

/-- Failures of opening a file to write to it. -/
inductive OpenFailure (F : Path) : Failure → Prop
  | unencodable (u : Unencodable) : OpenFailure F (.unencodable u)
  | nulInPath : OpenFailure F .nulInPath
  | refused (fault : FileFault) : OpenFailure F (.access (.writeSchema F fault))

/-- How writing what `content` makes of a definition ends, and the world that it leaves: the file
cannot be opened; or it is, which empties it, and then there is no content, or only a part of the
content gets into the file, or all of it. -/
inductive WriteOutcome (content : ClusterSchema → Except Failure Bytes) (F : Path)
    (c : ClusterSchema) (w : World) : Except Failure Unit → World → Prop
  | shut {e : Failure} (hshut : ∀ l, ¬ w.Opens F l) (he : OpenFailure F e) :
    WriteOutcome content F c w (.error e) w
  | emptied {l : Location} {e : Failure} (hopens : w.Opens F l) (hcontent : content c = .error e) :
    WriteOutcome content F c w (.error e) (w.emptied l)
  | cut {l : Location} {b : Bytes} {fault : FileFault} {kept : Nat} (hopens : w.Opens F l)
    (hcontent : content c = .ok b) (hfull : w.files.full? l = some (fault, kept)) :
    WriteOutcome content F c w (.error (.access (.writeSchema F fault)))
      ((w.emptied l).holding l (b.take kept))
  | written {l : Location} {b : Bytes} (hopens : w.Opens F l) (hcontent : content c = .ok b)
    (htakes : w.files.full? l = none) :
    WriteOutcome content F c w (.ok ()) (((w.emptied l).holding l b).note
      (.log .info ("Wrote schema to file " ++ F.text ++ ".")))

theorem writeOutcome (content : ClusterSchema → Except Failure Bytes) (F : Path)
    (c : ClusterSchema) (w : World) : WriteOutcome content F c w
      (writeSchemaFileBy content F (some c) w).1 (writeSchemaFileBy content F (some c) w).2 := by
  rw [writeSchemaFileBy, Run.bind_apply, Run.openFile]
  cases hF : Run.noName? F with
  | some failure =>
    have hshut : ∀ l, ¬ w.Opens F l := by
      intro l h
      cases hF.symm.trans h.named
    obtain ⟨u, rfl⟩ | rfl := Run.noName?_eq_some hF
    · exact .shut hshut (.unencodable u)
    · exact .shut hshut .nulInPath
  | none =>
    dsimp only
    cases hl : w.files.openable F with
    | error fault =>
      have hshut : ∀ l, ¬ w.Opens F l := by
        intro l h
        cases hl.symm.trans h.openable
      exact .shut hshut (.refused fault)
    | ok l =>
      dsimp only
      rw [Run.bind_apply]
      cases hcontent : content c with
      | error e => exact .emptied ⟨hF, hl⟩ hcontent
      | ok b =>
        dsimp only [Run.ofExcept, Run.pure]
        rw [Run.bind_apply, Run.writeFile]
        have hstill : ({ w with files := w.files.put l (.file []) }.note (.opened l)).files.full? l =
          w.files.full? l := rfl
        rw [hstill]
        cases hfull : w.files.full? l with
        | none => exact .written ⟨hF, hl⟩ hcontent hfull
        | some found => exact .cut ⟨hF, hl⟩ hcontent hfull

/-- The outcome of a write of which the end is known. -/
theorem writeOutcome_of_eq {r : Except Failure Unit}
    (h : writeSchemaFile F (some c) w = (r, w')) :
    WriteOutcome ClusterSchema.toBytes F c w r w' := by
  have houtcome := writeOutcome ClusterSchema.toBytes F c w
  rw [← writeSchemaFile, h] at houtcome
  exact houtcome

theorem World.Opens.unique {l m : Location} (hl : w.Opens F l) (hm : w.Opens F m) : l = m :=
  Except.ok.inj (hl.openable.symm.trans hm.openable)

/-! ## What was written -/

theorem plain_of_toText {t : Text} (h : c.toText = .ok t) : t.Plain := by
  obtain ⟨v, -, rfl⟩ := map_eq_ok.mp h
  exact Text.plain_append.mpr ⟨Json.plain_render _ _ _, by decide⟩

theorem ClusterSchema.toBytes_eq_ok {b : Bytes} :
    c.toBytes = .ok b ↔ ∃ t, c.toText = .ok t ∧ Utf8.encode? t = some b := by
  rw [toBytes, map_eq_ok]
  refine exists_congr fun t => and_congr_right fun ht => ?_
  obtain ⟨content, hcontent⟩ := Utf8.encode?_isSome.mpr (plain_of_toText ht).surrogateFree
  rw [hcontent, Option.getD_some, Option.some.injEq]

/-- Opening empties the file, and then it gets its content; nothing else comes in between. -/
theorem writeSchemaFile_holds (hc : c.Writable) (hF : Run.noName? F = none) {l : Location}
    (hl : w.files.writable F = .ok l) :
    ∃ v, writeSchemaFile F (some c) w = (.ok (), v) ∧ v.Holds F c ∧ w.SameDestination v := by
  obtain ⟨hopenable, htakes⟩ := FileSystem.writable_eq_ok.mp hl
  obtain ⟨content, hencode⟩ := Utf8.encode?_isSome.mpr (plain_written c).surrogateFree
  have hbytes : c.toBytes = .ok content :=
    ClusterSchema.toBytes_eq_ok.mpr ⟨_, ClusterSchema.toText_eq hc, hencode⟩
  rcases hwrite : writeSchemaFile F (some c) w with ⟨r, v⟩
  have houtcome := writeOutcome_of_eq hwrite
  have hopens : w.Opens F l := ⟨hF, hopenable⟩
  cases houtcome with
  | shut hshut => exact absurd hopens (hshut l)
  | emptied _ hcontent => cases hbytes.symm.trans hcontent
  | cut hopens' _ hfull =>
    obtain rfl := hopens.unique hopens'
    cases htakes.symm.trans hfull
  | written hopens' hcontent _ =>
    obtain rfl := hopens.unique hopens'
    cases hbytes.symm.trans hcontent
    refine ⟨_, rfl, ⟨hF, content, ?_, Utf8.decode_of_encode? hencode⟩, ?_⟩
    · exact FileSystem.read_put (FileSystem.openable_put hopenable []) content
    · have hemptied := (World.SameDestination.refl w).withFiles (w.files.put l (.file []))
      have hnoted := hemptied.noteOther (e := .opened l) rfl
      exact (hnoted.withFiles _).noteOther rfl

/-- Only a file that can be written to its end is. -/
theorem writeSchemaFile_eq_ok (h : writeSchemaFile F (some c) w = (.ok (), w')) :
    Run.noName? F = none ∧ ∃ l, w.files.writable F = .ok l := by
  cases writeOutcome_of_eq h with
  | written hopens _ htakes =>
    exact ⟨hopens.named, _, FileSystem.writable_eq_ok.mpr ⟨hopens.openable, htakes⟩⟩

/-- Whether a definition can be written depends on the files alone. -/
theorem writeSchemaFile_congr {v : World} (h : v.files = w.files) :
    (writeSchemaFile F (some c) v).1 = (writeSchemaFile F (some c) w).1 := by
  rw [writeSchemaFile, writeSchemaFileBy, Run.bind_apply, Run.bind_apply, Run.openFile,
    Run.openFile, h]
  cases Run.noName? F with
  | some failure => rfl
  | none =>
    dsimp only
    cases w.files.openable F with
    | error fault => rfl
    | ok l =>
      dsimp only
      rw [Run.bind_apply, Run.bind_apply]
      cases c.toBytes with
      | error e => rfl
      | ok b =>
        dsimp only [Run.ofExcept, Run.pure]
        rw [Run.bind_apply, Run.bind_apply, Run.writeFile, Run.writeFile]
        have hv : ({ v with files := w.files.put l (.file []) }.note (.opened l)).files.full? l =
          w.files.full? l := rfl
        have hw : ({ w with files := w.files.put l (.file []) }.note (.opened l)).files.full? l =
          w.files.full? l := rfl
        rw [hv, hw]
        cases w.files.full? l <;> rfl

/-- What was written is the text of the definition and nothing else. -/
theorem writeSchemaFile_content (h : writeSchemaFile F (some c) w = (.ok (), w')) :
    ∃ t content, c.toText = .ok t ∧ Utf8.encode? t = some content ∧
      w'.files.read F = .ok content := by
  cases writeOutcome_of_eq h with
  | @written l content hopens hcontent htakes =>
    obtain ⟨t, htext, hencode⟩ := ClusterSchema.toBytes_eq_ok.mp hcontent
    exact ⟨t, content, htext, hencode,
      FileSystem.read_put (FileSystem.openable_put hopens.openable []) content⟩

theorem readSchemaFile_of_holds (hs : c.Sound) (hw : c.Writable) (hn : c.NamesUnpaired)
    (h : w.Holds F c) : (readSchemaFile F w).1 = .ok c.joined := by
  obtain ⟨content, hread, hdecode⟩ := h.content
  rw [readSchemaFile_result, Run.readText_of_plain (plain_written c) h.named hread hdecode]
  exact ClusterSchema.ofText_written hs hw hn

/-! ## What writing changes -/

/-- From the first world to the second no file changed but the one at the path, and nothing happened
but that it was opened. -/
structure World.WritesOnly (F : Path) (u v : World) : Prop where
  elsewhere : ∀ l, u.files.locate F ≠ .ok l → v.files.node? l = u.files.node? l
  workingDirectory : v.files.workingDirectory = u.files.workingDirectory
  tables : v.tables = u.tables
  record : ∃ es, v.events = u.events ++ es ∧
    ∀ e ∈ es, e.isQuiet ∨ ∃ l, u.files.locate F = .ok l ∧ e = .opened l

namespace World

variable {u v : World}

theorem Passes.writesOnly (h : u.Passes Event.isQuiet v) : u.WritesOnly F v := by
  obtain ⟨hfiles, htables, es, hevents, hes⟩ := h
  exact ⟨fun _ _ => by rw [hfiles], by rw [hfiles], htables, es, hevents,
    fun e he => Or.inl (hes e he)⟩

theorem WritesOnly.before (huv : u.Passes Event.isQuiet v) (h : v.WritesOnly F w) :
    u.WritesOnly F w := by
  obtain ⟨hfiles, htables, es, hevents, hes⟩ := huv
  obtain ⟨helsewhere, hdirectory, htables', fs, hevents', hfs⟩ := h
  rw [hfiles] at helsewhere hdirectory hfs
  refine ⟨helsewhere, hdirectory, htables'.trans htables, es ++ fs, ?_,
    List.forall_mem_append.mpr ⟨fun e he => Or.inl (hes e he), hfs⟩⟩
  rw [hevents', hevents, List.append_assoc]

theorem WritesOnly.after (h : u.WritesOnly F v) (hvw : v.Passes Event.isQuiet w) :
    u.WritesOnly F w := by
  obtain ⟨hfiles, htables, es, hevents, hes⟩ := hvw
  obtain ⟨helsewhere, hdirectory, htables', fs, hevents', hfs⟩ := h
  refine ⟨fun l hl => by rw [hfiles, helsewhere l hl], by rw [hfiles, hdirectory],
    htables.trans htables', fs ++ es, ?_,
    List.forall_mem_append.mpr ⟨hfs, fun e he => Or.inl (hes e he)⟩⟩
  rw [hevents, hevents', List.append_assoc]

/-- To write a file is no matter of a connection. -/
theorem WritesOnly.records (h : u.WritesOnly F v) : u.Records (fun e => !e.isConnection) v := by
  obtain ⟨es, hevents, hes⟩ := h.record
  refine ⟨es, hevents, fun e he => ?_⟩
  rcases hes e he with hquiet | ⟨l, -, rfl⟩
  · exact Event.not_isConnection_of_isQuiet hquiet
  · rfl

/-- A file that is written once it was opened is still the only one that changes. -/
theorem WritesOnly.holding (h : u.WritesOnly F v) {l : Location} (hl : u.Opens F l)
    (content : Bytes) : u.WritesOnly F (v.holding l content) := by
  obtain ⟨hp, hnode, -⟩ := FileSystem.openable_eq_ok.mp hl.openable
  refine ⟨fun m hm => ?_, h.workingDirectory, h.tables, h.record⟩
  have hne : m ≠ l := by
    rintro rfl
    exact hm hp
  rw [World.holding, FileSystem.node?_put (FileSystem.ne_nil_of_notDirectory hnode), if_neg hne]
  exact h.elsewhere m hm

theorem writesOnly_emptied {l : Location} (hl : u.Opens F l) : u.WritesOnly F (u.emptied l) := by
  have hnothing : u.WritesOnly F u := (Passes.refl _ u).writesOnly
  obtain ⟨helsewhere, hdirectory, htables, -⟩ := hnothing.holding hl []
  have hp := (FileSystem.openable_eq_ok.mp hl.openable).1
  exact ⟨helsewhere, hdirectory, htables, [.opened l], rfl,
    List.forall_mem_singleton.mpr (Or.inr ⟨l, hp, rfl⟩)⟩

end World

theorem WriteOutcome.writesOnly {content : ClusterSchema → Except Failure Bytes}
    {r : Except Failure Unit} (h : WriteOutcome content F c w r w') : w.WritesOnly F w' := by
  cases h with
  | shut => exact (World.Passes.refl _ w).writesOnly
  | emptied hopens => exact World.writesOnly_emptied hopens
  | cut hopens => exact (World.writesOnly_emptied hopens).holding hopens _
  | written hopens =>
    exact ((World.writesOnly_emptied hopens).holding hopens _).after (World.passes_note _ rfl)

theorem writeSchemaFile_writesOnly (F : Path) (c : ClusterSchema) (w : World) :
    w.WritesOnly F (writeSchemaFile F (some c) w).2 :=
  (writeOutcome ClusterSchema.toBytes F c w).writesOnly

end SchemaTransfer
