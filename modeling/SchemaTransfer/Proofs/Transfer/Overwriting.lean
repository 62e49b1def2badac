import SchemaTransfer.Proofs.Schema.Unwritable
import SchemaTransfer.Proofs.Transfer.SchemaFile

/-!
# What a failed write loses

A schema file is emptied when it is opened, and only then is the new content put together. Whatever
keeps a definition from being put into text therefore costs what the file held; and where the system
takes only a part of the new content, that part is left. A write that fails leaves all files as they
were only if the file could not be opened, or held before what it holds after.
-/
namespace SchemaTransfer

variable {content : ClusterSchema → Except Failure Bytes} {F : Path} {c : ClusterSchema}
  {w v : World} {r : Except Failure Unit}

/-! ## The file at the path -/

theorem World.Opens.read_emptied {l : Location} (h : w.Opens F l) :
    (w.emptied l).files.read F = .ok [] :=
  FileSystem.read_put h.openable []

theorem World.Opens.read_holding {l : Location} (h : w.Opens F l) (b : Bytes) :
    ((w.emptied l).holding l b).files.read F = .ok b :=
  FileSystem.read_put (FileSystem.openable_put h.openable []) b

/-- What a write that failed has left of the new content in an opened file: nothing where there is no
content, or the part of it that got there. -/
inductive Remains (content : ClusterSchema → Except Failure Bytes) (c : ClusterSchema) (w : World)
    (l : Location) : Bytes → Prop
  | nothing {e : Failure} (hcontent : content c = .error e) : Remains content c w l []
  | part {b : Bytes} {fault : FileFault} {kept : Nat} (hcontent : content c = .ok b)
    (hfull : w.files.full? l = some (fault, kept)) : Remains content c w l (b.take kept)

namespace WriteOutcome

theorem eq_ok_iff (h : WriteOutcome content F c w r v) : r = .ok () ↔
    ∃ l b, w.Opens F l ∧ content c = .ok b ∧ w.files.full? l = none := by
  cases h with
  | shut hshut => exact iff_of_false nofun fun ⟨l, _, hopens, _⟩ => hshut l hopens
  | emptied _ hcontent =>
    refine iff_of_false nofun fun ⟨_, _, _, hok, _⟩ => ?_
    cases hcontent.symm.trans hok
  | cut hopens _ hfull =>
    refine iff_of_false nofun fun ⟨_, _, hopens', _, htakes⟩ => ?_
    obtain rfl := hopens.unique hopens'
    cases hfull.symm.trans htakes
  | written hopens hcontent htakes => exact iff_of_true rfl ⟨_, _, hopens, hcontent, htakes⟩

theorem read_of_ok (h : WriteOutcome content F c w r v) (hr : r = .ok ()) :
    ∃ b, content c = .ok b ∧ v.files.read F = .ok b := by
  cases h with
  | shut | emptied | cut => cases hr
  | written hopens hcontent => exact ⟨_, hcontent, hopens.read_holding _⟩

theorem files_of_shut (h : WriteOutcome content F c w r v) (hshut : ∀ l, ¬ w.Opens F l) :
    v.files = w.files := by
  cases h with
  | shut => rfl
  | emptied hopens | cut hopens | written hopens => exact absurd hopens (hshut _)

theorem read_of_error (h : WriteOutcome content F c w r v) {e : Failure} (hr : r = .error e)
    {l : Location} (hl : w.Opens F l) : ∃ b, Remains content c w l b ∧ v.files.read F = .ok b := by
  cases h with
  | shut hshut => exact absurd hl (hshut l)
  | emptied hopens hcontent =>
    exact ⟨[], .nothing hcontent, hopens.read_emptied⟩
  | cut hopens hcontent hfull =>
    obtain rfl := hl.unique hopens
    exact ⟨_, .part hcontent hfull, hopens.read_holding _⟩
  | written => cases hr

theorem fails_of_remains (h : WriteOutcome content F c w r v) {l : Location} (hl : w.Opens F l)
    {b : Bytes} (hb : Remains content c w l b) : ∃ e, r = .error e ∧ v.files.read F = .ok b := by
  cases h with
  | shut hshut => exact absurd hl (hshut l)
  | emptied hopens hcontent =>
    cases hb with
    | nothing => exact ⟨_, rfl, hopens.read_emptied⟩
    | part hok => cases hcontent.symm.trans hok
  | cut hopens hcontent hfull =>
    obtain rfl := hl.unique hopens
    cases hb with
    | nothing herror => cases hcontent.symm.trans herror
    | part hcontent' hfull' =>
      cases hcontent.symm.trans hcontent'
      cases hfull.symm.trans hfull'
      exact ⟨_, rfl, hopens.read_holding _⟩
  | written hopens hcontent htakes =>
    obtain rfl := hl.unique hopens
    cases hb with
    | nothing herror => cases hcontent.symm.trans herror
    | part _ hfull => cases htakes.symm.trans hfull

/-- A write that fails changes the file at the path exactly if the file could be opened and does not
happen to hold what is left. -/
theorem loses_iff (h : WriteOutcome content F c w r v) :
    (∃ e, r = .error e ∧ v.files.read F ≠ w.files.read F) ↔
      ∃ l b, w.Opens F l ∧ Remains content c w l b ∧ w.files.read F ≠ .ok b := by
  constructor
  · rintro ⟨e, hr, hchanged⟩
    by_cases hopens : ∃ l, w.Opens F l
    · obtain ⟨l, hl⟩ := hopens
      obtain ⟨b, hb, hread⟩ := h.read_of_error hr hl
      exact ⟨l, b, hl, hb, fun hold => hchanged (hread.trans hold.symm)⟩
    · rw [h.files_of_shut (not_exists.mp hopens)] at hchanged
      exact absurd rfl hchanged
  · rintro ⟨l, b, hl, hb, hold⟩
    obtain ⟨e, hr, hread⟩ := h.fails_of_remains hl hb
    exact ⟨e, hr, fun hsame => hold (hsame.symm.trans hread)⟩

end WriteOutcome

/-- Whatever makes the content of a file: a write succeeds exactly if the path can be opened, there
is content, and all of it gets into the file; then the file holds it. A path that cannot be opened is
left alone. A write to an opened file that fails leaves nothing in it where there is no content, and
otherwise the part that got there; so it changes the file unless that is what the file held before.
No other place is changed by any write. The content of a schema file is the text of the definition
in UTF-8, and there is none exactly if some setting has a flaw. -/
theorem failed_write_loses (content : ClusterSchema → Except Failure Bytes) (F : Path)
    (c : ClusterSchema) (w : World) :
    (∃ r v, writeSchemaFileBy content F (some c) w = (r, v) ∧
      (r = .ok () ↔ ∃ l b, w.Opens F l ∧ content c = .ok b ∧ w.files.full? l = none) ∧
      (r = .ok () → ∃ b, content c = .ok b ∧ v.files.read F = .ok b) ∧
      ((∀ l, ¬ w.Opens F l) → v.files = w.files) ∧
      (∀ l b, w.Opens F l → Remains content c w l b →
        ∃ e, r = .error e ∧ v.files.read F = .ok b) ∧
      ((∃ e, r = .error e ∧ v.files.read F ≠ w.files.read F) ↔
        ∃ l b, w.Opens F l ∧ Remains content c w l b ∧ w.files.read F ≠ .ok b) ∧
      (∀ l, w.files.locate F ≠ .ok l → v.files.node? l = w.files.node? l)) ∧
    writeSchemaFile F (some c) = writeSchemaFileBy ClusterSchema.toBytes F (some c) ∧
    (∀ b, c.toBytes = .ok b ↔ ∃ t, c.toText = .ok t ∧ Utf8.encode? t = some b) ∧
    (∀ e, c.toBytes = .error e → c.Flaw e) ∧
    ((∃ e, c.Flaw e) → ∃ e, c.toBytes = .error e) := by
  refine ⟨?_, rfl, fun b => ClusterSchema.toBytes_eq_ok,
    fun e h => ClusterSchema.flaw_of_toText (map_eq_error.mp h), fun ⟨e, h⟩ => ?_⟩
  · have houtcome := writeOutcome content F c w
    obtain ⟨r, v, hwrite⟩ : ∃ r v, writeSchemaFileBy content F (some c) w = (r, v) := ⟨_, _, rfl⟩
    rw [hwrite] at houtcome
    exact ⟨r, v, hwrite, houtcome.eq_ok_iff, houtcome.read_of_ok, houtcome.files_of_shut,
      fun l b hl hb => houtcome.fails_of_remains hl hb, houtcome.loses_iff,
      houtcome.writesOnly.elsewhere⟩
  · exact h.toText_fails.imp fun _ => map_eq_error.mpr

def wasHere : Bytes := (Utf8.encode? "was here").getD []

/-- A file `o.json` that holds these words. -/
def keptWorld : World where
  files := (FileSystem.empty []).place [FileName.ofText "o.json"] (.file wasHere)
  tables := []
  events := []

/-- A table whose one family is configured by a raw byte. -/
def rawTable : ClusterSchema :=
  ⟨[⟨"t", .ofList [("f", .ofList [("k", .bytes [0xFF])])], []⟩]⟩

/-- The write fails, and what the file held is lost. -/
theorem failed_write_loses_content :
    (writeSchemaFile (.ofText "o.json") (some rawTable) keptWorld).1 = .error (.noJson "bytes") ∧
      keptWorld.files.read (.ofText "o.json") = .ok wasHere ∧ wasHere ≠ [] ∧
      (writeSchemaFile (.ofText "o.json") (some rawTable) keptWorld).2.files.read
        (.ofText "o.json") = .ok [] :=
  ⟨rfl, by decide +kernel, by decide, by decide +kernel⟩

end SchemaTransfer
