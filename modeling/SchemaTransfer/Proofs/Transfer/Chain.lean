import SchemaTransfer.Proofs.Schema.NewNames
import SchemaTransfer.Proofs.Transfer.Stages

/-!
# From file to file to file

A file that was written by one transfer can be the source of the next. However many there are, and
whichever new names each of them loads, the last file is the one that a single transfer writes with
all new names at once: a file comes to its final form in the first transfer, and after that nothing
but names changes.
-/
namespace SchemaTransfer

/-- The options of a transfer from one file to another. -/
def Options.betweenFiles (input output : Text) (mapping : Option Text) : Options where
  inputFile := some input
  outputFile := some output
  mappingFile := mapping

/-! ## New names in a mapping file -/

namespace Renaming

def asJson (r : Renaming) : Json := .object (r.entries.map fun e => (e.1, .string e.2))

theorem entriesOfJson_asJson (path : Path) {entries : List (Text × Text)}
    (h : ∀ e ∈ entries, e.2 ≠ []) :
    entriesOfJson path (entries.map fun e => (e.1, .string e.2)) = .ok entries := by
  induction entries with
  | nil => rfl
  | cons e rest ih =>
    obtain ⟨hname, hrest⟩ := List.forall_mem_cons.mp h
    obtain ⟨old, name⟩ := e
    cases name with
    | nil => exact absurd rfl hname
    | cons c name =>
      rw [List.map_cons, entriesOfJson, ih hrest]
      rfl

/-- All names can stand in a file, and the new ones can be those of tables. -/
def Writable (r : Renaming) : Prop := ∀ e ∈ r.entries, e.1.Unpaired ∧ e.2.Unpaired ∧ e.2 ≠ []

theorem Writable.portable {r : Renaming} (h : r.Writable) : r.asJson.Portable := by
  have hkeys : Entries.keys (r.entries.map fun e => (e.1, Json.string e.2)) = r.keys := by
    rw [Entries.keys, List.map_map]
    rfl
  refine Json.portable_object.mpr ⟨hkeys ▸ r.nodup, ?_, ?_⟩
  · rw [hkeys]
    exact List.forall_mem_map.mpr fun e he => (h e he).1
  · exact List.forall_mem_map.mpr fun e he => ⟨trivial, trivial, (h e he).2.1⟩

theorem Writable.ofText_pretty {r : Renaming} (h : r.Writable) (path : Path) :
    ofText path r.asJson.pretty = .ok r := by
  have hread : Json.read r.asJson.pretty = .ok r.asJson := by
    have hback := Json.read_pretty h.portable.digits (List.forall_mem_nil _)
    rwa [List.append_nil, h.portable.joined_eq_self] at hback
  rw [ofText, hread, asJson]
  dsimp only
  rw [entriesOfJson_asJson path fun e he => (h e he).2.2]
  exact congrArg Except.ok (Dict.ofList_entries r)

/-- There is a file from which the renaming is loaded, wherever it stands. -/
theorem Writable.exists_content {r : Renaming} (h : r.Writable) :
    ∃ content, ∀ (F : Path) (w : World), Run.noName? F = none → w.files.read F = .ok content →
      load F w = (.ok r, w) := by
  have hplain : Text.Plain r.asJson.pretty := Json.plain_render _ _ _
  obtain ⟨content, hencode⟩ := Utf8.encode?_isSome.mpr hplain.surrogateFree
  have hdecode := Utf8.decode_of_encode? hencode
  exact ⟨content, fun F w hF hread => Run.bind_eq_ok.mpr ⟨_, w,
    Run.readText_of_plain hplain hF hread hdecode,
    Run.ofExcept_eq_ok.mpr ⟨h.ofText_pretty F, rfl⟩⟩⟩

/-- The renaming that puts names in place of all names of a cluster at once. -/
def together (c : ClusterSchema) (hc : c.Valid) (f : Text → Text) : Renaming where
  entries := c.names.map fun old => (old, f old)
  nodup := by
    rw [Entries.keys, List.map_map]
    exact (List.map_id' c.names).symm ▸ hc

theorem keys_together {c : ClusterSchema} (hc : c.Valid) (f : Text → Text) :
    (together c hc f).keys = c.names := by
  rw [Dict.keys, Entries.keys, together, List.map_map]
  exact List.map_id' c.names

theorem newName_together {c : ClusterSchema} (hc : c.Valid) (f : Text → Text) {old : Text}
    (h : old ∈ c.names) : (together c hc f).newName old = f old := by
  have hget : (together c hc f).get? old = some (f old) :=
    Entries.get?_of_mem (together c hc f).nodup (List.mem_map_of_mem h)
  rw [newName, hget]
  rfl

end Renaming

namespace Pipeline

variable {F G H : Text} {c : ClusterSchema} {names : Option Renaming} {w w' : World}

/-! ## One transfer between files -/

/-- A whole transfer, from its options on. -/
def translate (s : Surroundings) (o : Options) : Run Failure Unit := do
  let t ← Run.ofExcept o.check
  let p ← prepare s t
  run s p

/-- What a table is called after a transfer. -/
def newName : Option Renaming → Text → Text
  | none, old => old
  | some r, old => r.newName old

/-- A transfer between files that succeeded, with the new names that it loaded. -/
def Translates (F G : Text) (names : Option Renaming) (w w' : World) : Prop :=
  ∃ s mapping, (loadNames mapping w).1 = .ok names ∧
    translate s (.betweenFiles F G mapping) w = (.ok (), w')

theorem loadNames_unpaired {mapping : Option Text} (h : (loadNames mapping w).1 = .ok names) :
    ∀ r ∈ names, r.NewNamesUnpaired := by
  rintro r rfl
  cases mapping with
  | none => cases h
  | some path =>
    obtain ⟨r', v, hload, hrest⟩ := Run.bind_eq_ok.mp (Prod.ext h rfl)
    obtain ⟨_, _, -, hr⟩ := Run.bind_eq_ok.mp hrest
    obtain ⟨hr, -⟩ := Run.pure_eq_ok.mp hr
    cases hr
    exact Renaming.newNames_of_load hload

theorem newName_unpaired (hn : ∀ r ∈ names, r.NewNamesUnpaired) {old : Text} (ho : old.Unpaired) :
    (newName names old).Unpaired := by
  cases names with
  | none => exact ho
  | some r => exact Renaming.newName_unpaired (hn r rfl) ho

theorem rename_eq_ok {d : ClusterSchema} (h : rename names c w = (.ok d, w')) :
    d = c.mapNames (newName names) := by
  cases names with
  | none =>
    obtain ⟨rfl, -⟩ := Run.pure_eq_ok.mp h
    exact (ClusterSchema.mapNames_id c).symm
  | some r => exact Renaming.apply_eq_ok h

theorem rename_of_sound (h : (c.mapNames (newName names)).Sound) (w : World) :
    ∃ w', rename names c w = (.ok (c.mapNames (newName names)), w') := by
  cases names with
  | none => exact ⟨w, Run.pure_eq_ok.mpr ⟨(ClusterSchema.mapNames_id c).symm, rfl⟩⟩
  | some r => exact Renaming.apply_of_sound h w

/-- Nothing comes before the new names of such a transfer, and nothing between them and its run. -/
theorem translate_eq_run {mapping : Option Text} (s : Surroundings) (F G : Text)
    (h : (loadNames mapping w).1 = .ok names) :
    translate s (.betweenFiles F G mapping) w =
      run s ⟨.file (.ofText F), names, .file (.ofText G)⟩ (loadNames mapping w).2 := by
  have hcheck : (Options.betweenFiles F G mapping).check = .ok ⟨.file F, .file G, mapping⟩ := rfl
  have hloaded : loadNames mapping w = (.ok names, (loadNames mapping w).2) := Prod.ext h rfl
  rw [translate, hcheck, Run.bind_apply, Run.ofExcept, Run.pure]
  dsimp only
  rw [Run.bind_apply, prepare, Run.bind_apply, hloaded]
  rfl

/-- A plan from a file is the definition in it under new names. -/
theorem plan_file_eq_ok {s : Surroundings} {path : Path} {o : Output} {d : ClusterSchema}
    (h : plan s ⟨.file path, names, o⟩ w = (.ok d, w')) :
    ∃ c, (readSchemaFile path w).1 = .ok c ∧ d = c.mapNames (newName names) ∧ d.Sound := by
  obtain ⟨c, v, hread, h⟩ := Run.bind_eq_ok.mp h
  obtain ⟨_, _, -, hrename⟩ := Run.bind_eq_ok.mp h
  have hc : (readSchemaFile path w).1 = .ok c := congrArg Prod.fst hread
  refine ⟨c, hc, rename_eq_ok hrename, ?_⟩
  cases names with
  | none =>
    obtain ⟨rfl, -⟩ := Run.pure_eq_ok.mp hrename
    exact (readSchemaFile_portable hc).1
  | some r => exact Renaming.apply_sound (readSchemaFile_portable hc).1 hrename

theorem plan_file_of_sound (s : Surroundings) {path : Path} (o : Output)
    (hc : (readSchemaFile path w).1 = .ok c) (hs : (c.mapNames (newName names)).Sound) :
    ∃ w', plan s ⟨.file path, names, o⟩ w = (.ok (c.mapNames (newName names)), w') := by
  obtain ⟨w', hrename⟩ := rename_of_sound hs ((readSchemaFile path w).2.note _)
  exact ⟨w', Run.bind_eq_ok.mpr ⟨c, _, Prod.ext hc rfl,
    Run.bind_eq_ok.mpr ⟨(), _, rfl, hrename⟩⟩⟩

/-- A definition on its way: the file holds it, and it can be read from there as it is. -/
structure Carries (w : World) (F : Text) (c : ClusterSchema) : Prop where
  sound : c.Sound
  portable : c.Portable
  holds : w.Holds (.ofText F) c

theorem Carries.read {v : World} (h : Carries w F c)
    (hv : v.files.read (.ofText F) = w.files.read (.ofText F)) :
    (readSchemaFile (.ofText F) v).1 = .ok c := by
  have hread := readSchemaFile_of_holds h.sound h.portable.writable h.portable.namesUnpaired
    (h.holds.of_read hv)
  rwa [h.portable.joined_eq_self] at hread

/-- However the first file was laid out, the second one is in the form in which it stays. -/
theorem Translates.carries (h : Translates F G names w w') :
    ∃ c, (readSchemaFile (.ofText F) w).1 = .ok c ∧ Carries w' G (c.mapNames (newName names)) := by
  obtain ⟨s, mapping, hload, htranslate⟩ := h
  rw [translate_eq_run s F G hload] at htranslate
  obtain ⟨d, u, hplan, hwrite⟩ := Run.bind_eq_ok.mp htranslate
  obtain ⟨_, x, hwritten, hreport⟩ := Run.bind_eq_ok.mp hwrite
  obtain ⟨c, hc, rfl, hs⟩ := plan_file_eq_ok hplan
  rw [readSchemaFile_congr (congrArg (·.read (.ofText F)) (quiet_loadNames mapping w).files)] at hc
  have hp := (readSchemaFile_portable hc).2
  have hportable : (c.mapNames (newName names)).Portable := hp.mapNames
    (List.forall_mem_map.mpr fun t ht =>
      newName_unpaired (loadNames_unpaired hload) (hp t ht).name)
  -- What the writing leaves is known from the path alone, so its success need not be taken apart.
  obtain ⟨hG, l, hl⟩ := writeSchemaFile_eq_ok hwritten
  obtain ⟨x', hwritten', hholds, -⟩ := writeSchemaFile_holds hportable.writable hG hl
  cases hwritten.symm.trans hwritten'
  have hlogged : w' = x.note _ := (congrArg Prod.snd hreport).symm
  exact ⟨c, hc, hs, hportable, hlogged ▸ hholds.of_read rfl⟩

/-- A transfer between files fails only where its plan would be no cluster or its path cannot be
written. -/
theorem translate_of_sound (s : Surroundings) {mapping : Option Text}
    (hload : (loadNames mapping w).1 = .ok names) (hc : (readSchemaFile (.ofText F) w).1 = .ok c)
    (hs : (c.mapNames (newName names)).Sound) (hp : (c.mapNames (newName names)).Portable)
    (hG : Run.noName? (.ofText G) = none) {l : Location}
    (hl : w.files.writable (.ofText G) = .ok l) :
    ∃ w', translate s (.betweenFiles F G mapping) w = (.ok (), w') ∧
      w'.Holds (.ofText G) (c.mapNames (newName names)) := by
  have hfiles := (quiet_loadNames mapping w).files
  rw [← readSchemaFile_congr (congrArg (·.read (.ofText F)) hfiles)] at hc
  obtain ⟨v, hplan⟩ := plan_file_of_sound s (.file (.ofText G)) hc hs
  have hplanned := ((quiet_plan_file s (.ofText F) names (.file (.ofText G))).next hplan).files
  have hwritable : v.files.writable (.ofText G) = .ok l := by rw [hplanned, hfiles, hl]
  obtain ⟨x, hwritten, hholds, -⟩ := writeSchemaFile_holds hp.writable hG hwritable
  rw [translate_eq_run s F G hload]
  exact ⟨_, Run.bind_eq_ok.mpr ⟨_, v, hplan, Run.bind_eq_ok.mpr ⟨(), x, hwritten, rfl⟩⟩,
    hholds.of_read rfl⟩

/-! ## Chains -/

/-- Transfers one after another, each from the file that the one before it wrote. Between two of
them anything may happen but to that file. -/
inductive Chain (F : Text) (w : World) : List (Option Renaming) → Text → World → Prop
  | one {G : Text} {names : Option Renaming} {w' : World} (h : Translates F G names w w') :
    Chain F w [names] G w'
  | more {G H : Text} {steps : List (Option Renaming)} {names : Option Renaming} {u v w' : World}
    (h : Chain F w steps G u) (hkept : v.files.read (.ofText G) = u.files.read (.ofText G))
    (hlast : Translates G H names v w') : Chain F w (steps ++ [names]) H w'

/-- What a table is called after several transfers. -/
def finalName (steps : List (Option Renaming)) (old : Text) : Text :=
  steps.foldl (fun name names => newName names name) old

theorem finalName_append (steps : List (Option Renaming)) (names : Option Renaming) :
    finalName (steps ++ [names]) = newName names ∘ finalName steps := by
  funext old
  exact List.foldl_append

theorem Chain.carries {steps : List (Option Renaming)} (h : Chain F w steps G w') :
    ∃ c, (readSchemaFile (.ofText F) w).1 = .ok c ∧
      Carries w' G (c.mapNames (finalName steps)) := by
  induction h with
  | one h => exact h.carries
  | more _ hkept hlast ih =>
    obtain ⟨c, hc, hcarried⟩ := ih
    obtain ⟨d, hd, hcarries⟩ := hlast.carries
    cases (hcarried.read hkept).symm.trans hd
    refine ⟨c, hc, ?_⟩
    rw [finalName_append, ← ClusterSchema.mapNames_mapNames]
    exact hcarries

/-- Wherever the file `F` is as it is here, each transfer from it under these new names, to whatever
path can be written, succeeds and writes this content. -/
def Yields (F : Text) (w : World) (names : Option Renaming) (content : Bytes) : Prop :=
  ∀ (s : Surroundings) (mapping : Option Text) (H : Text) (v : World) (l : Location),
    v.files.read (.ofText F) = w.files.read (.ofText F) → (loadNames mapping v).1 = .ok names →
    Run.noName? (.ofText H) = none → v.files.writable (.ofText H) = .ok l →
    ∃ v', translate s (.betweenFiles F H mapping) v = (.ok (), v') ∧
      v'.files.read (.ofText H) = .ok content

theorem Carries.yields (h : Carries w' G (c.mapNames (newName names)))
    (hc : (readSchemaFile (.ofText F) w).1 = .ok c) {content : Bytes}
    (hcontent : w'.files.read (.ofText G) = .ok content) : Yields F w names content := by
  intro s mapping H v l hread hload hH hl
  rw [← readSchemaFile_congr hread] at hc
  obtain ⟨v', htranslate, hholds⟩ := translate_of_sound s hload hc h.sound h.portable hH hl
  exact ⟨v', htranslate, (h.holds.read_eq hholds).trans hcontent⟩

/-- A chain of transfers from file to file ends in the file that one transfer of the first file
writes, if its mapping sends every table to the name that it has in the end. There is a file with
such a mapping, and one more transfer of the last file without any yields that file again. -/
theorem chain_eq_single {steps : List (Option Renaming)} (h : Chain F w steps G w') :
    ∃ c content, (readSchemaFile (.ofText F) w).1 = .ok c ∧
      w'.files.read (.ofText G) = .ok content ∧
      (∀ names, (∀ old ∈ c.names, newName names old = finalName steps old) →
        Yields F w names content) ∧
      (∃ mapping, ∀ M v, Run.noName? (.ofText M) = none → v.files.read (.ofText M) = .ok mapping →
        ∃ r, (loadNames (some M) v).1 = .ok (some r) ∧ r.keys = c.names ∧
          ∀ old ∈ c.names, r.newName old = finalName steps old) ∧
      Yields G w' none content := by
  obtain ⟨c, hc, hcarries⟩ := h.carries
  obtain ⟨content, hcontent, -⟩ := hcarries.holds.content
  refine ⟨c, content, hc, hcontent, fun names hnames => ?_, ?_, ?_⟩
  · rw [← ClusterSchema.mapNames_congr hnames] at hcarries
    exact hcarries.yields hc hcontent
  · obtain ⟨hs, hp⟩ := readSchemaFile_portable hc
    have hwritable : (Renaming.together c hs.names_nodup (finalName steps)).Writable :=
      List.forall_mem_map.mpr (List.forall_mem_map.mpr fun t ht => ⟨(hp t ht).name,
        (hcarries.portable _ (List.mem_map_of_mem ht)).name,
        (hcarries.sound.tables_valid _ (List.mem_map_of_mem ht)).name_ne⟩)
    obtain ⟨mapping, hload⟩ := hwritable.exists_content
    refine ⟨mapping, fun M v hM hread => ⟨_, ?_, Renaming.keys_together hs.names_nodup _,
      fun old hold => Renaming.newName_together hs.names_nodup _ hold⟩⟩
    rw [loadNames, Run.bind_apply, hload _ v hM hread]
    rfl
  · have hagain : Carries w' G ((c.mapNames (finalName steps)).mapNames (newName none)) := by
      rw [show newName none = fun name => name from rfl, ClusterSchema.mapNames_id]
      exact hcarries
    exact hagain.yields (hcarries.read rfl) hcontent

/-- Surroundings with nothing to connect to. -/
def offline : Surroundings where
  hbase := ⟨fun _ _ => some (.runtime "offline"), fun _ _ => .error (.runtime "offline")⟩
  bigtable := ⟨some (.credentials "offline"), fun _ _ _ => none⟩
  answer := none
  runId := "run"

def swap : Renaming := ⟨[("x", "y"), ("y", "x")], by decide⟩

def moveOn : Renaming := ⟨[("y", "z")], by decide⟩

/-- A schema file `a` with the tables `x` and `y` in a form that no transfer gives it, and two
mapping files: `m` swaps the names, `n` calls `z` what is called `y` then. -/
def swapWorld : World where
  files := (((FileSystem.empty []).place [[0x61]] (.file ((Utf8.encode?
      "\x7b\"tableSchemaDefinitions\": [\x7b\"name\": \"x\"\x7d, \x7b\"name\": \"y\"\x7d]\x7d").getD
        []))).place
    [[0x6D]] (.file ((Utf8.encode? "\x7b\"x\": \"y\", \"y\": \"x\"\x7d").getD []))).place
    [[0x6E]] (.file ((Utf8.encode? "\x7b\"y\": \"z\"\x7d").getD []))
  tables := []
  events := []

def swapped : World := (translate offline (.betweenFiles "a" "b" (some "m")) swapWorld).2

def movedOn : World := (translate offline (.betweenFiles "b" "c" (some "n")) swapped).2

theorem chain_eq_single_swap : ∃ content,
    Chain "a" swapWorld [some swap, some moveOn] "c" movedOn ∧
    movedOn.files.read (.ofText "c") = .ok content ∧
    Yields "a" swapWorld (some ⟨[("x", "z"), ("y", "x")], by decide⟩) content ∧
    Yields "c" movedOn none content := by
  have hchain : Chain "a" swapWorld [some swap, some moveOn] "c" movedOn := by
    obtain ⟨_, hm, hswap⟩ := eq_ok_of_toOption (f := Option.map Dict.entries)
      (by decide +kernel : (loadNames (some "m") swapWorld).1.toOption.map _ =
        some (some swap.entries))
    obtain ⟨_, hn, hmoveOn⟩ := eq_ok_of_toOption (f := Option.map Dict.entries)
      (by decide +kernel : (loadNames (some "n") swapped).1.toOption.map _ =
        some (some moveOn.entries))
    obtain ⟨⟨⟩, hfirst, -⟩ := eq_ok_of_toOption (f := id) (by decide +kernel :
      (translate offline (.betweenFiles "a" "b" (some "m")) swapWorld).1.toOption.map _ = some ())
    obtain ⟨⟨⟩, hsecond, -⟩ := eq_ok_of_toOption (f := id) (by decide +kernel :
      (translate offline (.betweenFiles "b" "c" (some "n")) swapped).1.toOption.map _ = some ())
    have hentries : (Option.map Dict.entries : Option Renaming → _).Injective :=
      Option.map_injective fun _ _ => Dict.ext
    cases (hentries hswap : _ = some swap)
    cases (hentries hmoveOn : _ = some moveOn)
    exact .more (.one ⟨offline, some "m", hm, Prod.ext hfirst rfl⟩) rfl
      ⟨offline, some "n", hn, Prod.ext hsecond rfl⟩
  obtain ⟨c, content, hc, hcontent, hyields, -, hagain⟩ := chain_eq_single hchain
  have hnames : (readSchemaFile (.ofText "a") swapWorld).1.toOption.map ClusterSchema.names =
      some (["x", "y"] : List Text) := by decide +kernel
  rw [hc] at hnames
  refine ⟨content, hchain, hcontent, hyields _ ?_, hagain⟩
  rw [Option.some.inj hnames]
  decide +kernel

end Pipeline

end SchemaTransfer
