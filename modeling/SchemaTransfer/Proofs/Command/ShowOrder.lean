import SchemaTransfer.Proofs.Command.Show

/-!
# What is shown does not hang on the order of keys

Two schema files may differ in nothing but the order of the keys in the configurations of their
families. Then the same tables are shown of both, cell for cell. Any other difference between two
configurations is seen in their cells.
-/
namespace SchemaTransfer

/-! ## Schemas up to the order of keys -/

/-- The second configuration is the first one with keys moved about in its objects, at any depth and
at the top. -/
def Config.Reordered (c d : Config) : Prop :=
  ∃ v w, Config.toJson c = .ok v ∧ Config.toJson d = .ok w ∧ v.Reordered w

theorem Config.Reordered.refl {c : Config} (h : Config.Writable c) : Config.Reordered c c :=
  ⟨_, _, Config.toJson_eq h, Config.toJson_eq h, .refl _⟩

/-- The second table is the first one with keys moved about in its configurations. -/
structure TableSchema.Reordered (t u : TableSchema) : Prop where
  name : t.name = u.name
  families : List.Forall₂ (fun e f => e.1 = f.1 ∧ Config.Reordered e.2 f.2) t.families.entries
    u.families.entries
  splits : t.splits = u.splits

/-- The second schema is the first one with keys moved about in its configurations. -/
def ClusterSchema.Reordered (c d : ClusterSchema) : Prop :=
  List.Forall₂ TableSchema.Reordered c.tables d.tables

/-! ## Cells and rows -/

theorem Config.Reordered.shown_eq {c d : Config} (h : Config.Reordered c d)
    (hc : Config.Portable c) : Config.shown c = Config.shown d := by
  obtain ⟨v, w, hv, hw, hvw⟩ := h
  have hportable : v.Portable := by
    cases (toJson_eq hc.writable).symm.trans hv
    exact hc.portable_asJson
  rw [shown, shown, hv, hw]
  dsimp only
  rw [hvw.sortKeys_eq hportable]

theorem Config.shown_eq_iff {c d : Config} (hc : Config.Portable c) (hd : Config.Portable d) :
    Config.shown c = Config.shown d ↔ Config.Reordered c d := by
  refine ⟨fun h => ?_, fun h => h.shown_eq hc⟩
  have hv := toJson_eq hc.writable
  have hw := toJson_eq hd.writable
  rw [shown, shown, hv, hw] at h
  exact ⟨_, _, hv, hw, (Json.shown_eq_iff hc.portable_asJson hd.portable_asJson).mp h⟩

variable {t u : TableSchema} {c d : ClusterSchema}

theorem TableSchema.Reordered.row_eq (h : t.Reordered u) : t.row = u.row := by
  have hkeys : t.families.keys = u.families.keys :=
    map_eq_map_of_forall₂ (h.families.imp fun _ _ hef => hef.1)
  rw [row, row, familiesCell, familiesCell, splitRangeCell, splitRangeCell, hkeys, h.name, h.splits]

theorem TableSchema.Reordered.familyRows_eq (h : t.Reordered u) (ht : t.Portable) :
    t.familyRows = u.familyRows := by
  have hfamilies := (List.forall₂_and_left t.families.entries u.families.entries).mpr
    ⟨ht.families, h.families⟩
  refine map_eq_map_of_forall₂ (hfamilies.imp fun e f hef => ?_)
  have hcell := hef.2.2.shown_eq hef.1.2
  rw [h.name, hef.2.1, hcell]

theorem ClusterSchema.Reordered.ofTables_eq (h : c.Reordered d) (title : Text) :
    Listing.ofTables title c = Listing.ofTables title d := by
  have hrows : c.tables.map TableSchema.row = d.tables.map TableSchema.row :=
    map_eq_map_of_forall₂ (h.imp fun _ _ htu => htu.row_eq)
  rw [Listing.ofTables, Listing.ofTables, hrows]

theorem ClusterSchema.Reordered.ofFamilies_eq (h : c.Reordered d) (hc : c.Portable)
    (title : Text) : Listing.ofFamilies title c = Listing.ofFamilies title d := by
  have htables := (List.forall₂_and_left c.tables d.tables).mpr ⟨hc, h⟩
  have hrows : c.tables.map TableSchema.familyRows = d.tables.map TableSchema.familyRows :=
    map_eq_map_of_forall₂ (htables.imp fun _ _ htu => htu.2.familyRows_eq htu.1)
  rw [Listing.ofFamilies, Listing.ofFamilies, List.flatMap_def, List.flatMap_def, hrows]

/-! ## What is displayed -/

def Event.listing? : Event → Option Listing
  | .table title header rows => some ⟨title, header, rows⟩
  | _ => none

/-- The tables that were displayed. -/
def World.listings (w : World) : List Listing := w.events.filterMap Event.listing?

theorem World.listings_record (w : World) (es : List Event) :
    (w.record es).listings = w.listings ++ es.filterMap Event.listing? :=
  List.filterMap_append

theorem Event.listing?_of_not_isOnScreen {e : Event} (h : !e.isOnScreen) : e.listing? = none := by
  cases e <;> first | rfl | cases h

/-- Events of which a console makes the same lead to the same exit, with the same tables shown. -/
theorem Handed.alike {console : Console} {last exit exit' : Exit} {es es' shown shown' : List Event}
    (hes : List.Forall₂ (fun d e => console.refusal? d.texts = console.refusal? e.texts ∧
      d.listing? = e.listing?) es es') (h : Handed console last es exit shown)
    (h' : Handed console last es' exit' shown') :
    exit = exit' ∧ shown.filterMap Event.listing? = shown'.filterMap Event.listing? := by
  induction hes generalizing shown shown' with
  | nil =>
    obtain ⟨rfl, rfl⟩ := nil_iff.mp h
    obtain ⟨rfl, rfl⟩ := nil_iff.mp h'
    exact ⟨rfl, rfl⟩
  | @cons d e es es' hde _ ih =>
    obtain ⟨hrefusal, hlisting⟩ := hde
    rcases cons_iff.mp h with ⟨fault, hd, rfl, rfl⟩ | ⟨hd, rest, rfl, hrest⟩ <;>
      rcases cons_iff.mp h' with ⟨fault', he, rfl, rfl⟩ | ⟨he, rest', rfl, hrest'⟩
    · cases hd.symm.trans (hrefusal.trans he)
      exact ⟨rfl, rfl⟩
    · cases hd.symm.trans (hrefusal.trans he)
    · cases hd.symm.trans (hrefusal.trans he)
    · obtain ⟨hexit, hshown⟩ := ih hrest hrest'
      refine ⟨hexit, ?_⟩
      rw [List.filterMap_cons, List.filterMap_cons, hlisting, hshown]

namespace ShowCommand

variable {console : Console} {file file' : Text} {name : Option Text} {wanted : Text → Bool}
  {v w : World}

/-- The line that names the file and says how many tables there are. -/
def fileLine (file : Text) (number : Nat) : Line :=
  .info ("File: " ++ file ++ " | Tables: " ++ Text.ofNat number)

/-- After a schema file was read, its tables are all that is added to those that were displayed. -/
theorem listings_run (console : Console) (hname : Filter name wanted)
    (hread : (readSchemaFile (.ofText file) w).1 = .ok c) :
    ∃ exit shown, Handed console .done (displayed file ⟨selection c wanted⟩) exit shown ∧
      Exit.ofResult (run console ⟨file, name⟩ w).1 = exit ∧
      (run console ⟨file, name⟩ w).2.listings =
        w.listings ++ shown.filterMap Event.listing? := by
  obtain ⟨u, logged, -, -, hevents, hlogged, exit, shown, hhanded, hexit, hworld⟩ :=
    run_of_read console ⟨file, name⟩ hname hread
  have hloaded : u.listings = w.listings := by
    have hnone : logged.filterMap Event.listing? = [] :=
      List.filterMap_eq_nil_iff.mpr fun e he => Event.listing?_of_not_isOnScreen (hlogged e he)
    have hstatus : (Event.status "Loading schema...").listing? = none := rfl
    rw [World.listings, hevents, List.filterMap_append, List.filterMap_cons, hstatus, hnone]
    exact List.append_nil _
  refine ⟨exit, shown, hhanded, hexit, ?_⟩
  rw [hworld, World.listings_record, hloaded]

/-- An option that selects tables is usable, or it is refused before any file is read. -/
theorem filter_or_refused (console : Console) (name : Option Text) :
    (∃ wanted, Filter name wanted) ∨
    ∃ e, ∀ file w, (run console ⟨file, name⟩ w).1 = .error e ∧
      (run console ⟨file, name⟩ w).2.listings = w.listings := by
  match name with
  | none => exact Or.inl ⟨_, .absent⟩
  | some [] => exact Or.inl ⟨_, .empty⟩
  | some (c :: rest) =>
    cases hr : Regex.compile (c :: rest) with
    | ok r => exact Or.inl ⟨_, .search (List.cons_ne_nil c rest) hr⟩
    | error fault =>
      have hrefused : ∃ e, ∀ w, (expression console (some (c :: rest)) w).1 = .error e ∧
          (expression console (some (c :: rest)) w).2.listings = w.listings := by
        rw [expression, hr]
        cases fault with
        | malformed complaint place severalLines =>
          dsimp only
          rw [Run.misuse, Run.say]
          cases console.refusal? _ with
          | some fault => exact ⟨_, fun w => ⟨rfl, rfl⟩⟩
          | none =>
            refine ⟨.misused, fun w => ⟨rfl, ?_⟩⟩
            show ((w.record [.print _]).record [.usage]).listings = _
            rw [World.listings_record, World.listings_record, List.append_assoc]
            exact List.append_nil _
        | repetitionTooLarge | codePointTooLarge | tooManyDigits _ | asciiAndUnicode =>
          exact ⟨_, fun w => ⟨rfl, rfl⟩⟩
      obtain ⟨e, hrefused⟩ := hrefused
      refine Or.inr ⟨e, fun file w => ?_⟩
      obtain ⟨herror, hlistings⟩ := hrefused w
      rw [run, Run.bind_apply]
      rcases hexpression : expression console (some (c :: rest)) w with ⟨r, u⟩
      rw [hexpression] at herror hlistings
      cases herror
      exact ⟨rfl, hlistings⟩

theorem reordered_selection (h : c.Reordered d) (wanted : Text → Bool) :
    ClusterSchema.Reordered ⟨selection c wanted⟩ ⟨selection d wanted⟩ :=
  List.rel_filter (fun t u htu => by simp only [htu.name]) h

theorem displayed_alike (h : c.Reordered d) (hc : c.Portable)
    (hlines : ∀ n, console.refusal? [(fileLine file n).markup] =
      console.refusal? [(fileLine file' n).markup]) :
    List.Forall₂ (fun e f => console.refusal? e.texts = console.refusal? f.texts ∧
      e.listing? = f.listing?) (displayed file c) (displayed file' d) := by
  have hsize : c.size = d.size := h.length_eq
  rw [displayed, displayed, hsize, h.ofTables_eq, h.ofFamilies_eq hc]
  split
  · exact List.forall₂_same.mpr fun _ _ => ⟨rfl, rfl⟩
  · exact .cons ⟨rfl, rfl⟩ (.cons ⟨hlines d.size, rfl⟩
      (List.forall₂_same.mpr fun _ _ => ⟨rfl, rfl⟩))

/-- Of two schema files that differ in nothing but the order of keys in configurations the same tables
are displayed, whichever are asked for, unless the console makes a difference between the names of
the files. One of them has a row for each family that is shown, if the console takes what is shown,
and no two configurations have the same cell there unless they differ in the order of keys at most. -/
theorem run_shows_canonical (console : Console)
    (hc : (readSchemaFile (.ofText file) v).1 = .ok c)
    (hd : (readSchemaFile (.ofText file') w).1 = .ok d) (name : Option Text) :
    (c.Reordered d → (∀ n, console.refusal? [(fileLine file n).markup] =
        console.refusal? [(fileLine file' n).markup]) →
      Exit.ofResult (run console ⟨file, name⟩ v).1 =
        Exit.ofResult (run console ⟨file', name⟩ w).1 ∧
      ∃ listings, (run console ⟨file, name⟩ v).2.listings = v.listings ++ listings ∧
        (run console ⟨file', name⟩ w).2.listings = w.listings ++ listings) ∧
    (∀ wanted, Filter name wanted → selection c wanted ≠ [] →
      console.Takes (displayed file ⟨selection c wanted⟩) → ∃ tables families,
      (run console ⟨file, name⟩ v).2.listings = v.listings ++ [tables, families] ∧
        families.rows = (familiesOf (selection c wanted)).map FamilyOf.row) ∧
    ∀ f ∈ familiesOf c.tables, ∀ g ∈ familiesOf d.tables,
      Config.shown f.config = Config.shown g.config ↔ Config.Reordered f.config g.config := by
  obtain ⟨-, hportable⟩ := readSchemaFile_portable hc
  obtain ⟨-, hportable'⟩ := readSchemaFile_portable hd
  refine ⟨fun h hlines => ?_, fun wanted hname hsome htaken => ?_, fun f hf g hg => ?_⟩
  · rcases filter_or_refused console name with ⟨wanted, hname⟩ | ⟨e, hrefused⟩
    · obtain ⟨exit, shown, hhanded, hexit, hlistings⟩ := listings_run console hname hc
      obtain ⟨exit', shown', hhanded', hexit', hlistings'⟩ := listings_run console hname hd
      have hselected : ClusterSchema.Portable ⟨selection c wanted⟩ :=
        fun t ht => hportable t (List.mem_of_mem_filter ht)
      obtain ⟨hsame, hshown⟩ :=
        hhanded.alike (displayed_alike (reordered_selection h wanted) hselected hlines) hhanded'
      rw [hexit, hexit', hlistings, hlistings', hshown]
      exact ⟨hsame, _, rfl, rfl⟩
    · obtain ⟨herror, hlistings⟩ := hrefused file v
      obtain ⟨herror', hlistings'⟩ := hrefused file' w
      rw [herror, herror', hlistings, hlistings']
      exact ⟨rfl, [], (List.append_nil _).symm, (List.append_nil _).symm⟩
  · obtain ⟨exit, shown, hhanded, -, hlistings⟩ := listings_run console hname hc
    obtain ⟨-, rfl⟩ := hhanded.eq_of_takes htaken
    have hsize : ClusterSchema.size ⟨selection c wanted⟩ ≠ 0 := mt List.length_eq_zero_iff.mp hsome
    rw [displayed, if_neg hsize] at hlistings
    exact ⟨_, _, hlistings, Listing.rows_ofFamilies_eq _ _⟩
  · exact Config.shown_eq_iff (portable_of_mem_familiesOf hportable hf)
      (portable_of_mem_familiesOf hportable' hg)

/-- A world with the file `s`, which holds the written form of the schema. -/
def fileOf (c : ClusterSchema) : World where
  files := (FileSystem.empty []).place [[0x73]]
    (.file ((Utf8.encode? (c.asJson.pretty ++ "\n")).getD []))
  tables := []
  events := []

theorem readSchemaFile_fileOf (hs : c.Sound) (hp : c.Portable) :
    (readSchemaFile (.ofText "s") (fileOf c)).1 = .ok c := by
  obtain ⟨content, hcontent⟩ := Utf8.encode?_isSome.mpr (plain_written c).surrogateFree
  have hholds : (fileOf c).Holds (.ofText "s") c := by
    refine ⟨by decide, content, ?_, Utf8.decode_of_encode? hcontent⟩
    rw [fileOf, hcontent]
    rfl
  rw [readSchemaFile_of_holds hs hp.writable hp.namesUnpaired hholds, hp.joined_eq_self]

/-- A configuration of one value. -/
def single (v : Json) : Config := ⟨[("a", .json v)], List.nodup_singleton _⟩

/-- Families whose configurations hold a whole number, a double and a truth value. -/
def likeOnes : List (Text × Config) :=
  [("i", single (.int 1)), ("d", single (.double (.ofDecimal false 1 0))), ("b", single (.bool true))]

/-- A table with one more family. -/
def nested : ClusterSchema :=
  ⟨[⟨"t", ⟨("f", ⟨[("x", .json (.array [.object [("b", .int 1), ("a", .null)]])),
    ("c", .json (.double .nan))], by decide⟩) :: likeOnes, by decide⟩, [[0x6B]]⟩]⟩

/-- The same table, with the keys of that family in another order, also inside of the array. -/
def nestedElsewise : ClusterSchema :=
  ⟨[⟨"t", ⟨("f", ⟨[("c", .json (.double .nan)),
    ("x", .json (.array [.object [("a", .null), ("b", .int 1)]]))], by decide⟩) :: likeOnes,
      by decide⟩, [[0x6B]]⟩]⟩

theorem portable_single {v : Json} (h : v.Portable) : Config.Portable (single v) :=
  List.forall_mem_singleton.mpr ⟨(by decide : Text.Unpaired "a"), v, rfl, h⟩

theorem eq_of_toJson_single {v u : Json} (h : Config.toJson (single v) = .ok u) :
    u = .object [("a", v)] := by
  obtain ⟨entries, hentries, rfl⟩ := map_eq_ok.mp h
  cases mapM_eq_ok.mp hentries with
  | cons hv hnil =>
    cases hnil
    obtain ⟨x, hx, rfl⟩ := map_eq_ok.mp hv
    rw [ConfigValue.toJson, Json.checked] at hx
    split at hx
    · cases hx
      rfl
    · cases hx

/-- Values that differ in more than the order of keys make configurations that do. -/
theorem reordered_of_single {v w : Json} (hv : v.Portable) (h : (single v).Reordered (single w)) :
    v.Reordered w := by
  obtain ⟨c, d, hc, hd, hcd⟩ := h
  obtain rfl := eq_of_toJson_single hc
  obtain rfl := eq_of_toJson_single hd
  have hportable := (portable_single hv).portable_asJson
  cases hcd.kept hportable with
  | same => exact .refl v
  | object hkeys hvalues => exact hvalues "a" v w (.head _) (.head _)

theorem portable_likeOnes : ∀ e ∈ likeOnes, e.1.Unpaired ∧ Config.Portable e.2 := by
  simp only [likeOnes, List.forall_mem_cons, List.not_mem_nil, false_implies, implies_true,
    and_true]
  exact ⟨⟨by decide, portable_single (by decide +kernel)⟩,
    ⟨by decide, portable_single (by decide +kernel)⟩,
    by decide, portable_single (by decide +kernel)⟩

theorem portable_nested : nested.Portable ∧ nestedElsewise.Portable := by
  simp only [nested, nestedElsewise, ClusterSchema.Portable, List.forall_mem_singleton]
  refine ⟨⟨by decide, List.forall_mem_cons.mpr ⟨⟨by decide, ?_⟩, portable_likeOnes⟩⟩,
    ⟨by decide, List.forall_mem_cons.mpr ⟨⟨by decide, ?_⟩, portable_likeOnes⟩⟩⟩
  all_goals
    simp only [Config.Portable, List.forall_mem_cons, List.not_mem_nil, false_implies,
      implies_true, and_true]
    exact ⟨⟨by decide, _, rfl, by decide +kernel⟩, by decide, _, rfl, by decide +kernel⟩

theorem reordered_nested : nested.Reordered nestedElsewise := by
  have hlike : List.Forall₂ (fun e f => e.1 = f.1 ∧ Config.Reordered e.2 f.2) likeOnes likeOnes :=
    List.forall₂_same.mpr fun e he => ⟨rfl, .refl (portable_likeOnes e he).2.writable⟩
  have hinner : Json.Reordered (.object [("b", .int 1), ("a", .null)])
      (.object [("a", .null), ("b", .int 1)]) := .moved (.swap _ _ _)
  have harray : Json.Reordered (.array [.object [("b", .int 1), ("a", .null)]])
      (.array [.object [("a", .null), ("b", .int 1)]]) :=
    @Json.Reordered.item [] [] _ _ hinner
  have hmember : Json.Reordered
      (.object [("x", .array [.object [("b", .int 1), ("a", .null)]]), ("c", .double .nan)])
      (.object [("x", .array [.object [("a", .null), ("b", .int 1)]]), ("c", .double .nan)]) :=
    @Json.Reordered.member [] [("c", .double .nan)] _ _ _ harray
  have hconfig := hmember.trans (.moved (.swap _ _ _))
  obtain ⟨hportable, hportable'⟩ := portable_nested
  have hwritten := Config.toJson_eq ((hportable _ (.head _)).families _ (.head _)).2.writable
  have hwritten' := Config.toJson_eq ((hportable' _ (.head _)).families _ (.head _)).2.writable
  exact .cons ⟨rfl, .cons ⟨rfl, _, _, hwritten, hwritten', hconfig⟩ hlike, rfl⟩ .nil

/-- The order makes no difference, also inside of an array; but a whole number is told from a double
and from a truth value. -/
theorem run_shows_canonical_nested : (∃ listings, listings ≠ [] ∧
    (run {} ⟨"s", none⟩ (fileOf nested)).2.listings = listings ∧
    (run {} ⟨"s", none⟩ (fileOf nestedElsewise)).2.listings = listings) ∧
    Config.shown (single (.int 1)) ≠ Config.shown (single (.double (.ofDecimal false 1 0))) ∧
    Config.shown (single (.int 1)) ≠ Config.shown (single (.bool true)) := by
  obtain ⟨hportable, hportable'⟩ := portable_nested
  have hsound : nested.Sound :=
    ⟨List.nodup_singleton _, List.forall_mem_singleton.mpr ⟨by decide, by decide⟩⟩
  have hsound' : nestedElsewise.Sound :=
    ⟨List.nodup_singleton _, List.forall_mem_singleton.mpr ⟨by decide, by decide⟩⟩
  obtain ⟨hsame, hshown, hcells⟩ := run_shows_canonical {} (readSchemaFile_fileOf hsound hportable)
    (readSchemaFile_fileOf hsound' hportable') none
  obtain ⟨-, listings, hfirst, hsecond⟩ := hsame reordered_nested fun _ => rfl
  obtain ⟨tables, families, hrows, -⟩ :=
    hshown _ .absent (List.cons_ne_nil _ _) (Console.takes_plain _)
  have hone : ⟨"t", "i", single (.int 1)⟩ ∈ familiesOf nested.tables :=
    List.mem_flatMap.mpr ⟨_, .head _, List.mem_map.mpr ⟨("i", _), .tail _ (.head _), rfl⟩⟩
  have hkept : ∀ e ∈ likeOnes, ∀ v, e.2 = single v →
      Config.shown (single (.int 1)) = Config.shown (single v) → Json.Kept (.int 1) v := by
    intro e he v hv hcell
    have hother : ⟨"t", e.1, e.2⟩ ∈ familiesOf nestedElsewise.tables :=
      List.mem_flatMap.mpr ⟨_, .head _, List.mem_map.mpr ⟨e, .tail _ he, rfl⟩⟩
    have hint : Json.Portable (.int 1) := by decide +kernel
    rw [← hv] at hcell
    have hconfig := (hcells _ hone _ hother).mp hcell
    rw [hv] at hconfig
    exact (reordered_of_single hint hconfig).kept hint
  refine ⟨⟨listings, ?_, hfirst, hsecond⟩, fun hcell => ?_, fun hcell => ?_⟩
  · rw [List.append_cancel_left (hfirst.symm.trans hrows)]
    exact List.cons_ne_nil _ _
  · cases hkept _ (.tail _ (.head _)) _ rfl hcell
  · cases hkept _ (.tail _ (.tail _ (.head _))) _ rfl hcell

end ShowCommand

end SchemaTransfer
