import SchemaTransfer.Command.Show
import SchemaTransfer.Console.Markup
import SchemaTransfer.Proofs.Command.HandOver
import SchemaTransfer.Proofs.Console.Listing
import SchemaTransfer.Proofs.Schema.Names
import SchemaTransfer.Proofs.Transfer.SchemaFile

/-!
# What is shown of a schema file

Of a schema file that was read, the tables that were asked for are handed over to be shown, each with
its families. Only where no table is left there is a warning in place of the listings. Nothing but the
console can fail any more: names and configurations are handed over as they are, and one that reads
them as markup shows them otherwise or refuses them.
-/
namespace SchemaTransfer.ShowCommand

variable {console : Console} {file : Text} {name : Option Text} {wanted : Text → Bool}
  {c : ClusterSchema} {w : World}

/-- What an option that selects tables by their names asks for; without a text it asks for all. -/
inductive Filter : Option Text → (Text → Bool) → Prop
  | absent : Filter none fun _ => true
  | empty : Filter (some []) fun _ => true
  | search {pattern : Text} {r : Regex} (hne : pattern ≠ []) (hr : Regex.compile pattern = .ok r) :
    Filter (some pattern) r.matchesSomewhere

/-- The tables of the cluster that are asked for. -/
def selection (c : ClusterSchema) (wanted : Text → Bool) : List TableSchema :=
  c.tables.filter fun t => wanted t.name

def emptyNotice : Event := .print (Line.warning "No tables found.").markup

/-- What is displayed of some tables of the file. -/
inductive Display (file : Text) (tables : List TableSchema) : List Event → Prop
  | notice (h : tables = []) : Display file tables [emptyNotice]
  | listings {rows familyRows : List (List Text)} (h : tables ≠ [])
    (hrows : List.Forall₂ TableRow tables rows)
    (hfamilies : List.Forall₂ FamilyRow (familiesOf tables) familyRows) :
    Display file tables [.print (Line.heading "Schema").markup,
      .print (Line.info ("File: " ++ file ++ " | Tables: " ++ Text.ofNat rows.length)).markup,
      .table "Tables" ["Table", "Column families", "Splits", "Split range"] rows,
      .table "Column families" ["Table", "Family", "Configuration"] familyRows]

theorem Display.notice_mem_iff {tables : List TableSchema} {es : List Event}
    (h : Display file tables es) : emptyNotice ∈ es ↔ tables = [] := by
  cases h with
  | notice h => simp [h]
  | listings h =>
    have hheading : (Line.warning "No tables found.").markup ≠ (Line.heading "Schema").markup := by
      decide
    have hinfo : ∀ message, (Line.warning "No tables found.").markup ≠
        (Line.info message).markup := by
      intro message hmarkup
      have hstyle : some (CodePoint.ofChar 'w') = some (CodePoint.ofChar 't') :=
        congrArg (fun t : Text => t[1]?) hmarkup
      exact absurd hstyle (by decide)
    simp [emptyNotice, h, hheading, hinfo]

theorem Display.table_mem_iff {tables : List TableSchema} {es : List Event}
    (h : Display file tables es) :
    (∃ title header rows, Event.table title header rows ∈ es) ↔ tables ≠ [] := by
  cases h with
  | notice h => simp [emptyNotice, h]
  | listings h => exact iff_of_true ⟨_, _, _, .tail _ (.tail _ (.head _))⟩ h

/-! ## The steps of the command -/

theorem Filter.select (h : Filter name wanted) :
    ∃ r, (∀ console w, expression console name w = (.ok r, w)) ∧
      ∀ c : ClusterSchema, c.Valid → select c r = .ok ⟨selection c wanted⟩ := by
  cases h with
  | absent | empty => exact ⟨none, fun _ _ => rfl, fun c _ => by simp [ShowCommand.select, selection]⟩
  | @search pattern r hne hr =>
    refine ⟨some r, fun console w => ?_, fun c hc => ClusterSchema.ofTables_filter hc _⟩
    obtain ⟨d, rest, rfl⟩ := List.exists_cons_of_ne_nil hne
    rw [expression, hr]
    rfl

theorem load_eq_ok (console : Console) (hread : (readSchemaFile (.ofText file) w).1 = .ok c) :
    ∃ v logged, load console file w = (.ok c, v) ∧ v.files = w.files ∧ v.tables = w.tables ∧
      v.events = w.events ++ .status "Loading schema..." :: logged ∧
      ∀ e ∈ logged, !e.isOnScreen := by
  have hloading : (readSchemaFile (.ofText file) (w.note (.status "Loading schema..."))).1 =
      .ok c := hread ▸ readSchemaFile_congr rfl
  rcases hx : readSchemaFile (.ofText file) (w.note (.status "Loading schema...")) with ⟨r, v⟩
  rw [hx] at hloading
  cases hloading
  obtain ⟨hfiles, htables, logged, hevents, hlogged⟩ := (unseen_readSchemaFile _).next hx
  refine ⟨v, logged, ?_, hfiles, htables, ?_, fun e he =>
    Event.not_isOnScreen_of_isUnseen (hlogged e he)⟩
  · rw [load, Run.bind_apply]
    show Run.reporting console "" (readSchemaFile (.ofText file)) _ = _
    rw [Run.reporting, Run.recover, hx]
  · rw [hevents, World.note, List.append_assoc]
    rfl

/-- What is handed over to be shown of a schema. -/
def displayed (file : Text) (c : ClusterSchema) : List Event :=
  if c.size = 0 then [emptyNotice]
  else [.print (Line.heading "Schema").markup,
    .print (Line.info ("File: " ++ file ++ " | Tables: " ++ Text.ofNat c.size)).markup,
    .table "Tables" (Listing.ofTables "Tables" c).header (Listing.ofTables "Tables" c).rows,
    .table "Column families" (Listing.ofFamilies "Column families" c).header
      (Listing.ofFamilies "Column families" c).rows]

theorem display_displayed (file : Text) (hp : c.Portable) :
    Display file c.tables (displayed file c) := by
  rw [displayed]
  split
  · next h => exact .notice (List.length_eq_zero_iff.mp h)
  · next h =>
    have hrows := Listing.rows_ofTables "Tables" c
    have hsize : c.size = (Listing.ofTables "Tables" c).rows.length := hrows.length_eq
    rw [hsize]
    exact .listings (mt List.length_eq_zero_iff.mpr h) hrows
      (Listing.rows_ofFamilies "Column families" hp)

theorem present_eq (console : Console) (file : Text) {c : ClusterSchema} (h : c.size ≠ 0) :
    present console file c = Run.handAll console (displayed file c) := by
  rw [displayed, if_neg h]
  simp only [Run.handAll, bind_pure_unit]
  rfl

/-- The last steps of the command: its exit, and what is shown. -/
theorem handed_displayed (console : Console) (file : Text) (c : ClusterSchema) (w : World) :
    ∃ exit shown, Handed console .done (displayed file c) exit shown ∧
      Exit.ofResult ((endIfEmpty console c >>= fun _ => present console file c) w).1 = exit ∧
      ((endIfEmpty console c >>= fun _ => present console file c) w).2 = w.record shown := by
  rw [endIfEmpty]
  by_cases h : c.size = 0
  · have hwarning : displayed file c = [emptyNotice] := if_pos h
    obtain ⟨exit, shown, hhanded, hrun⟩ :=
      Run.handed_fail (α := Unit) console .done (displayed file c) w
    rw [hwarning, emptyNotice, Run.handAll_print] at hrun
    refine ⟨exit, shown, hhanded, ?_⟩
    have hstop : ∀ x : Run Exit Unit, (Run.stop console "No tables found." >>= fun _ : Unit => x) =
        (do
          Run.say console (.warning "No tables found.")
          Run.fail .done) := fun x => bind_assoc _ _ _
    rw [if_pos h, hstop, hrun]
    exact ⟨rfl, rfl⟩
  · rw [if_neg h, pure_bind, present_eq console file h]
    exact Run.handed_handAll console (displayed file c) w

/-- A command with a usable filter reads the file and then has nothing left to do but to show the
tables that are asked for. -/
theorem run_of_read (console : Console) (command : ShowCommand)
    (hname : Filter command.name wanted)
    (hread : (readSchemaFile (.ofText command.file) w).1 = .ok c) :
    ∃ (v : World) (logged : List Event), v.files = w.files ∧ v.tables = w.tables ∧
      v.events = w.events ++ .status "Loading schema..." :: logged ∧
      (∀ e ∈ logged, !e.isOnScreen) ∧
      ∃ exit shown, Handed console .done (displayed command.file ⟨selection c wanted⟩) exit shown ∧
        Exit.ofResult (command.run console w).1 = exit ∧
        (command.run console w).2 = v.record shown := by
  obtain ⟨hsound, -⟩ := readSchemaFile_portable hread
  obtain ⟨r, hexpression, hselect⟩ := hname.select
  obtain ⟨v, logged, hload, hfiles, htables, hevents, hlogged⟩ := load_eq_ok console hread
  have hrun : command.run console w = (endIfEmpty console ⟨selection c wanted⟩ >>= fun _ =>
      present console command.file ⟨selection c wanted⟩) v := by
    rw [run, Run.bind_apply, hexpression console w]
    dsimp only
    rw [Run.bind_apply, hload]
    dsimp only
    rw [hselect c hsound.names_nodup]
    rfl
  rw [hrun]
  exact ⟨v, logged, hfiles, htables, hevents, hlogged, handed_displayed console command.file _ v⟩

/-- After a schema file was read, a command with a usable filter hands over what there is to show of
the tables that are asked for, and fails in nothing else. That is one row for each of these tables
and one for each of their families, in the order of the file, and the number of the former; only if
there are none, it says so instead. The command ends well exactly if the console takes all of it, and
otherwise at the first piece that is refused, with the pieces in front of it shown. -/
theorem run_shows_selection (console : Console) (command : ShowCommand)
    (hname : Filter command.name wanted)
    (hread : (readSchemaFile (.ofText command.file) w).1 = .ok c) :
    ∃ handed exit shown logged, Display command.file (selection c wanted) handed ∧
      Handed console .done handed exit shown ∧
      Exit.ofResult (command.run console w).1 = exit ∧ (exit = .done ↔ console.Takes handed) ∧
      (command.run console w).2.files = w.files ∧ (command.run console w).2.tables = w.tables ∧
      (command.run console w).2.events =
        w.events ++ .status "Loading schema..." :: logged ++ shown ∧
      (∀ e ∈ logged, !e.isOnScreen) ∧
      (emptyNotice ∈ handed ↔ selection c wanted = []) ∧
      ((∃ title header rows, .table title header rows ∈ handed) ↔ selection c wanted ≠ []) := by
  obtain ⟨-, hportable⟩ := readSchemaFile_portable hread
  have hselected : ClusterSchema.Portable ⟨selection c wanted⟩ :=
    fun t ht => hportable t (List.mem_of_mem_filter ht)
  have hdisplay := display_displayed command.file hselected
  obtain ⟨v, logged, hfiles, htables, hevents, hlogged, exit, shown, hhanded, hexit, hworld⟩ :=
    run_of_read console command hname hread
  refine ⟨_, exit, shown, logged, hdisplay, hhanded, hexit, hhanded.exit_eq_iff nofun, ?_, ?_, ?_,
    hlogged, hdisplay.notice_mem_iff, hdisplay.table_mem_iff⟩
  · rw [hworld, ← hfiles]
    rfl
  · rw [hworld, ← htables]
    rfl
  · rw [hworld, ← hevents]
    rfl

/-! ## Some files -/

/-- A world with the one file `s`. -/
def fileOfText (t : Text) : World where
  files := (FileSystem.empty []).place [[0x73]] (.file ((Utf8.encode? t).getD []))
  tables := []
  events := []

/-- The file `s` holds the two tables `xy` and `z`. -/
def twoNames : World :=
  fileOfText ("\x7b\"tableSchemaDefinitions\":[\x7b\"name\":\"z\"\x7d,\x7b\"name\":\"xy\"," ++
    "\"columnFamilies\":\x7b\"f\":\x7b\"b\":[1],\"a\":\x7b\x7d\x7d\x7d," ++
      "\"splits\":[\"k\"]\x7d]\x7d")

/-- One of the tables has the text that is searched for in its name, and nothing is refused. -/
theorem run_shows_selection_one : ∃ wanted c handed, Filter (some "y") wanted ∧
    (readSchemaFile (.ofText "s") twoNames).1 = .ok c ∧
    Exit.ofResult (run {} ⟨"s", some "y"⟩ twoNames).1 = .done ∧
    Display "s" (selection c wanted) handed ∧
    (selection c wanted).map TableSchema.name = ["xy"] := by
  have hselected : ((Regex.compile "y").toOption.bind fun r =>
      (readSchemaFile (.ofText "s") twoNames).1.toOption.map fun c =>
        (selection c r.matchesSomewhere).map TableSchema.name) = some (["xy"] : List Text) := by
    decide +kernel
  rcases hr : Regex.compile "y" with _ | r
  · rw [hr] at hselected
    cases hselected
  rcases hread : (readSchemaFile (.ofText "s") twoNames).1 with _ | c
  · rw [hr, hread] at hselected
    cases hselected
  rw [hr, hread] at hselected
  have hname : Filter (some "y") r.matchesSomewhere := .search (by decide) hr
  obtain ⟨handed, exit, -, -, hdisplay, -, hexit, hdone, -⟩ :=
    run_shows_selection {} ⟨"s", some "y"⟩ hname hread
  have hended := hexit.trans (hdone.mpr (Console.takes_plain handed))
  exact ⟨_, c, handed, hname, rfl, hended, hdisplay, Option.some.inj hselected⟩

/-- The file `s` holds one table, whose one family is configured so. -/
def configured (config : Text) : World :=
  fileOfText ("\x7b\"tableSchemaDefinitions\":[\x7b\"name\":\"t\",\"columnFamilies\":\x7b\"f\":" ++
    config ++ "\x7d\x7d]\x7d")

/-- A console that reads markup takes a configured text for a closing tag, and shows nothing of it;
and it takes a truth value in a list for a style, of which only what stands around it is shown. Both
files are read. -/
theorem run_shows_selection_markup :
    ((readSchemaFile (.ofText "s") (configured "\x7b\"note\": \"[/x]\"\x7d")).1.isOk ∧
      ∃ fault, (run .markup ⟨"s", none⟩ (configured "\x7b\"note\": \"[/x]\"\x7d")).1 =
        .error (.raised (.outside (.markup fault)))) ∧
    (readSchemaFile (.ofText "s") (configured "\x7b\"a\": [true]\x7d")).1.isOk ∧
      ∃ cell : Text, .table "Column families" ["Table", "Family", "Configuration"] [["t", "f", cell]] ∈
        (run .markup ⟨"s", none⟩ (configured "\x7b\"a\": [true]\x7d")).2.events ∧
      Console.markup.shows cell = "\x7b\"a\": \x7d" ∧
      (Json.read (Console.markup.shows cell)).isOk = false := by
  have hcell : Event.table "Column families" ["Table", "Family", "Configuration"]
      [["t", "f", "\x7b\"a\": [true]\x7d"]] ∈
        (run .markup ⟨"s", none⟩ (configured "\x7b\"a\": [true]\x7d")).2.events := by decide +kernel
  refine ⟨⟨by decide +kernel, ?_⟩, by decide +kernel, _, hcell, by decide +kernel,
    by decide +kernel⟩
  have hexit : (match (run .markup ⟨"s", none⟩ (configured "\x7b\"note\": \"[/x]\"\x7d")).1 with
      | .error (.raised (.outside (.markup _))) => true
      | _ => false) = true := by decide +kernel
  split at hexit
  · next fault h => exact ⟨fault, h⟩
  · cases hexit

end SchemaTransfer.ShowCommand
