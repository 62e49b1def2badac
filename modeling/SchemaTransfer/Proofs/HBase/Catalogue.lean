import SchemaTransfer.HBase.Catalogue
import SchemaTransfer.Proofs.Bigtable.Retention
import SchemaTransfer.Proofs.Run.Effects
import SchemaTransfer.Proofs.Run.Success
import SchemaTransfer.Proofs.Schema.Workspace

/-!
# What is read from a server

Reading a server leaves the files and the destination alone. What is read is sound, its names are
free of surrogates because they come as bytes, and its settings can be transferred if those of the
server can.
-/
namespace SchemaTransfer

namespace HBase

/-- A setting as a server sends it: bytes, or a JSON value without surrogate pairs whose numbers have
few enough digits. -/
def SettingSent (cv : ConfigValue) : Prop :=
  (∃ b, cv = .bytes b) ∨ cv.Transferable

/-- A server that sends names as bytes and settings that can be transferred. -/
structure Server.Transferable (server : Server) : Prop where
  tables : ∀ history (names : List RawName), server.answer history .tables = .ok names →
    ∀ n ∈ names, ∃ b, n = .bytes b
  families : ∀ history table (families : Dict RawName Descriptor),
    server.answer history (.families table) = .ok families →
    ∀ f ∈ families.entries, (∃ b, f.1 = .bytes b) ∧ ∀ e ∈ f.2.entries, SettingSent e.2

/-! ## Decoding -/

theorem RawName.surrogateFree_of_decode {n : RawName} {t : Text} (hn : ∃ b, n = .bytes b)
    (h : n.decode = .ok t) : t.SurrogateFree := by
  obtain ⟨b, rfl⟩ := hn
  exact Utf8.surrogateFree_of_decode h

theorem transferable_of_decodeSetting {cv d : ConfigValue} (hcv : SettingSent cv)
    (h : decodeSetting cv = .ok d) : d.Transferable := by
  rcases hcv with ⟨b, rfl⟩ | ⟨v, rfl, hv⟩
  · obtain ⟨t, ht, rfl⟩ := map_eq_ok.mp h
    exact ⟨_, rfl, trivial, (Utf8.surrogateFree_of_decode ht).unpaired⟩
  · cases h
    exact ⟨v, rfl, hv⟩

theorem transferable_of_decodeSettings {sent settings : List (Text × ConfigValue)}
    (hs : ∀ e ∈ sent, SettingSent e.2) (h : decodeSettings sent = .ok settings) :
    ∀ e ∈ settings, e.2.Transferable := by
  induction sent generalizing settings with
  | nil =>
    cases h
    exact fun _ he => (nomatch he)
  | cons e rest ih =>
    obtain ⟨key, cv⟩ := e
    obtain ⟨hcv, hrest⟩ := List.forall_mem_cons.mp hs
    rw [decodeSettings] at h
    split at h
    · exact ih hrest h
    · obtain ⟨d, hd, h⟩ := bind_eq_ok.mp h
      obtain ⟨more, hmore, h⟩ := bind_eq_ok.mp h
      cases h
      exact List.forall_mem_cons.mpr
        ⟨transferable_of_decodeSetting hcv hd, ih hrest hmore⟩

/-- A family whose name comes back as it is, with settings that keep their meaning. -/
def FamilyTransferable (f : Text × Config) : Prop := f.1.SurrogateFree ∧ Config.Transferable f.2

theorem transferable_of_decodeFamilies {sent : List (RawName × Descriptor)}
    {families : List (Text × Config)}
    (hs : ∀ f ∈ sent, (∃ b, f.1 = .bytes b) ∧ ∀ e ∈ f.2.entries, SettingSent e.2)
    (h : decodeFamilies sent = .ok families) : ∀ f ∈ families, FamilyTransferable f := by
  induction sent generalizing families with
  | nil =>
    cases h
    exact fun _ hf => (nomatch hf)
  | cons f rest ih =>
    obtain ⟨rawName, descriptor⟩ := f
    obtain ⟨⟨hname, hsettings⟩, hrest⟩ := List.forall_mem_cons.mp hs
    obtain ⟨family, hfamily, h⟩ := bind_eq_ok.mp h
    obtain ⟨settings, hdecoded, h⟩ := bind_eq_ok.mp h
    obtain ⟨more, hmore, h⟩ := bind_eq_ok.mp h
    cases h
    refine List.forall_mem_cons.mpr ⟨⟨rawName.surrogateFree_of_decode hname hfamily, ?_⟩,
      ih hrest hmore⟩
    exact fun e he => transferable_of_decodeSettings hsettings hdecoded e
      (Dict.mem_of_mem_ofList he)

/-! ## Listing -/

/-- A listed table whose names and settings can be transferred. -/
structure TableTransferable (t : ListedTable) : Prop where
  name : t.name.SurrogateFree
  families : ∀ f ∈ t.families.entries, FamilyTransferable f

variable {server : Server} {w w' : World}

theorem askFor_eq_ok {describe : Fault → AccessError} {c : Call} {reply : c.Reply}
    (h : server.askFor describe c w = (.ok reply, w')) :
    server.answer w.calls c = .ok reply ∧ w' = w.note (.call c) := by
  rw [Server.askFor, Server.ask] at h
  cases ha : server.answer w.calls c with
  | error fault =>
    rw [ha] at h
    cases h
  | ok r =>
    rw [ha] at h
    cases h
    exact ⟨rfl, rfl⟩

theorem decoded_eq_ok {α : Type} {r : Except Utf8.Malformed α} {a : α} :
    decoded r w = (.ok a, w') ↔ r = .ok a ∧ w = w' := by
  rw [decoded, Run.ofExcept_eq_ok, mapError_eq_ok]

theorem transferable_of_describe (hs : server.Transferable) {name : Text} {t : ListedTable}
    (hn : name.SurrogateFree) (h : server.describe name w = (.ok t, w')) :
    TableTransferable t := by
  obtain ⟨_, v, -, h⟩ := Run.bind_eq_ok.mp h
  obtain ⟨sent, v', hsent, h⟩ := Run.bind_eq_ok.mp h
  obtain ⟨families, _, hfamilies, h⟩ := Run.bind_eq_ok.mp h
  obtain ⟨rfl, -⟩ := Run.pure_eq_ok.mp h
  have hall := transferable_of_decodeFamilies (hs.families _ _ _ (askFor_eq_ok hsent).1)
    (decoded_eq_ok.mp hfamilies).1
  exact ⟨hn, fun f hf => hall f (Dict.mem_of_mem_ofList hf)⟩

theorem transferable_of_describeMatching (hs : server.Transferable) {r : Regex} {names : List RawName}
    {tables : List ListedTable} (hn : ∀ n ∈ names, ∃ b, n = .bytes b)
    (h : server.describeMatching r names w = (.ok tables, w')) :
    ∀ t ∈ tables, TableTransferable t := by
  induction names generalizing tables w w' with
  | nil =>
    obtain ⟨rfl, -⟩ := Run.pure_eq_ok.mp h
    exact fun _ ht => (nomatch ht)
  | cons rawName rest ih =>
    obtain ⟨hraw, hrest⟩ := List.forall_mem_cons.mp hn
    obtain ⟨name, v, hname, h⟩ := Run.bind_eq_ok.mp h
    have hfree := rawName.surrogateFree_of_decode hraw (decoded_eq_ok.mp hname).1
    split at h
    · obtain ⟨t, _, ht, h⟩ := Run.bind_eq_ok.mp h
      obtain ⟨more, _, hmore, h⟩ := Run.bind_eq_ok.mp h
      obtain ⟨rfl, -⟩ := Run.pure_eq_ok.mp h
      exact List.forall_mem_cons.mpr ⟨transferable_of_describe hs hfree ht, ih hrest hmore⟩
    · exact ih hrest h

theorem transferable_of_listTables (hs : server.Transferable) {pattern : Text}
    {tables : List ListedTable} (h : server.listTables pattern w = (.ok tables, w')) :
    ∀ t ∈ tables, TableTransferable t := by
  obtain ⟨r, _, -, h⟩ := Run.bind_eq_ok.mp h
  obtain ⟨names, v, hnames, h⟩ := Run.bind_eq_ok.mp h
  exact transferable_of_describeMatching hs (hs.tables _ _ (askFor_eq_ok hnames).1) h

/-! ## What reading is made of -/

/-- All of the reading but the call that closes the connection. -/
def Server.gather (server : Server) (filter : Option Text) : Run Failure ClusterSchema := do
  let tables ← server.source.tables (Source.patternOf filter)
  server.source.collect .empty tables

theorem read_eq (server : Server) (filter : Option Text) (w : World) :
    server.source.read filter w = (server.gather filter).ensuring server.close
      (w.note (.log .info "Reading schema from HBase.")) := rfl

/-- A property that the parts have of which reading the tables of a pattern is made: messages of the
log, calls other than the one that closes the connection, and what is decoded and checked. -/
structure Server.ReadParts (server : Server) (pattern : Text) (P : ∀ α : Type, Run Failure α → Prop) :
    Prop extends Run.Composes P where
  log : ∀ level message, level ≠ .error → P Unit (Run.log level message)
  ask : ∀ describe c, c ≠ .close → P c.Reply (server.askFor describe c)
  compiled : P Regex (Run.ofExcept ((Regex.compile pattern).mapError .badPattern))
  decoded : ∀ {α : Type} (r : Except Utf8.Malformed α), P α (decoded r)
  checked : ∀ {α : Type} (r : Except DefinitionError α),
    P α (Run.ofExcept (r.mapError .definition))

namespace Server.ReadParts

variable {pattern : Text} {P : ∀ α : Type, Run Failure α → Prop}

theorem describe (h : server.ReadParts pattern P) (name : Text) : P _ (server.describe name) :=
  h.next (h.ask _ (.table name) nofun) fun _ => h.next (h.ask _ (.families name) nofun) fun _ =>
    h.next (h.decoded _) fun _ => h.done _

theorem describeMatching (h : server.ReadParts pattern P) (r : Regex) (names : List RawName) :
    P _ (server.describeMatching r names) := by
  induction names with
  | nil => exact h.done _
  | cons rawName rest ih =>
    refine h.next (h.decoded _) fun name => ?_
    split
    · exact h.next (h.describe name) fun _ => h.next ih fun _ => h.done _
    · exact ih

theorem listTables (h : server.ReadParts pattern P) : P _ (server.listTables pattern) :=
  h.next h.compiled fun _ => h.next (h.ask _ .tables nofun) fun _ => h.describeMatching _ _

theorem regionStartKeys (h : server.ReadParts pattern P) (table : Text) :
    P _ (server.regionStartKeys table) :=
  h.next (h.ask _ (.table table) nofun) fun _ => h.next (h.ask _ (.regions table) nofun) fun _ =>
    h.done _

theorem tables (h : server.ReadParts pattern P) : P _ (server.source.tables pattern) := by
  refine h.next (h.next h.listTables fun _ => h.done _) fun listed => ?_
  split
  · exact h.next (h.log _ _ nofun) fun _ => h.done _
  · exact h.next (h.log _ _ nofun) fun _ => h.done _
  · exact h.done _

theorem splits (h : server.ReadParts pattern P) (table : Text) :
    P _ (server.source.splits table) :=
  h.next (h.next (h.regionStartKeys table) fun _ => h.done _) fun _ =>
    h.next (h.log _ _ nofun) fun _ => h.done _

theorem collect (h : server.ReadParts pattern P) (c : ClusterSchema) (tables : List ListedTable) :
    P _ (server.source.collect c tables) := by
  induction tables generalizing c with
  | nil => exact h.done _
  | cons t rest ih =>
    exact h.next (h.log _ _ nofun) fun _ => h.next (h.splits t.name) fun _ =>
      h.next (h.checked _) fun _ => h.next (h.checked _) fun c => ih c

theorem gather (filter : Option Text) (h : server.ReadParts (Source.patternOf filter) P) :
    P _ (server.gather filter) :=
  h.next h.tables fun _ => h.collect _ _

end Server.ReadParts

/-! ## What happens while a server is read -/

theorem passes_askFor {q : Event → Bool} (server : Server) (describe : Fault → AccessError)
    {c : Call} (hc : q (.call c)) : Run.Within (World.Passes q) (server.askFor describe c) := by
  intro w
  rw [Server.askFor, Server.ask]
  have hcall : w.Passes q (w.note (.call c)) := w.passes_note hc
  cases server.answer w.calls c <;> exact hcall

/-- Reading is all that happens before the connection is closed. -/
theorem readParts_reading (server : Server) (pattern : Text) :
    server.ReadParts pattern fun _ x => Run.Within (World.Passes Event.isReading) x where
  toComposes := Run.composes_within
  log _ _ h := fun w => w.passes_note (decide_eq_true h)
  ask _ _ h := passes_askFor server _ (decide_eq_true h)
  compiled := Run.within_ofExcept _
  decoded _ := Run.within_ofExcept _
  checked _ := Run.within_ofExcept _

/-- Closing is one call, whatever its answer. -/
theorem close_world (server : Server) (w : World) : (server.close w).2 = w.note (.call .close) := by
  rw [Server.close, Server.ask]
  cases server.answer w.calls .close <;> rfl

/-- However reading ends, the last thing that happens is the call that closes the connection, and
there is no other such call. -/
theorem read_world (server : Server) (filter : Option Text) (w : World) :
    ∃ u, w.Passes Event.isReading u ∧
      (server.source.read filter w).2 = u.note (.call .close) := by
  have hlogged : w.Passes Event.isReading (w.note (.log .info "Reading schema from HBase.")) :=
    w.passes_note rfl
  refine ⟨_, hlogged.trans ((readParts_reading server _).gather filter _), ?_⟩
  rw [read_eq, Run.ensuring_world]
  exact close_world server _

/-! ## What is read -/

theorem collect_transferable {c d : ClusterSchema} {tables : List ListedTable}
    (hc : c.Sound ∧ c.Transferable) (ht : ∀ t ∈ tables, TableTransferable t)
    (h : server.source.collect c tables w = (.ok d, w')) : d.Sound ∧ d.Transferable := by
  induction tables generalizing c w with
  | nil =>
    obtain ⟨rfl, -⟩ := Run.pure_eq_ok.mp h
    exact hc
  | cons t rest ih =>
    obtain ⟨htt, hrest⟩ := List.forall_mem_cons.mp ht
    obtain ⟨_, _, -, h⟩ := Run.bind_eq_ok.mp h
    obtain ⟨splits, _, -, h⟩ := Run.bind_eq_ok.mp h
    obtain ⟨schema, _, hschema, h⟩ := Run.bind_eq_ok.mp h
    obtain ⟨next, _, hnext, h⟩ := Run.bind_eq_ok.mp h
    have hcreate := mapError_eq_ok.mp (Run.ofExcept_eq_ok.mp hschema).1
    have hadd := mapError_eq_ok.mp (Run.ofExcept_eq_ok.mp hnext).1
    obtain ⟨-, -, -, hvalid⟩ := TableSchema.create_eq_ok hcreate
    have hsound := ClusterSchema.sound_add hc.1 hvalid hadd
    have hkeys : ∀ family ∈ t.families.keys, family.Unpaired := by
      intro family hfamily
      obtain ⟨config, hf⟩ := Entries.mem_keys.mp hfamily
      exact (htt.families _ hf).1.unpaired
    have htransfer := TableSchema.transferable_of_create htt.name.unpaired hkeys
      (fun f hf => (htt.families f hf).2) hcreate
    exact ih ⟨hsound, hc.2.add htransfer hadd⟩ hrest h

/-- A definition read from a server is sound and can be transferred. -/
theorem read_transferable (hs : server.Transferable) {filter : Option Text} {c : ClusterSchema}
    (h : server.source.read filter w = (.ok c, w')) : c.Sound ∧ c.Transferable := by
  obtain ⟨_, _, -, h⟩ := Run.bind_eq_ok.mp h
  obtain ⟨_, hread, -⟩ := Run.ensuring_eq_ok.mp h
  obtain ⟨tables, _, htables, hcollect⟩ := Run.bind_eq_ok.mp hread
  refine collect_transferable ⟨ClusterSchema.sound_empty, fun _ ht => (nomatch ht)⟩ ?_ hcollect
  obtain ⟨listed, _, hlisted, h⟩ := Run.bind_eq_ok.mp htables
  obtain ⟨found, _, hfound, hl⟩ := Run.bind_eq_ok.mp hlisted
  obtain ⟨rfl, -⟩ := Run.pure_eq_ok.mp hl
  have hall := transferable_of_listTables hs hfound
  cases found with
  | nil =>
    obtain ⟨_, _, -, h⟩ := Run.bind_eq_ok.mp h
    obtain ⟨rfl, -⟩ := Run.pure_eq_ok.mp h
    exact fun _ ht => (nomatch ht)
  | cons t rest =>
    obtain ⟨rfl, -⟩ := Run.pure_eq_ok.mp h
    exact hall

end HBase

end SchemaTransfer
