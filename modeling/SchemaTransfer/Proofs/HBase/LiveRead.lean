import SchemaTransfer.Proofs.HBase.Decoding
import SchemaTransfer.Proofs.HBase.Faults
import SchemaTransfer.Proofs.Schema.Names

/-!
# Reading a server that answers

Where all calls are answered, reading asks for all tables once, then for the families of each table
that is wanted, then for the regions of each, and closes the connection. What comes of it is what
the answers say: one table for each that is wanted, in the order of the list. Reading fails only
where the names that are wanted are no names for the tables of a cluster.
-/
namespace SchemaTransfer

/-! ## Calls -/

/-- The second world has the calls of the first one, and maybe more after them. -/
def World.Continues (u v : World) : Prop := u.calls <+: v.calls

/-- From the first world to the second the call was made, after those in `history`. -/
structure World.Asked (u v : World) (history : List HBase.Call) (c : HBase.Call) : Prop where
  since : u.calls <+: history
  upTo : history ++ [c] <+: v.calls

namespace World

variable {u v w : World}

theorem Continues.rfl : w.Continues w := List.prefix_refl w.calls

theorem Continues.trans (h : u.Continues v) (h' : v.Continues w) : u.Continues w :=
  List.IsPrefix.trans h h'

instance : IsPreorder World Continues where
  refl _ := .rfl
  trans _ _ _ := .trans

theorem calls_note (w : World) (e : Event) : (w.note e).calls = w.calls ++ e.call?.toList := by
  rw [calls, note, List.filterMap_append]
  cases h : e.call? <;> simp [h, calls]

theorem calls_log (w : World) (level : LogLevel) (message : Text) :
    (w.note (.log level message)).calls = w.calls :=
  (w.calls_note _).trans (List.append_nil _)

theorem continues_note (w : World) (e : Event) : w.Continues (w.note e) := by
  rw [Continues, calls_note]
  exact List.prefix_append _ _

theorem continues_of_calls {calls : List HBase.Call} (h : v.calls = u.calls ++ calls) :
    u.Continues v := by
  rw [Continues, h]
  exact List.prefix_append _ _

theorem Asked.mono {u' v' : World} {history : List HBase.Call} {c : HBase.Call}
    (h : u.Asked v history c) (hu : u'.Continues u) (hv : v.Continues v') : u'.Asked v' history c :=
  ⟨List.IsPrefix.trans hu h.since, h.upTo.trans hv⟩

theorem asked_note (w : World) (c : HBase.Call) : w.Asked (w.note (.call c)) w.calls c :=
  ⟨List.prefix_refl _, (calls_note w (.call c)).symm ▸ List.prefix_refl _⟩

end World

namespace HBase

/-! ## Answers -/

/-- A reply that can be decoded. -/
def Call.Legible : (c : Call) → c.Reply → Prop
  | .tables => fun names : List RawName => ∀ n ∈ names, ∃ t, n.Spells t
  | .families _ => fun families : Dict RawName Descriptor => ∀ f ∈ families.entries, FamilyLegible f
  | .table _ | .regions _ | .close => fun _ => True

/-- Every call from the first world to the second was answered by what can be decoded. -/
def Server.Serves (server : Server) (u v : World) : Prop :=
  ∀ history c, u.Asked v history c →
    ∃ reply, server.answer history c = .ok reply ∧ c.Legible reply

/-- From the first world to the second the call was made, and this was the answer. -/
def Server.Replied (server : Server) (u v : World) (c : Call) (reply : c.Reply) : Prop :=
  ∃ history, u.Asked v history c ∧ server.answer history c = .ok reply

/-- When the server was asked for the families of the table, it said this. -/
def Server.SaysFamilies (server : Server) (u v : World) (table : Text) (families : Families) :
    Prop :=
  ∃ sent : Dict RawName Descriptor, server.Replied u v (.families table) sent ∧
    List.Forall₂ FamilySays sent.entries families.entries

/-- When the server was asked for the regions of the table, they began at these splits; a region
that begins at the empty key does not count. -/
def Server.SaysSplits (server : Server) (u v : World) (table : Text) (splits : List Bytes) : Prop :=
  ∃ keys : List Bytes, server.Replied u v (.regions table) keys ∧ splits = keys.filter (· ≠ [])

structure Server.Lists (server : Server) (u v : World) (name : Text) (t : ListedTable) : Prop where
  name_eq : t.name = name
  families : server.SaysFamilies u v name t.families

/-- The table has this name, and all else of it is what the server said of it. -/
structure Server.Describes (server : Server) (u v : World) (name : Text) (t : TableSchema) :
    Prop where
  name_eq : t.name = name
  families : server.SaysFamilies u v name t.families
  splits : server.SaysSplits u v name t.splits

/-- The calls for the families of a table. -/
def familyCalls (table : Text) : List Call := [.table table, .families table]

/-- The calls for the regions of a table. -/
def regionCalls (table : Text) : List Call := [.table table, .regions table]

/-- The calls for tables of which these are wanted: once for all names, once for the families of
each table that is wanted, and then once for its regions. -/
def readingCalls (wanted : List Text) : List Call :=
  .tables :: (wanted.flatMap familyCalls ++ wanted.flatMap regionCalls)

variable {server : Server} {pattern name : Text} {u v w : World} {r : Regex}

theorem Server.Serves.mono {u' v' : World} (h : server.Serves u' v') (hu : u'.Continues u)
    (hv : v.Continues v') : server.Serves u v :=
  fun history c hc => h history c (hc.mono hu hv)

theorem Server.Replied.mono {u' v' : World} {c : Call} {reply : c.Reply}
    (h : server.Replied u v c reply) (hu : u'.Continues u) (hv : v.Continues v') :
    server.Replied u' v' c reply := by
  obtain ⟨history, hc, hanswer⟩ := h
  exact ⟨history, hc.mono hu hv, hanswer⟩

theorem Server.SaysFamilies.mono {u' v' : World} {families : Families}
    (h : server.SaysFamilies u v name families) (hu : u'.Continues u) (hv : v.Continues v') :
    server.SaysFamilies u' v' name families := by
  obtain ⟨sent, hsent, hsays⟩ := h
  exact ⟨sent, hsent.mono hu hv, hsays⟩

theorem Server.SaysSplits.mono {u' v' : World} {splits : List Bytes}
    (h : server.SaysSplits u v name splits) (hu : u'.Continues u) (hv : v.Continues v') :
    server.SaysSplits u' v' name splits := by
  obtain ⟨keys, hkeys, hsplits⟩ := h
  exact ⟨keys, hkeys.mono hu hv, hsplits⟩

theorem Server.Lists.mono {u' v' : World} {t : ListedTable} (h : server.Lists u v name t)
    (hu : u'.Continues u) (hv : v.Continues v') : server.Lists u' v' name t :=
  ⟨h.name_eq, h.families.mono hu hv⟩

theorem Server.Describes.mono {u' v' : World} {t : TableSchema} (h : server.Describes u v name t)
    (hu : u'.Continues u) (hv : v.Continues v') : server.Describes u' v' name t :=
  ⟨h.name_eq, h.families.mono hu hv, h.splits.mono hu hv⟩

theorem forall₂_lists_mono {u' v' : World} {names : List Text} {tables : List ListedTable}
    (h : List.Forall₂ (server.Lists u v) names tables) (hu : u'.Continues u) (hv : v.Continues v') :
    List.Forall₂ (server.Lists u' v') names tables :=
  h.imp fun _ _ ht => ht.mono hu hv

/-! ## The parts of reading -/

theorem askFor_world (server : Server) (describe : Fault → AccessError) (c : Call) (w : World) :
    (server.askFor describe c w).2 = w.note (.call c) := by
  rw [Server.askFor, Server.ask]
  cases server.answer w.calls c <;> rfl

theorem readParts_continues (server : Server) (pattern : Text) :
    server.ReadParts pattern fun _ x => Run.Within World.Continues x where
  toComposes := Run.composes_within
  log _ _ _ := fun w => w.continues_note _
  ask describe c _ := fun w => by
    rw [askFor_world]
    exact w.continues_note _
  compiled := Run.within_ofExcept _
  decoded _ := Run.within_ofExcept _
  checked _ := Run.within_ofExcept _

/-- If all calls of a run are served, it ends as `Q` says. -/
def Server.Leads {α : Type} (server : Server) (x : Run Failure α) (w : World)
    (Q : Except Failure α → World → Prop) : Prop :=
  server.Serves w (x w).2 → Q (x w).1 (x w).2

/-- A run ends in a value. -/
def Brings {α : Type} (P : α → World → Prop) (r : Except Failure α) (v : World) : Prop :=
  ∃ a, r = .ok a ∧ P a v

namespace Server.Leads

variable {α β : Type} {x : Run Failure α} {f : α → Run Failure β} {P : α → World → Prop}
  {Q R : Except Failure α → World → Prop} {S : Except Failure β → World → Prop}

theorem mono (h : server.Leads x w Q) (hQR : ∀ r v, Q r v → R r v) : server.Leads x w R :=
  fun hs => hQR _ _ (h hs)

/-- What serves a run serves its first part, and then the rest of it. -/
theorem next (hx : server.Leads x w (Brings P)) (hgrows : Run.Within World.Continues x)
    (hfgrows : ∀ a, Run.Within World.Continues (f a))
    (hf : ∀ a u, w.Continues u → P a u → server.Leads (f a) u S) : server.Leads (x >>= f) w S := by
  intro hs
  obtain ⟨a, ha, hP⟩ := hx (hs.mono .rfl (Run.after_bind x hfgrows w))
  have hrest : (x >>= f) w = f a (x w).2 := by
    rw [Run.bind_apply, show x w = (.ok a, (x w).2) from Prod.ext ha rfl]
  rw [hrest] at hs ⊢
  exact hf a _ (hgrows w) hP (hs.mono (hgrows w) .rfl)

/-- Closing is a call that is served, too, so it leaves the result as it is. -/
theorem closing (hx : server.Leads x w Q) (hgrows : Run.Within World.Continues x) :
    server.Leads (x.ensuring server.close) w fun r v =>
      ∃ u, v = u.note (.call .close) ∧ Q r u := by
  intro hs
  rw [Run.ensuring_world, close_world] at hs
  have hclose := (World.asked_note (x w).2 .close).mono (hgrows w) .rfl
  obtain ⟨⟨⟩, hanswer, -⟩ := hs _ _ hclose
  refine ⟨(x w).2, ?_, ?_⟩
  · rw [Run.ensuring_world, close_world]
  · rw [Run.ensuring_result, close_result, hanswer]
    exact hx (hs.mono .rfl (World.continues_note _ _))

end Server.Leads

section

variable {α β : Type} {S : Except Failure β → World → Prop}

theorem leads_pure {b : β} (h : S (.ok b) w) : server.Leads (pure b) w S := fun _ => h

theorem leads_log {level : LogLevel} {message : Text} {f : Unit → Run Failure β}
    (hf : server.Leads (f ()) (w.note (.log level message)) S) :
    server.Leads (Run.log level message >>= f) w S :=
  fun hs => hf (hs.mono (w.continues_note _) .rfl)

theorem leads_decoded {r : Except Utf8.Malformed α} {a : α} {f : α → Run Failure β} (h : r = .ok a)
    (hf : server.Leads (f a) w S) : server.Leads (decoded r >>= f) w S := by
  rw [h]
  exact hf

theorem leads_ask {describe : Fault → AccessError} {c : Call} {f : c.Reply → Run Failure β}
    (hfgrows : ∀ reply, Run.Within World.Continues (f reply))
    (hf : ∀ reply, server.answer w.calls c = .ok reply → c.Legible reply →
      server.Leads (f reply) (w.note (.call c)) S) :
    server.Leads (server.askFor describe c >>= f) w S := by
  intro hs
  have hasked := Run.after_bind (server.askFor describe c) hfgrows w
  rw [askFor_world] at hasked
  obtain ⟨reply, hanswer, hlegible⟩ := hs _ _ ((w.asked_note c).mono .rfl hasked)
  have hrest : (server.askFor describe c >>= f) w = f reply (w.note (.call c)) := by
    rw [Run.bind_apply, Server.askFor, Server.ask, hanswer]
  rw [hrest] at hs ⊢
  exact hf reply hanswer hlegible (hs.mono (w.continues_note _) .rfl)

end

theorem replied_note {c : Call} {reply : c.Reply} (hanswer : server.answer w.calls c = .ok reply) :
    server.Replied w (w.note (.call c)) c reply :=
  ⟨w.calls, w.asked_note c, hanswer⟩

theorem leads_describe (server : Server) (name : Text) (w : World) :
    server.Leads (server.describe name) w (Brings fun t v =>
      v.calls = w.calls ++ familyCalls name ∧ server.Lists w v name t) := by
  have hparts := readParts_continues server []
  have hlast : ∀ families : Dict RawName Descriptor, Run.Within World.Continues
      (decoded (decodeFamilies families.entries) >>= fun decoded =>
        (pure ⟨name, Dict.ofList decoded⟩ : Run Failure ListedTable)) := fun families =>
    hparts.next (hparts.decoded _) fun _ => hparts.done _
  have hask := hparts.ask .listTables (.families name) nofun
  refine leads_ask (fun _ => hparts.next hask hlast) fun _ _ _ => ?_
  refine leads_ask hlast fun sent hanswer hlegible => ?_
  obtain ⟨families, hdecoded, hsays⟩ := decodeFamilies_of_legible hlegible
  refine leads_decoded hdecoded (leads_pure ⟨_, rfl, ?_, rfl, sent, ?_, ?_⟩)
  · rw [World.calls_note, World.calls_note, List.append_assoc]
    rfl
  · exact (replied_note hanswer).mono (World.continues_note _ _) .rfl
  · rw [entries_ofList_of_familiesSay hsays]
    exact hsays

theorem leads_describeMatching (server : Server) (r : Regex) {rawNames : List RawName}
    {names : List Text} (hnames : List.Forall₂ RawName.Spells rawNames names) (w : World) :
    server.Leads (server.describeMatching r rawNames) w (Brings fun tables v =>
      v.calls = w.calls ++ (names.filter r.matchesWhole).flatMap familyCalls ∧
        List.Forall₂ (server.Lists w v) (names.filter r.matchesWhole) tables) := by
  have hparts := readParts_continues server []
  induction hnames generalizing w with
  | nil => exact leads_pure ⟨_, rfl, (List.append_nil _).symm, .nil⟩
  | @cons rawName name rawNames names hname _ ih =>
    refine leads_decoded (RawName.decode_of_spells hname) ?_
    by_cases hmatch : r.matchesWhole name
    · rw [if_pos hmatch, List.filter_cons_of_pos hmatch]
      refine (leads_describe server name w).next (hparts.describe name)
        (fun _ => hparts.next (hparts.describeMatching r _) fun _ => hparts.done _) ?_
      intro t u hu ⟨hcalls, ht⟩
      refine (ih u).next (hparts.describeMatching r _) (fun _ => hparts.done _) ?_
      intro tables v hv ⟨hcalls', htables⟩
      refine leads_pure ⟨_, rfl, ?_, .cons (ht.mono .rfl hv) (forall₂_lists_mono htables hu .rfl)⟩
      rw [hcalls', hcalls, List.flatMap_cons, List.append_assoc]
    · rw [if_neg hmatch, List.filter_cons_of_neg hmatch]
      exact ih w

/-- What listing asks and what it brings. -/
structure Server.Listing (server : Server) (r : Regex) (u v : World) (rawNames : List RawName)
    (names : List Text) (tables : List ListedTable) : Prop where
  answer : server.answer u.calls .tables = .ok rawNames
  spelled : List.Forall₂ RawName.Spells rawNames names
  calls : v.calls = u.calls ++ .tables :: (names.filter r.matchesWhole).flatMap familyCalls
  listed : List.Forall₂ (server.Lists u v) (names.filter r.matchesWhole) tables

theorem leads_listTables (hr : Regex.compile pattern = .ok r) (server : Server) (w : World) :
    server.Leads (server.listTables pattern) w (Brings fun tables v =>
      ∃ rawNames names, server.Listing r w v rawNames names tables) := by
  have hparts := readParts_continues server pattern
  rw [Server.listTables, hr]
  refine leads_ask (fun _ => hparts.describeMatching r _) fun rawNames hanswer hlegible => ?_
  obtain ⟨names, hnames⟩ := exists_forall₂.mpr hlegible
  refine (leads_describeMatching server r hnames _).mono fun result v h => ?_
  obtain ⟨tables, rfl, hcalls, htables⟩ := h
  refine ⟨tables, rfl, rawNames, names, hanswer, hnames, ?_,
    forall₂_lists_mono htables (w.continues_note _) .rfl⟩
  rw [hcalls, World.calls_note, List.append_assoc]
  rfl

theorem leads_tables (hr : Regex.compile pattern = .ok r) (server : Server) (w : World) :
    server.Leads (server.source.tables pattern) w (Brings fun tables v =>
      ∃ rawNames names, server.Listing r w v rawNames names tables) := by
  have hparts := readParts_continues server pattern
  have hlog : ∀ message, Run.Within World.Continues (Run.log .info message >>= fun _ =>
      (pure [] : Run Failure (List ListedTable))) := fun message =>
    hparts.next (hparts.log _ message nofun) fun _ => hparts.done _
  have hlist : server.Leads (do return some (← server.listTables pattern)) w
      (Brings fun tables v => ∃ listed rawNames names, tables = some listed ∧
        server.Listing r w v rawNames names listed) := by
    refine (leads_listTables hr server w).next hparts.listTables (fun _ => hparts.done _) ?_
    intro listed v _ ⟨rawNames, names, h⟩
    exact leads_pure ⟨_, rfl, listed, rawNames, names, rfl, h⟩
  refine hlist.next (hparts.next hparts.listTables fun _ => hparts.done _) (fun listed => ?_) ?_
  · split
    · exact hlog _
    · exact hlog _
    · exact hparts.done _
  intro tables u _ ⟨listed, rawNames, names, hlisted, h⟩
  rw [hlisted]
  cases listed with
  | cons t rest => exact leads_pure ⟨_, rfl, rawNames, names, h⟩
  | nil =>
    refine leads_log (leads_pure ⟨_, rfl, rawNames, names, h.answer, h.spelled, ?_, ?_⟩)
    · rw [World.calls_log, h.calls]
    · exact forall₂_lists_mono h.listed .rfl (u.continues_note _)

theorem leads_splits (server : Server) (name : Text) (w : World) :
    server.Leads (server.source.splits name) w (Brings fun splits v =>
      v.calls = w.calls ++ regionCalls name ∧ server.SaysSplits w v name splits) := by
  have hparts := readParts_continues server []
  have hkeys : server.Leads (server.regionStartKeys name) w (Brings fun keys v =>
      v.calls = w.calls ++ regionCalls name ∧ server.Replied w v (.regions name) keys) := by
    refine leads_ask (fun _ => hparts.next (hparts.ask _ (.regions name) nofun) fun _ =>
      hparts.done _) fun _ _ _ => ?_
    refine leads_ask (fun _ => hparts.done _) fun sent hanswer _ => ?_
    refine leads_pure ⟨sent, rfl, ?_, (replied_note hanswer).mono (w.continues_note _) .rfl⟩
    rw [World.calls_note, World.calls_note, List.append_assoc]
    rfl
  have hsome : server.Leads (do return some (← server.regionStartKeys name)) w
      (Brings fun keys v => ∃ sent, keys = some sent ∧ v.calls = w.calls ++ regionCalls name ∧
        server.Replied w v (.regions name) sent) :=
    hkeys.next (hparts.regionStartKeys name) (fun _ => hparts.done _) fun sent _ _ h =>
      leads_pure ⟨_, rfl, sent, rfl, h⟩
  refine hsome.next (hparts.next (hparts.regionStartKeys name) fun _ => hparts.done _)
    (fun _ => hparts.next (hparts.log _ _ nofun) fun _ => hparts.done _) ?_
  intro keys u hu ⟨sent, hsent, hcalls, hreplied⟩
  rw [hsent]
  refine leads_log (leads_pure ⟨_, rfl, ?_, sent, hreplied.mono .rfl (u.continues_note _), rfl⟩)
  rw [World.calls_log, hcalls]

/-- What becomes of a listed table. -/
structure Server.Completes (server : Server) (u v : World) (t : ListedTable) (s : TableSchema) :
    Prop where
  name_eq : s.name = t.name
  families_eq : s.families = t.families
  splits : server.SaysSplits u v t.name s.splits

theorem forall₂_completes_mono {u' v' : World} {tables : List ListedTable} {made : List TableSchema}
    (h : List.Forall₂ (server.Completes u v) tables made) (hu : u'.Continues u)
    (hv : v.Continues v') : List.Forall₂ (server.Completes u' v') tables made :=
  h.imp fun _ _ ht => ⟨ht.name_eq, ht.families_eq, ht.splits.mono hu hv⟩

theorem create_of_splits {name : Text} (families : Families) (keys : List Bytes)
    (hname : name ≠ []) : TableSchema.create (some name) families (keys.filter (· ≠ [])) =
      .ok ⟨name, families, keys.filter (· ≠ [])⟩ := by
  rw [TableSchema.create_named hname, if_neg]
  simp

/-- The listed tables are added behind those that are done, up to the first whose name is none for
it or is there already. -/
theorem leads_collect (server : Server) (tables : List ListedTable) {done : ClusterSchema}
    (hdone : ProperNames done.names) (w : World) :
    server.Leads (server.source.collect done tables) w fun result v =>
      PutTogether (done.names ++ tables.map ListedTable.name) (fun c => ∃ new,
        c.tables = done.tables ++ new ∧ List.Forall₂ (server.Completes w v) tables new ∧
        v.calls = w.calls ++ tables.flatMap fun t => regionCalls t.name) result := by
  have hparts := readParts_continues server []
  induction tables generalizing done w with
  | nil =>
    refine leads_pure (.whole (by simpa using hdone) ⟨[], (List.append_nil _).symm, .nil, ?_⟩)
    exact (List.append_nil _).symm
  | cons t rest ih =>
    refine leads_log ((leads_splits server t.name _).next (hparts.splits t.name) (fun _ =>
      hparts.next (hparts.checked _) fun _ => hparts.next (hparts.checked _) fun c =>
        hparts.collect c rest) ?_)
    intro splits u hu ⟨hcalls, keys, hkeys, hsplits⟩
    have hw : w.Continues u := (w.continues_note _).trans hu
    rw [hsplits]
    by_cases hname : t.name = []
    · rw [List.map_cons, hname]
      exact fun _ => .flawed (.unnamed hdone)
    rw [create_of_splits t.families keys hname]
    show server.Leads (Run.ofExcept ((done.add _).mapError .definition) >>= fun c =>
      server.source.collect c rest) u _
    by_cases hmem : t.name ∈ done.names
    · rw [ClusterSchema.add_of_mem hmem]
      exact fun _ => .flawed (.repeated hdone hname hmem)
    rw [ClusterSchema.add_of_notMem hmem]
    refine (ih (hdone.append hname hmem) u).mono fun result v htail => ?_
    rw [ClusterSchema.names_append, List.append_assoc] at htail
    refine htail.mono fun c ⟨new, hc, hnew, hrest⟩ => ?_
    have hv : u.Continues v := World.continues_of_calls hrest
    refine ⟨_ :: new, hc.trans (List.append_assoc _ _ _), .cons ⟨rfl, rfl, keys, ?_, rfl⟩ ?_, ?_⟩
    · exact hkeys.mono (w.continues_note _) hv
    · exact forall₂_completes_mono hnew hw .rfl
    · rw [hrest, hcalls, World.calls_log, List.flatMap_cons, List.append_assoc]

theorem Server.Describes.of_listed {t : ListedTable} {s : TableSchema}
    (hlisted : server.Lists u v name t) (hcompleted : server.Completes u v t s) :
    server.Describes u v name s := by
  refine ⟨hcompleted.name_eq.trans hlisted.name_eq, ?_, ?_⟩
  · rw [hcompleted.families_eq]
    exact hlisted.families
  · rw [← hlisted.name_eq]
    exact hcompleted.splits

theorem forall₂_describes {names : List Text} {tables : List ListedTable} {made : List TableSchema}
    (hlisted : List.Forall₂ (server.Lists u v) names tables)
    (hcompleted : List.Forall₂ (server.Completes u v) tables made) :
    List.Forall₂ (server.Describes u v) names made := by
  induction hlisted generalizing made with
  | nil =>
    cases hcompleted
    exact .nil
  | cons ht _ ih =>
    cases hcompleted with
    | cons hs hrest => exact .cons (.of_listed ht hs) (ih hrest)

/-! ## The reading as a whole -/

/-- What all of the reading but the closing comes to. -/
theorem leads_gather (server : Server) {filter : Option Text}
    (hr : Regex.compile (Source.patternOf filter) = .ok r) (w : World) :
    server.Leads (server.gather filter) w fun result v => ∃ rawNames names,
      server.answer w.calls .tables = .ok rawNames ∧ List.Forall₂ RawName.Spells rawNames names ∧
      PutTogether (names.filter r.matchesWhole) (fun c =>
        List.Forall₂ (server.Describes w v) (names.filter r.matchesWhole) c.tables ∧
        v.calls = w.calls ++ readingCalls (names.filter r.matchesWhole)) result := by
  have hparts := readParts_continues server (Source.patternOf filter)
  refine (leads_tables hr server w).next hparts.tables (fun _ => hparts.collect _ _) ?_
  intro tables u hu ⟨rawNames, names, h⟩
  have hempty : ProperNames ClusterSchema.empty.names := properNames_nil
  refine (leads_collect server tables hempty u).mono fun result v hc => ?_
  have hnames : tables.map ListedTable.name = names.filter r.matchesWhole := by
    rw [← map_eq_map_of_forall₂ (f := id) (h.listed.imp fun _ _ ht => ht.name_eq.symm), List.map_id]
  have hflat : (tables.flatMap fun t => regionCalls t.name) =
      (names.filter r.matchesWhole).flatMap regionCalls := by
    rw [← hnames, List.flatMap_map]
  refine ⟨rawNames, names, h.answer, h.spelled, ?_⟩
  rw [hnames] at hc
  refine PutTogether.mono hc fun c ⟨made, hmade, hcompleted, hcalls⟩ => ⟨?_, ?_⟩
  · rw [hmade]
    exact forall₂_describes (forall₂_lists_mono h.listed .rfl (World.continues_of_calls hcalls))
      (forall₂_completes_mono hcompleted hu .rfl)
  · rw [hcalls, h.calls, hflat, List.append_assoc]
    rfl

theorem leads_read (server : Server) {filter : Option Text}
    (hr : Regex.compile (Source.patternOf filter) = .ok r) (w : World) :
    server.Leads (server.source.read filter) w fun result v => ∃ rawNames names,
      server.answer w.calls .tables = .ok rawNames ∧ List.Forall₂ RawName.Spells rawNames names ∧
      PutTogether (names.filter r.matchesWhole) (fun c =>
        List.Forall₂ (server.Describes w v) (names.filter r.matchesWhole) c.tables ∧
        v.calls = w.calls ++ readingCalls (names.filter r.matchesWhole) ++ [.close]) result := by
  have hgrows := (readParts_continues server (Source.patternOf filter)).gather filter
  refine leads_log (((leads_gather server hr _).closing hgrows).mono fun result v h => ?_)
  obtain ⟨u, rfl, rawNames, names, hanswer, hnames, hmade⟩ := h
  rw [World.calls_log] at hanswer
  refine ⟨rawNames, names, hanswer, hnames, hmade.mono fun c ⟨htables, hcalls⟩ => ⟨?_, ?_⟩⟩
  · exact htables.imp fun _ _ h => h.mono (w.continues_note _) (u.continues_note _)
  · rw [World.calls_note, hcalls, World.calls_log]
    rfl

/-- Where all calls are answered by what can be decoded, and the filter is a pattern, the names that
are wanted are those on the list that the pattern matches in full. If they are names for the tables
of a cluster, reading brings one table for each, in the order of the list, which is what the server
said of it; the families of all these tables are asked for once, then their regions, and those of no
other table. If not, what is wrong with them is what reading ends in. -/
theorem reads_exactly {filter : Option Text} (hfilter : ∀ t ∈ filter, ∃ r, Regex.compile t = .ok r)
    {result : Except Failure ClusterSchema} (hread : server.source.read filter w = (result, v))
    (hserved : server.Serves w v) :
    ∃ r rawNames names, Regex.compile (Source.patternOf filter) = .ok r ∧
      server.answer w.calls .tables = .ok rawNames ∧ List.Forall₂ RawName.Spells rawNames names ∧
      (ProperNames (names.filter r.matchesWhole) → ∃ c, result = .ok c ∧
        List.Forall₂ (server.Describes w v) (names.filter r.matchesWhole) c.tables ∧
        v.calls = w.calls ++ readingCalls (names.filter r.matchesWhole) ++ [.close]) ∧
      (¬ ProperNames (names.filter r.matchesWhole) → ∃ e,
        FirstFlaw (names.filter r.matchesWhole) e ∧ result = .error (.definition e)) := by
  obtain ⟨r, hr⟩ := compile_patternOf hfilter
  have hleads := leads_read server hr w
  rw [Server.Leads, hread] at hleads
  obtain ⟨rawNames, names, hanswer, hnames, hmade⟩ := hleads hserved
  exact ⟨r, rawNames, names, hr, hanswer, hnames, hmade.of_proper, hmade.of_not_proper⟩

/-- The names `n:a`, `m` and `n:b`. -/
def threeNames : List RawName :=
  [.bytes [0x6E, 0x3A, 0x61], .bytes [0x6D], .bytes [0x6E, 0x3A, 0x62]]

/-- A family `f` with its name and one more setting. -/
def oneFamily : Dict RawName Descriptor :=
  .ofList [(.bytes [0x66], .ofList [("name", .bytes [0x66, 0x3A]), ("ttl", .bytes [0x31])])]

/-- A server with three tables, each of which has one family, and two splits between the regions. -/
def threeTableServer : Server where
  refuses _ _ := none
  answer _
    | .tables => .ok threeNames
    | .families _ => .ok oneFamily
    | .regions _ => .ok ([[], [0x6B], [0x6C]] : List Bytes)
    | .table _ | .close => .ok ()

theorem spells_threeNames : List.Forall₂ RawName.Spells threeNames ["n:a", "m", "n:b"] :=
  .cons ⟨_, rfl, Utf8.encode?_eq_some_iff.mp rfl⟩ (.cons ⟨_, rfl, Utf8.encode?_eq_some_iff.mp rfl⟩
    (.cons ⟨_, rfl, Utf8.encode?_eq_some_iff.mp rfl⟩ .nil))

theorem legible_oneFamily : ∀ f ∈ oneFamily.entries, FamilyLegible f := by
  have hname : Utf8.Spells "f" [0x66] := Utf8.encode?_eq_some_iff.mp rfl
  have httl : Utf8.Spells "1" [0x31] := Utf8.encode?_eq_some_iff.mp rfl
  refine List.forall_mem_singleton.mpr ⟨⟨"f", _, rfl, hname⟩, ?_⟩
  refine List.forall_mem_cons.mpr ⟨fun h => absurd rfl h, List.forall_mem_singleton.mpr fun _ => ?_⟩
  exact ⟨_, .bytes httl⟩

theorem serves_threeTable (u v : World) : threeTableServer.Serves u v := by
  intro history c _
  cases c with
  | tables => exact ⟨threeNames, rfl, exists_forall₂.mp ⟨_, spells_threeNames⟩⟩
  | families => exact ⟨oneFamily, rfl, legible_oneFamily⟩
  | table | regions | close => exact ⟨_, rfl, trivial⟩

/-- Only the two tables that the pattern matches in full are asked for and read. -/
theorem reads_exactly_two : ∃ c v,
    threeTableServer.source.read (some "n:.*") untouched = (.ok c, v) ∧
      threeTableServer.Serves untouched v ∧
      List.Forall₂ (threeTableServer.Describes untouched v) ["n:a", "n:b"] c.tables ∧
      v.calls = [.tables, .table "n:a", .families "n:a", .table "n:b", .families "n:b",
        .table "n:a", .regions "n:a", .table "n:b", .regions "n:b", .close] := by
  have hmatches : (Regex.compile "n:.*").toOption.map (fun r =>
      (["n:a", "m", "n:b"] : List Text).filter r.matchesWhole) =
        some (["n:a", "n:b"] : List Text) := by
    decide +kernel
  obtain ⟨r, hr, hwanted⟩ := eq_ok_of_toOption hmatches
  have hfilter : ∀ t ∈ some ("n:.*" : Text), ∃ r, Regex.compile t = .ok r := by
    intro t ht
    rw [← Option.some.inj ht]
    exact ⟨r, hr⟩
  obtain ⟨result, v, hread⟩ : ∃ result v,
      threeTableServer.source.read (some "n:.*") untouched = (result, v) := ⟨_, _, rfl⟩
  obtain ⟨r', rawNames, names, hr', hanswer, hnames, hwhole, -⟩ :=
    reads_exactly hfilter hread (serves_threeTable _ _)
  have hpattern : Source.patternOf (some "n:.*") = "n:.*" := by decide
  rw [hpattern, hr] at hr'
  cases hr'
  cases hanswer
  cases RawName.spells_biUnique.forall₂.2 hnames spells_threeNames
  rw [hwanted] at hwhole
  obtain ⟨c, rfl, htables, hcalls⟩ := hwhole ⟨by decide, by decide⟩
  exact ⟨c, v, hread, serves_threeTable _ _, htables, hcalls⟩

end HBase

end SchemaTransfer
