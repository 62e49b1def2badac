import Mathlib.Data.List.Nodup
import SchemaTransfer.Proofs.Bigtable.Attempts

/-!
# Runs over definitions again and again

A destination that refuses every name that is taken never loses or changes a table, however often
definitions are brought to it. Of several definitions of one table the first that was created stands.
Once a definition has met no other refusal, all of its tables are there, and bringing it again only
says so.
-/
namespace SchemaTransfer

namespace World

/-- The names of the tables at the destination. -/
def taken (w : World) : List Text := w.tables.map Bigtable.Request.name

/-- The table of a name at the destination. -/
def table? (w : World) (name : Text) : Option Bigtable.Request :=
  w.tables.find? fun r => r.name = name

/-- The tables that the record has as created. -/
def created (w : World) : List Bigtable.Request := w.events.filterMap Event.created?

variable {v w : World} {name : Text}

theorem table?_eq_none_iff : w.table? name = none ↔ name ∉ w.taken := by
  simp [table?, taken]

theorem table?_append {new : List Bigtable.Request} (h : v.tables = w.tables ++ new) :
    v.table? name = (w.table? name).or (new.find? fun r => r.name = name) := by
  rw [table?, h, List.find?_append]
  rfl

end World

namespace Bigtable

variable {service : Service} {t : TableSchema} {u v w : World} {name : Text} {r : Request}

/-- A destination that refuses every name that is taken. What else it refuses, and with what fault,
is left open. -/
def Service.RefusesTaken (service : Service) : Prop :=
  ∀ (earlier tables : List Request) (r : Request), r.name ∈ tables.map Request.name →
    ∃ fault, service.refuses earlier tables r = some fault

/-- A destination that says of a table that it exists already only if it does. -/
def Service.Truthful (service : Service) : Prop :=
  ∀ (earlier tables : List Request) (r : Request) (message : Text),
    service.refuses earlier tables r = some (.alreadyExists message) →
      r.name ∈ tables.map Request.name

/-- The world after a run over each of some definitions, whatever came of it. -/
def Service.afterRuns (service : Service) (ds : List ClusterSchema) (w : World) : World :=
  ds.foldl (fun w d => (service.write (some d) w).2) w

/-- In the run over `d` that starts in `w` there is an attempt at `t`, made in the world `u`. -/
def Service.AttemptAt (service : Service) (d : ClusterSchema) (w : World) (t : TableSchema)
    (u : World) : Prop :=
  ∃ before after, d.tables = before ++ t :: after ∧ (service.attempts before w).2 = u

/-- The run over `d` that starts in `w` creates `t`. -/
def Service.Creates (service : Service) (d : ClusterSchema) (w : World) (t : TableSchema) : Prop :=
  ∃ u, service.AttemptAt d w t u ∧ (service.createTable t u).1 = .ok ()

/-- The run over `d` that starts in `w` fails at no table but one whose name is taken. -/
def Service.OnlyTaken (service : Service) (d : ClusterSchema) (w : World) : Prop :=
  ∀ t u e, service.AttemptAt d w t u → (service.createTable t u).1 = .error e → t.name ∈ u.taken

/-! ## Growth -/

/-- The second world has the tables of the first and behind them new ones, each created once and
under a name that was free. -/
def Grows (w v : World) : Prop :=
  ∃ new, v.tables = w.tables ++ new ∧ v.created = w.created ++ new ∧
    (new.map Request.name).Nodup ∧ ∀ r ∈ new, r.name ∉ w.taken

theorem Grows.refl (w : World) : Grows w w :=
  ⟨[], (List.append_nil _).symm, (List.append_nil _).symm, List.nodup_nil, List.forall_mem_nil _⟩

theorem Grows.trans (h : Grows u v) (h' : Grows v w) : Grows u w := by
  obtain ⟨new, htables, hcreated, hnodup, hfree⟩ := h
  obtain ⟨more, htables', hcreated', hnodup', hfree'⟩ := h'
  have htaken : v.taken = u.taken ++ new.map Request.name := by
    rw [World.taken, htables, List.map_append, World.taken]
  refine ⟨new ++ more, ?_, ?_, ?_, ?_⟩
  · rw [htables', htables, List.append_assoc]
  · rw [hcreated', hcreated, List.append_assoc]
  · rw [List.map_append, List.nodup_append]
    refine ⟨hnodup, hnodup', ?_⟩
    rintro _ hold _ hmore rfl
    obtain ⟨r, hr, hname⟩ := List.mem_map.mp hmore
    exact hfree' r hr (by rw [htaken, hname]; exact List.mem_append_right _ hold)
  · refine List.forall_mem_append.mpr ⟨hfree, fun r hr hu => hfree' r hr ?_⟩
    rw [htaken]
    exact List.mem_append_left _ hu

theorem Grows.taken_subset (h : Grows w v) : w.taken ⊆ v.taken := by
  obtain ⟨new, htables, -⟩ := h
  rw [World.taken, World.taken, htables, List.map_append]
  exact List.subset_append_left _ _

theorem Grows.table? (h : Grows w v) (hr : w.table? name = some r) : v.table? name = some r := by
  obtain ⟨new, htables, -⟩ := h
  rw [World.table?_append htables, hr]
  rfl

/-- An attempt, with what the log says of it, adds at most one table, and that under a free name. -/
theorem grows_one (hs : service.RefusesTaken) (t : TableSchema) (u : World) :
    Grows u (service.next t u) := by
  rw [Service.next]
  generalize hv : (service.createTable t u).2 = v
  generalize hresult : (service.createTable t u).1 = result
  have h := attempt service t u
  rw [hv, hresult] at h
  cases h with
  | noRules hrequest =>
    refine ⟨[], (List.append_nil _).symm, ?_, List.nodup_nil, List.forall_mem_nil _⟩
    simp [World.created, World.note, logOf, Event.created?]
  | refused hrequest hrefuses =>
    refine ⟨[], (List.append_nil _).symm, ?_, List.nodup_nil, List.forall_mem_nil _⟩
    simp [World.created, World.note, logOf, Event.created?]
  | @created r hrequest haccepts =>
    refine ⟨[r], rfl, ?_, List.nodup_singleton _, List.forall_mem_singleton.mpr fun htaken => ?_⟩
    · simp [World.created, World.note, logOf, List.filterMap_cons, Event.created?]
    · obtain ⟨fault, hrefuses⟩ := hs u.requests u.tables r htaken
      rw [haccepts] at hrefuses
      cases hrefuses

theorem grows_attempts (hs : service.RefusesTaken) (tables : List TableSchema) (w : World) :
    Grows w (service.attempts tables w).2 := by
  induction tables generalizing w with
  | nil => exact .refl w
  | cons t rest ih =>
    rw [attempts_cons]
    exact (grows_one hs t w).trans (ih _)

/-! ## Runs -/

theorem write_world (service : Service) (d : ClusterSchema) (w : World) :
    (service.write (some d) w).2 = (service.attempts d.tables w).2 := by
  rw [Service.write, Run.bind_apply, createTables_eq]
  dsimp only
  split <;> rfl

theorem afterRuns_cons (service : Service) (d : ClusterSchema) (ds : List ClusterSchema)
    (w : World) :
    service.afterRuns (d :: ds) w = service.afterRuns ds (service.attempts d.tables w).2 := by
  rw [Service.afterRuns, List.foldl_cons, write_world]
  rfl

theorem afterRuns_append (service : Service) (ds es : List ClusterSchema) (w : World) :
    service.afterRuns (ds ++ es) w = service.afterRuns es (service.afterRuns ds w) :=
  List.foldl_append

/-- Runs are attempts at all of their tables, one after another. -/
theorem afterRuns_eq (service : Service) (ds : List ClusterSchema) (w : World) :
    service.afterRuns ds w = (service.attempts (ds.flatMap ClusterSchema.tables) w).2 := by
  induction ds generalizing w with
  | nil => rfl
  | cons d ds ih => rw [afterRuns_cons, ih, List.flatMap_cons, attempts_append]

theorem grows_afterRuns (hs : service.RefusesTaken) (ds : List ClusterSchema) (w : World) :
    Grows w (service.afterRuns ds w) := by
  rw [afterRuns_eq]
  exact grows_attempts hs _ w

/-! ## The first of a name -/

theorem table?_attempts (tables : List TableSchema) (h : w.table? name = some r) :
    (service.attempts tables w).2.table? name = some r := by
  obtain ⟨-, marks, -, -, htables⟩ := attempted service tables w
  rw [World.table?_append htables, h]
  rfl

theorem mem_taken_attempts (tables : List TableSchema) (h : name ∈ w.taken) :
    name ∈ (service.attempts tables w).2.taken := by
  obtain ⟨-, marks, -, -, htables⟩ := attempted service tables w
  rw [World.taken, htables, List.map_append]
  exact List.mem_append_left _ h

theorem createTable_eq_ok (h : (service.createTable t u).1 = .ok ()) :
    ∃ r, requestFor t = .ok r ∧ (service.createTable t u).2.tables = u.tables ++ [r] := by
  have hattempt := attempt service t u
  rw [h] at hattempt
  generalize (service.createTable t u).2 = v at hattempt ⊢
  cases hattempt with
  | created hrequest haccepts => exact ⟨_, hrequest, rfl⟩

theorem createTable_eq_error {e : Failure} (h : (service.createTable t u).1 = .error e) :
    (service.createTable t u).2.tables = u.tables := by
  have hattempt := attempt service t u
  rw [h] at hattempt
  generalize (service.createTable t u).2 = v at hattempt ⊢
  cases hattempt with
  | noRules hrequest => rfl
  | refused hrequest hrefuses => rfl

/-- A table that is new after some attempts was made by one of them. -/
theorem exists_attempt_of_new {tables : List TableSchema} (hw : w.table? name = none)
    (h : (service.attempts tables w).2.table? name = some r) :
    ∃ before t after, tables = before ++ t :: after ∧
      (service.createTable t (service.attempts before w).2).1 = .ok () ∧ t.name = name ∧
      requestFor t = .ok r := by
  induction tables generalizing w with
  | nil =>
    rw [attempts_nil, hw] at h
    cases h
  | cons t rest ih =>
    rw [attempts_cons] at h
    -- Either this attempt made the table, or it is still missing and a later one did.
    have hlater : (service.next t w).table? name = none →
        ∃ before t' after, t :: rest = before ++ t' :: after ∧
          (service.createTable t' (service.attempts before w).2).1 = .ok () ∧ t'.name = name ∧
          requestFor t' = .ok r := by
      intro hnone
      obtain ⟨before, t', after, heq, hok, hname, hrequest⟩ := ih hnone h
      refine ⟨t :: before, t', after, congrArg (List.cons t) heq, ?_, hname, hrequest⟩
      rw [attempts_cons]
      exact hok
    rcases hresult : (service.createTable t w).1 with e | _
    · refine hlater ?_
      rw [World.table?, next_tables, createTable_eq_error hresult]
      exact hw
    · obtain ⟨r', hrequest, htables⟩ := createTable_eq_ok hresult
      have hnext : (service.next t w).table? name = [r'].find? fun r => r.name = name := by
        rw [World.table?_append ((next_tables service t w).trans htables), hw]
        rfl
      by_cases hname : r'.name = name
      · rw [List.find?_cons_of_pos (by simpa using hname)] at hnext
        rw [table?_attempts rest hnext] at h
        cases h
        exact ⟨[], t, rest, rfl, hresult, (requestFor_eq_ok hrequest).1 ▸ hname, hrequest⟩
      · refine hlater ?_
        rw [hnext, List.find?_cons_of_neg (by simpa using hname), List.find?_nil]

/-- A table that is new after some runs was made by the first of them that created its name. -/
theorem exists_run_of_new {ds : List ClusterSchema} (hw : w.table? name = none)
    (h : (service.afterRuns ds w).table? name = some r) :
    ∃ before d later t, ds = before ++ d :: later ∧
      service.Creates d (service.afterRuns before w) t ∧ t.name = name ∧ requestFor t = .ok r ∧
      (service.afterRuns before w).table? name = none := by
  induction ds generalizing w with
  | nil =>
    rw [Service.afterRuns, List.foldl_nil, hw] at h
    cases h
  | cons d ds ih =>
    rw [afterRuns_cons] at h
    cases hd : (service.attempts d.tables w).2.table? name with
    | none =>
      obtain ⟨before, d', later, t, heq, hcreates, hname, hrequest, hnone⟩ := ih hd h
      refine ⟨d :: before, d', later, t, congrArg (List.cons d) heq, ?_, hname, hrequest, ?_⟩
      · rw [afterRuns_cons]
        exact hcreates
      · rw [afterRuns_cons]
        exact hnone
    | some r' =>
      have hr : r' = r := by
        rw [afterRuns_eq, table?_attempts _ hd] at h
        exact Option.some.inj h
      rw [hr] at hd
      obtain ⟨before, t, after, heq, hok, hname, hrequest⟩ := exists_attempt_of_new hw hd
      exact ⟨[], d, ds, t, rfl, ⟨_, ⟨before, after, heq, rfl⟩, hok⟩, hname, hrequest, hw⟩

theorem mem_taken_of_attemptAt {d : ClusterSchema} (h : service.AttemptAt d w t u)
    (ht : name ∈ (service.createTable t u).2.taken) :
    name ∈ (service.attempts d.tables w).2.taken := by
  obtain ⟨before, after, heq, rfl⟩ := h
  rw [heq, attempts_append, attempts_cons]
  exact mem_taken_attempts _ ht

theorem mem_taken_of_creates {d : ClusterSchema} (h : service.Creates d w t) :
    t.name ∈ (service.attempts d.tables w).2.taken := by
  obtain ⟨u, hattempt, hok⟩ := h
  obtain ⟨r, hrequest, htables⟩ := createTable_eq_ok hok
  refine mem_taken_of_attemptAt hattempt ?_
  rw [World.taken, htables, ← (requestFor_eq_ok hrequest).1, List.map_append]
  exact List.mem_append_right _ List.mem_cons_self

/-! ## A definition whose tables are all there -/

theorem mem_taken_of_onlyTaken {d : ClusterSchema} (h : service.OnlyTaken d w) :
    ∀ t ∈ d.tables, t.name ∈ (service.attempts d.tables w).2.taken := by
  intro t ht
  obtain ⟨before, after, heq⟩ := List.append_of_mem ht
  have hattempt : service.AttemptAt d w t (service.attempts before w).2 := ⟨before, after, heq, rfl⟩
  rcases hresult : (service.createTable t (service.attempts before w).2).1 with e | _
  · refine mem_taken_of_attemptAt hattempt ?_
    rw [World.taken, createTable_eq_error hresult]
    exact h t _ e hattempt hresult
  · exact mem_taken_of_creates ⟨_, hattempt, hresult⟩

theorem createTable_of_taken (hs : service.RefusesTaken) (h : t.name ∈ u.taken) :
    ∃ e, (service.createTable t u).1 = .error e := by
  rcases hresult : (service.createTable t u).1 with e | _
  · exact ⟨e, rfl⟩
  · have hattempt := attempt service t u
    rw [hresult] at hattempt
    generalize (service.createTable t u).2 = v at hattempt
    cases hattempt with
    | @created r hrequest haccepts =>
      rw [← (requestFor_eq_ok hrequest).1] at h
      obtain ⟨fault, hrefuses⟩ := hs u.requests u.tables r h
      rw [haccepts] at hrefuses
      cases hrefuses

/-- Attempts at tables that are there change none and fail, every one. -/
theorem attempts_of_taken (hs : service.RefusesTaken) {tables : List TableSchema}
    (h : ∀ t ∈ tables, t.name ∈ w.taken) :
    (service.attempts tables w).2.tables = w.tables ∧
      (service.attempts tables w).1.map CreateResult.table = tables.map TableSchema.name ∧
      failedTables (service.attempts tables w).1 = tables.map TableSchema.name := by
  induction tables generalizing w with
  | nil => exact ⟨rfl, rfl, rfl⟩
  | cons t rest ih =>
    obtain ⟨ht, hrest⟩ := List.forall_mem_cons.mp h
    obtain ⟨e, hresult⟩ := createTable_of_taken hs ht
    have htables := createTable_eq_error hresult
    have hnext : ∀ t' ∈ rest, t'.name ∈ (service.next t w).taken := by
      rw [World.taken, next_tables, htables]
      exact hrest
    obtain ⟨hafter, hnames, hfailed⟩ := ih hnext
    rw [attempts_cons]
    refine ⟨hafter.trans ((next_tables service t w).trans htables), ?_, ?_⟩
    · rw [List.map_cons, List.map_cons, hnames, hresult]
      rfl
    · rw [List.map_cons, ← hfailed, hresult]
      rfl

/-- A destination that is truthful says of taken names alone that their tables exist. -/
theorem onlyTaken_of_tableExists (ht : service.Truthful) {d : ClusterSchema}
    (h : ∀ t u e, service.AttemptAt d w t u → (service.createTable t u).1 = .error e →
      e = .tableExists t.name) : service.OnlyTaken d w := by
  intro t u e hattempt herror
  obtain rfl := h t u e hattempt herror
  have hcame := attempt service t u
  rw [herror] at hcame
  generalize (service.createTable t u).2 = v at hcame
  generalize hfailure : Failure.tableExists t.name = e at hcame
  cases hcame with
  | noRules hrequest =>
    rw [requestFor_eq_error hrequest] at hfailure
    cases hfailure
  | @refused r fault hrequest hrefuses =>
    rw [← (requestFor_eq_ok hrequest).1]
    cases fault with
    | alreadyExists message => exact ht _ _ r message hrefuses
    | thrift => cases hfailure
    | system => cases hfailure
    | runtime => cases hfailure
    | markup => cases hfailure

/-! ## What runs leave -/

/-- What runs that start in a world leave of it and add to it. -/
structure Service.Lasting (service : Service) (w : World) : Prop where
  /-- A table that is there at some point is there at the end, as it was. -/
  stays : ∀ (ds : List ClusterSchema) (done later : List TableSchema),
    ds.flatMap ClusterSchema.tables = done ++ later → ∀ name r,
      (service.attempts done w).2.table? name = some r →
        (service.afterRuns ds w).table? name = some r
  /-- A table that is new at the end is as the first definition wanted it for which a table of its
  name was created. -/
  first : ∀ (ds : List ClusterSchema) name r, w.table? name = none →
    (service.afterRuns ds w).table? name = some r →
      ∃ before d later t, ds = before ++ d :: later ∧
        service.Creates d (service.afterRuns before w) t ∧ t.name = name ∧ r.splits = t.splits ∧
        familyRules t.families.entries = .ok r.families ∧
        ∀ earlier d' between t', before = earlier ++ d' :: between →
          service.Creates d' (service.afterRuns earlier w) t' → t'.name ≠ name
  /-- The tables that were created come behind those that were there, and no name comes twice. -/
  once : ∀ ds : List ClusterSchema, Grows w (service.afterRuns ds w)

/-- What a run over a definition leaves: all of its tables are there, and whatever runs come after
it, one more over the same definition changes nothing and reports every table as failed. -/
structure Service.Settled (service : Service) (d : ClusterSchema) (w : World) : Prop where
  present : ∀ t ∈ d.tables, t.name ∈ (service.afterRuns [d] w).taken
  again : ∀ (ds : List ClusterSchema) (v : World), service.afterRuns (d :: ds) w = v →
    (service.write (some d) v).2.tables = v.tables ∧
    ∃ results, (service.createTables (some d) v).1 = .ok results ∧
      results.map CreateResult.table = d.names ∧ failedTables results = d.names ∧
      (service.write (some d) v).1 =
        if d.tables = [] then .ok () else .error (.creation results)

theorem lasting (hs : service.RefusesTaken) (w : World) : service.Lasting w where
  stays ds done later hsplit name r hr := by
    rw [afterRuns_eq, hsplit, attempts_append]
    exact table?_attempts later hr
  first ds name r hw hr := by
    obtain ⟨before, d, later, t, heq, hcreates, hname, hrequest, hnone⟩ := exists_run_of_new hw hr
    obtain ⟨-, hsplits, hfamilies⟩ := requestFor_eq_ok hrequest
    refine ⟨before, d, later, t, heq, hcreates, hname, hsplits, hfamilies, ?_⟩
    rintro earlier d' between t' rfl hearlier rfl
    refine World.table?_eq_none_iff.mp hnone ?_
    rw [afterRuns_append, afterRuns_cons]
    exact (grows_afterRuns hs between _).taken_subset (mem_taken_of_creates hearlier)
  once ds := grows_afterRuns hs ds w

theorem settled (hs : service.RefusesTaken) {d : ClusterSchema} (h : service.OnlyTaken d w) :
    service.Settled d w where
  present t ht := by
    rw [afterRuns_cons]
    exact mem_taken_of_onlyTaken h t ht
  again ds v hv := by
    have htaken : ∀ t ∈ d.tables, t.name ∈ v.taken := by
      intro t ht
      rw [← hv, afterRuns_cons]
      exact (grows_afterRuns hs ds _).taken_subset (mem_taken_of_onlyTaken h t ht)
    obtain ⟨htables, hnames, hfailed⟩ := attempts_of_taken hs htaken
    refine ⟨by rw [write_world, htables], _, rfl, hnames, hfailed, ?_⟩
    rw [Service.write, Run.bind_apply, createTables_eq]
    dsimp only
    rw [hfailed]
    cases d.tables <;> rfl

/-- Bringing definitions to a destination again and again loses and changes no table and creates no
name twice, and of several definitions of a new table the first that was created stands. Once a
definition has failed at nothing but taken names, all of its tables are there, and a further run over
it changes nothing and reports all of them, in their order, as failed. -/
theorem rerun_converges (hs : service.RefusesTaken) :
    (∀ w, service.Lasting w) ∧ (∀ d w, service.OnlyTaken d w → service.Settled d w) ∧
      (service.Truthful → ∀ d w, (∀ t u e, service.AttemptAt d w t u →
        (service.createTable t u).1 = .error e → e = .tableExists t.name) → service.OnlyTaken d w) :=
  ⟨lasting hs, fun _ _ h => settled hs h, fun ht _ _ h => onlyTaken_of_tableExists ht h⟩

/-- A destination that refuses what is taken, and the table `x` at any time. -/
def selective : Service where
  refusesClient := none
  refuses _ tables r :=
    if r.name = "x" then some (.runtime "denied")
    else if tables.any fun q => q.name = r.name then some (.alreadyExists r.name)
    else none

theorem refusesTaken_selective : selective.RefusesTaken := by
  intro earlier tables r htaken
  obtain ⟨q, hq, hname⟩ := List.mem_map.mp htaken
  have hany : (tables.any fun q => q.name = r.name) = true :=
    List.any_eq_true.mpr ⟨q, hq, decide_eq_true hname⟩
  by_cases hx : r.name = "x"
  · exact ⟨_, if_pos hx⟩
  · exact ⟨_, (if_neg hx).trans (if_pos hany)⟩

def keptFamilies : Families :=
  ⟨[("f", ⟨[("max_versions", .json (.int 3))], by decide⟩)], by decide⟩

def firstBrought : ClusterSchema := ⟨[⟨"x", ∅, []⟩, ⟨"a", keptFamilies, [[0x6B]]⟩]⟩

def thenBrought : ClusterSchema := ⟨[⟨"a", ∅, []⟩, ⟨"b", ∅, []⟩]⟩

def nothingYet : World := ⟨.empty [], [], []⟩

theorem onlyTaken_thenBrought :
    selective.OnlyTaken thenBrought (selective.afterRuns [firstBrought] nothingYet) := by
  rintro t u e ⟨before, after, heq, rfl⟩ herror
  rcases before with _ | ⟨_, _ | ⟨_, before⟩⟩
  · cases heq
    decide +kernel
  · cases heq
    have hok : (selective.createTable ⟨"b", ∅, []⟩ (selective.attempts [⟨"a", ∅, []⟩]
        (selective.afterRuns [firstBrought] nothingYet)).2).1.toOption = some () := by
      decide +kernel
    rw [herror] at hok
    cases hok
  · cases before <;> cases heq

/-- The first definition of `a` stands, though `x` was refused beside it; the second definition fails
at `a` alone, and when it is brought again it fails at all it has. -/
theorem rerun_converges_selective :
    (selective.afterRuns [firstBrought, thenBrought, thenBrought] nothingYet).table? "a" =
        some ⟨"a", [[0x6B]], [("f", some (.maxVersions 3))]⟩ ∧
      ∃ results, (selective.createTables (some thenBrought)
          (selective.afterRuns [firstBrought, thenBrought] nothingYet)).1 = .ok results ∧
        failedTables results = ["a", "b"] := by
  obtain ⟨hlasting, hsettled, -⟩ := rerun_converges refusesTaken_selective
  constructor
  · exact (hlasting nothingYet).stays _ firstBrought.tables
      (thenBrought.tables ++ thenBrought.tables) rfl "a" _ (by decide +kernel)
  · obtain ⟨-, results, hresults, -, hfailed, -⟩ :=
      (hsettled _ _ onlyTaken_thenBrought).again [] _ rfl
    exact ⟨results, hresults, hfailed⟩

end Bigtable

end SchemaTransfer
