import SchemaTransfer.Bigtable.Creation
import SchemaTransfer.Proofs.Except
import SchemaTransfer.Proofs.Run.Effects

/-!
# What the creation of tables depends on

Tables with the same name and the same request are created alike. Two definitions of such tables
have the same results, table by table, and leave the destination in the same state.
-/
namespace SchemaTransfer.Bigtable

/-- Two tables that the destination cannot tell apart. -/
structure SameRequest (t u : TableSchema) : Prop where
  name : u.name = t.name
  splits : u.splits = t.splits
  request : requestFor u = requestFor t

theorem agree_put (service : Service) (r : Request) : (service.put r).Agree (service.put r) := by
  intro w v h
  rw [Service.put, Service.put, h.tables, h.requests]
  cases service.refuses w.requests w.tables r with
  | some fault => exact ⟨rfl, h.note rfl⟩
  | none =>
    have hasked := h.note (d := .request r) (e := .request r) rfl
    have hcreated : World.SameDestination
        { w.note (.request r) with tables := (w.note (.request r)).tables ++ [r] }
        { v.note (.request r) with tables := (v.note (.request r)).tables ++ [r] } :=
      ⟨congrArg (· ++ [r]) hasked.tables, hasked.requests⟩
    exact ⟨rfl, hcreated.note rfl⟩

theorem agree_createTable (service : Service) {t u : TableSchema} (h : SameRequest t u) :
    (service.createTable t).Agree (service.createTable u) := by
  rw [Service.createTable, Service.createTable, h.request, h.name]
  refine Run.agree_bind (Run.agree_ofExcept _) fun r => ?_
  refine Run.agree_bind (Run.agree_result (agree_put service r)) fun result => ?_
  cases result with
  | ok => exact Run.agree_pure ()
  | error fault => cases fault <;> exact Run.agree_fail _

/-! ## One after another -/

/-- What is reported of an attempt at a table. -/
def resultOf (t : TableSchema) : Except Failure Unit → CreateResult
  | .ok () => ⟨t.name, none⟩
  | .error e => ⟨t.name, some e.message⟩

/-- What the log says of an attempt at a table. -/
def logOf (t : TableSchema) : Except Failure Unit → Event
  | .ok () => .log .info ("Created table " ++ t.name ++ " in Bigtable.")
  | .error e => .log .error ("Failed to create table " ++ t.name ++ ": " ++ e.message)

section

variable {σ : Type} (note : Event → σ → σ) (create : TableSchema → σ → Except Failure Unit × σ)

theorem createEach_cons (t : TableSchema) (rest : List TableSchema) (s : σ) :
    createEach note create (t :: rest) s =
      (resultOf t (create t s).1 ::
          (createEach note create rest (note (logOf t (create t s).1) (create t s).2)).1,
        (createEach note create rest (note (logOf t (create t s).1) (create t s).2)).2) := by
  rw [createEach]
  rcases create t s with ⟨_ | _, s'⟩ <;> rfl

theorem createEach_append (tables others : List TableSchema) (s : σ) :
    createEach note create (tables ++ others) s =
      ((createEach note create tables s).1 ++
          (createEach note create others (createEach note create tables s).2).1,
        (createEach note create others (createEach note create tables s).2).2) := by
  induction tables generalizing s with
  | nil => rfl
  | cons t rest ih => rw [List.cons_append, createEach_cons, createEach_cons, ih]; rfl

end

/-- The results of attempts at tables one after another, and the world after them. -/
def Service.attempts (service : Service) (tables : List TableSchema) (w : World) :
    List CreateResult × World :=
  createEach (fun e w => w.note e) service.createTable tables w

theorem createTables_eq (service : Service) (c : ClusterSchema) (w : World) :
    service.createTables (some c) w =
      (.ok (service.attempts c.tables w).1, (service.attempts c.tables w).2) := rfl

theorem attempts_nil (service : Service) (w : World) : service.attempts [] w = ([], w) := rfl

/-- The world after an attempt at a table and its entry in the log. -/
def Service.next (service : Service) (t : TableSchema) (w : World) : World :=
  (service.createTable t w).2.note (logOf t (service.createTable t w).1)

theorem next_tables (service : Service) (t : TableSchema) (w : World) :
    (service.next t w).tables = (service.createTable t w).2.tables := rfl

theorem attempts_cons (service : Service) (t : TableSchema) (rest : List TableSchema) (w : World) :
    service.attempts (t :: rest) w =
      (resultOf t (service.createTable t w).1 :: (service.attempts rest (service.next t w)).1,
        (service.attempts rest (service.next t w)).2) :=
  createEach_cons _ _ t rest w

theorem attempts_append (service : Service) (tables others : List TableSchema) (w : World) :
    service.attempts (tables ++ others) w =
      ((service.attempts tables w).1 ++ (service.attempts others (service.attempts tables w).2).1,
        (service.attempts others (service.attempts tables w).2).2) :=
  createEach_append _ _ tables others w

/-- The tables are attempted one by one, each in the state that those before it left. -/
theorem attempts_agree (service : Service) {tables others : List TableSchema}
    (h : List.Forall₂ SameRequest tables others) {w v : World} (hwv : w.SameDestination v) :
    (service.attempts others v).1 = (service.attempts tables w).1 ∧
      (service.attempts tables w).2.SameDestination (service.attempts others v).2 := by
  induction h generalizing w v with
  | nil => exact ⟨rfl, hwv⟩
  | @cons t u tables others htu _ ih =>
    obtain ⟨hr, hworld⟩ := agree_createTable service htu w v hwv
    have hresult : ∀ r, resultOf u r = resultOf t r := fun r => by
      cases r <;> rw [resultOf, resultOf, htu.name]
    have hlog : ∀ r, (logOf t r).request? = (logOf u r).request? := fun r => by cases r <;> rfl
    have hnext : (service.next t w).SameDestination (service.next u v) := by
      rw [Service.next, Service.next, hr]
      exact hworld.note (hlog (service.createTable t w).1)
    obtain ⟨hrest, hend⟩ := ih hnext
    rw [attempts_cons, attempts_cons, hr, hresult]
    exact ⟨congrArg (List.cons _) hrest, hend⟩

theorem agree_createTables (service : Service) {c d : ClusterSchema}
    (h : List.Forall₂ SameRequest c.tables d.tables) :
    (service.createTables (some c)).Agree (service.createTables (some d)) := by
  intro w v hwv
  obtain ⟨hresults, hworld⟩ := attempts_agree service h hwv
  rw [createTables_eq, createTables_eq]
  exact ⟨congrArg Except.ok hresults, hworld⟩

theorem agree_write (service : Service) {c d : ClusterSchema}
    (h : List.Forall₂ SameRequest c.tables d.tables) :
    (service.write (some c)).Agree (service.write (some d)) := by
  rw [Service.write, Service.write]
  refine Run.agree_bind (agree_createTables service h) fun results => ?_
  split
  · exact Run.agree_pure ()
  · exact Run.agree_fail _

end SchemaTransfer.Bigtable
