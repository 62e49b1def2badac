import SchemaTransfer.Proofs.Bigtable.Creation

/-!
# A report of what happened

Whatever a destination does when it is asked for a table, it is asked for each table once, in their
order. What is reported of a table is what came of asking for it, and writing fails exactly if
asking for some table did.
-/
namespace SchemaTransfer.Bigtable

section

variable {σ : Type} (note : Event → σ → σ) (create : TableSchema → σ → Except Failure Unit × σ)

/-- The calls of an operation, one for each table and whatever came of those before. What comes of a
call goes to the log before the next one is made. -/
inductive Calls : List TableSchema → σ → List (Except Failure Unit) → σ → Prop
  | nil {s : σ} : Calls [] s [] s
  | cons {t : TableSchema} {rest : List TableSchema} {outcome : Except Failure Unit}
    {outcomes : List (Except Failure Unit)} {s u v : σ} (hcall : create t s = (outcome, u))
    (hrest : Calls rest (note (logOf t outcome) u) outcomes v) :
    Calls (t :: rest) s (outcome :: outcomes) v

/-- Writes a definition to a destination that is a state and an operation on it. -/
def writeEach (c : ClusterSchema) (s : σ) : Except Failure Unit × σ :=
  let (results, s) := createEach note create c.tables s
  (if (failedTables results).isEmpty then .ok () else .error (.creation results), s)

/-- What is reported of tables by what came of asking for them. -/
def report (tables : List TableSchema) (outcomes : List (Except Failure Unit)) :
    List CreateResult :=
  List.zipWith resultOf tables outcomes

theorem exists_calls (tables : List TableSchema) (s : σ) :
    ∃ outcomes v, Calls note create tables s outcomes v ∧
      createEach note create tables s = (report tables outcomes, v) := by
  induction tables generalizing s with
  | nil => exact ⟨[], s, .nil, rfl⟩
  | cons t rest ih =>
    obtain ⟨outcomes, v, hcalls, heach⟩ := ih (note (logOf t (create t s).1) (create t s).2)
    refine ⟨_, v, .cons rfl hcalls, ?_⟩
    rw [createEach_cons, heach]
    rfl

end

variable {σ : Type} {note : Event → σ → σ} {create : TableSchema → σ → Except Failure Unit × σ}
  {tables : List TableSchema} {outcomes : List (Except Failure Unit)} {s v : σ}

namespace Calls

theorem report_names (h : Calls note create tables s outcomes v) :
    (report tables outcomes).map CreateResult.table = tables.map TableSchema.name := by
  induction h with
  | nil => rfl
  | @cons t rest outcome outcomes _ _ _ _ _ ih =>
    have htable : (resultOf t outcome).table = t.name := by cases outcome <;> rfl
    rw [report, List.zipWith_cons_cons, List.map_cons, htable, List.map_cons]
    exact congrArg (List.cons t.name) ih

theorem failedTables_report (h : Calls note create tables s outcomes v) :
    failedTables (report tables outcomes) =
      (((tables.map TableSchema.name).zip outcomes).filter fun p => !p.2.isOk).map Prod.fst := by
  induction h with
  | nil => rfl
  | @cons t rest outcome outcomes _ _ _ _ _ ih =>
    cases outcome with
    | ok => exact ih
    | error e => exact congrArg (List.cons t.name) ih

/-- No table is reported as failed exactly if no call failed. -/
theorem failedTables_eq_nil_iff (h : Calls note create tables s outcomes v) :
    failedTables (report tables outcomes) = [] ↔ ∀ outcome ∈ outcomes, outcome = .ok () := by
  induction h with
  | nil => exact iff_of_true rfl (List.forall_mem_nil _)
  | @cons t rest outcome outcomes _ _ _ _ _ ih =>
    rw [List.forall_mem_cons, ← ih]
    cases outcome with
    | ok => exact (and_iff_right rfl).symm
    | error e => exact iff_of_false nofun fun hall => nomatch hall.1

/-- Of a part of the state that the log has nothing to do with, only the calls make what it
becomes. -/
theorem part_eq {δ : Type} {part : σ → δ} {step : TableSchema → δ → δ}
    (hnote : ∀ e s, part (note e s) = part s) (hstep : ∀ t s, part (create t s).2 = step t (part s))
    (h : Calls note create tables s outcomes v) :
    part v = tables.foldl (fun d t => step t d) (part s) := by
  induction h with
  | nil => rfl
  | @cons t rest outcome outcomes s u v hcall _ ih =>
    rw [ih, hnote, List.foldl_cons, ← hstep, hcall]

end Calls

theorem writeEach_eq (note : Event → σ → σ) (create : TableSchema → σ → Except Failure Unit × σ)
    {c : ClusterSchema} {results : List CreateResult}
    (h : createEach note create c.tables s = (results, v)) :
    writeEach note create c s =
      (if failedTables results = [] then .ok () else .error (.creation results), v) := by
  rw [writeEach, h]
  dsimp only
  cases failedTables results <;> rfl

/-- A service is one such destination. -/
theorem write_eq_writeEach (service : Service) (c : ClusterSchema) (w : World) :
    service.write (some c) w = writeEach (fun e w => w.note e) service.createTable c w := by
  have heach : createEach (fun e w => w.note e) service.createTable c.tables w =
      ((service.attempts c.tables w).1, (service.attempts c.tables w).2) := rfl
  rw [Service.write, Run.bind_apply, createTables_eq, writeEach_eq _ _ heach]
  dsimp only
  cases failedTables (service.attempts c.tables w).1 <;> rfl

/-- Whatever the operation does, it is called once for each table, in their order, and what comes of
each call is logged before the next. The results say of each table in its place what came of its
call. Writing fails exactly if some call failed; then the failure has all results, and the tables of
the calls that failed are its failed tables. What becomes of the destination is what the calls, one
after another, make of it. -/
theorem write_reports {σ : Type} (note : Event → σ → σ)
    (create : TableSchema → σ → Except Failure Unit × σ) (c : ClusterSchema) (s : σ) :
    ∃ outcomes v, Calls note create c.tables s outcomes v ∧
      createEach note create c.tables s = (report c.tables outcomes, v) ∧
      (report c.tables outcomes).map CreateResult.table = c.names ∧
      failedTables (report c.tables outcomes) =
        ((c.names.zip outcomes).filter fun p => !p.2.isOk).map Prod.fst ∧
      (writeEach note create c s).2 = v ∧
      ((∀ outcome ∈ outcomes, outcome = .ok ()) → (writeEach note create c s).1 = .ok ()) ∧
      ((∃ outcome ∈ outcomes, outcome ≠ .ok ()) →
        (writeEach note create c s).1 = .error (.creation (report c.tables outcomes))) ∧
      (∀ {δ : Type} (part : σ → δ) (step : TableSchema → δ → δ),
        (∀ e s, part (note e s) = part s) → (∀ t s, part (create t s).2 = step t (part s)) →
        part v = c.tables.foldl (fun d t => step t d) (part s)) ∧
      ∀ (service : Service) (w : World),
        service.write (some c) w = writeEach (fun e w => w.note e) service.createTable c w := by
  obtain ⟨outcomes, v, hcalls, heach⟩ := exists_calls note create c.tables s
  have hwrite := writeEach_eq note create heach
  refine ⟨outcomes, v, hcalls, heach, hcalls.report_names, hcalls.failedTables_report,
    congrArg Prod.snd hwrite, fun hall => ?_, fun ⟨outcome, hmem, hfailed⟩ => ?_,
    fun part step hnote hstep => hcalls.part_eq hnote hstep, fun service w =>
      write_eq_writeEach service c w⟩
  · rw [hwrite, if_pos (hcalls.failedTables_eq_nil_iff.mpr hall)]
  · rw [hwrite, if_neg fun hnone =>
      hfailed (hcalls.failedTables_eq_nil_iff.mp hnone outcome hmem)]

end SchemaTransfer.Bigtable
