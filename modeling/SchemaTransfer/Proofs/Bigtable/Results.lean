import SchemaTransfer.Proofs.Bigtable.Rerun

/-!
# Results and the tables they stand for

There is one result for each table of a definition, in the order of the tables, and it has no error
exactly if the table is there now. So nothing failed if and only if every attempt succeeded.
-/
namespace SchemaTransfer.Bigtable

/-- The results that tables had, and the tables that are new at the destination: a table has an error
in its result, or it is new there, as it was asked for. -/
inductive Reported : List TableSchema → List CreateResult → List Request → Prop
  | nil : Reported [] [] []
  | created {t : TableSchema} {r : Request} {tables : List TableSchema} {results : List CreateResult}
    {new : List Request} (hrequest : requestFor t = .ok r) (hrest : Reported tables results new) :
    Reported (t :: tables) (⟨t.name, none⟩ :: results) (r :: new)
  | failed {t : TableSchema} {message : Text} {tables : List TableSchema}
    {results : List CreateResult} {new : List Request} (hrest : Reported tables results new) :
    Reported (t :: tables) (⟨t.name, some message⟩ :: results) new

variable {service : Service} {tables : List TableSchema} {results : List CreateResult}
  {new : List Request}

theorem Reported.names (h : Reported tables results new) :
    results.map CreateResult.table = tables.map TableSchema.name := by
  induction h with
  | nil => rfl
  | created _ _ ih => rw [List.map_cons, List.map_cons, ih]
  | failed _ ih => rw [List.map_cons, List.map_cons, ih]

/-- Where nothing failed every table is there. -/
theorem Reported.all_created (h : Reported tables results new) (hnone : failedTables results = []) :
    List.Forall₂ (fun t r => requestFor t = .ok r) tables new := by
  induction h with
  | nil => exact .nil
  | created hrequest _ ih => exact .cons hrequest (ih hnone)
  | failed => cases hnone

theorem exists_reported (service : Service) (tables : List TableSchema) (w : World) :
    ∃ new, (service.attempts tables w).2.tables = w.tables ++ new ∧
      Reported tables (service.attempts tables w).1 new := by
  induction tables generalizing w with
  | nil => exact ⟨[], (List.append_nil _).symm, .nil⟩
  | cons t rest ih =>
    obtain ⟨new, htables, hreported⟩ := ih (service.next t w)
    rw [attempts_cons]
    cases hresult : (service.createTable t w).1 with
    | error e =>
      refine ⟨new, ?_, .failed hreported⟩
      rw [htables, next_tables, createTable_eq_error hresult]
    | ok =>
      obtain ⟨r, hrequest, hcreated⟩ := createTable_eq_ok hresult
      refine ⟨r :: new, ?_, .created hrequest hreported⟩
      rw [htables, next_tables, hcreated, List.append_assoc]
      rfl

/-- Nothing failed exactly if each table could be created in the world that those before it left. -/
theorem failedTables_eq_nil_iff {w : World} : failedTables (service.attempts tables w).1 = [] ↔
    ∀ before t after, tables = before ++ t :: after →
      (service.createTable t (service.attempts before w).2).1 = .ok () := by
  induction tables generalizing w with
  | nil => exact iff_of_true rfl fun before t after h => by cases before <;> cases h
  | cons t rest ih =>
    rw [attempts_cons]
    cases hresult : (service.createTable t w).1 with
    | error e =>
      refine iff_of_false (fun h => nomatch h) fun h => ?_
      cases hresult.symm.trans (h [] t rest rfl)
    | ok =>
      refine (ih (w := service.next t w)).trans ⟨fun h before t' after heq => ?_, fun h => ?_⟩
      · cases before with
        | nil =>
          cases heq
          exact hresult
        | cons b before =>
          cases heq
          rw [attempts_cons]
          exact h before t' after rfl
      · intro before t' after heq
        have hlater := h (t :: before) t' after (congrArg (List.cons t) heq)
        rw [attempts_cons] at hlater
        exact hlater

theorem write_result (service : Service) (c : ClusterSchema) (w : World) :
    (service.write (some c) w).1 = if failedTables (service.attempts c.tables w).1 = [] then .ok ()
      else .error (.creation (service.attempts c.tables w).1) := by
  rw [Service.write, Run.bind_apply, createTables_eq]
  dsimp only
  cases failedTables (service.attempts c.tables w).1 <;> rfl

/-- Writing succeeds if and only if every attempt of it does. -/
theorem write_eq_ok_iff {c : ClusterSchema} {w : World} :
    (service.write (some c) w).1 = .ok () ↔
      ∀ t u, service.AttemptAt c w t u → (service.createTable t u).1 = .ok () := by
  have hattempts : (∀ t u, service.AttemptAt c w t u → (service.createTable t u).1 = .ok ()) ↔
      failedTables (service.attempts c.tables w).1 = [] := by
    rw [failedTables_eq_nil_iff]
    constructor
    · exact fun h before t after heq => h t _ ⟨before, after, heq, rfl⟩
    · rintro h t _ ⟨before, after, heq, rfl⟩
      exact h before t after heq
  rw [write_result, hattempts]
  by_cases h : failedTables (service.attempts c.tables w).1 = []
  · rw [if_pos h]
    exact iff_of_true rfl h
  · rw [if_neg h]
    exact iff_of_false nofun h

end SchemaTransfer.Bigtable
