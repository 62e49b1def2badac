import SchemaTransfer.Proofs.Except
import SchemaTransfer.Transfer.Options

/-!
# Options that fit together

Options are accepted exactly if they name one source and one destination. The only refusal that the
program has no words for is that of a filter, where compiling it broke down.
-/
namespace SchemaTransfer.Options

/-- The options name one destination: a file, or both a project and an instance. -/
def NamesDestination (o : Options) : Prop :=
  (o.outputFile.isSome ∧ o.projectId = none ∧ o.instanceId = none) ∨
    (o.outputFile = none ∧ o.projectId.isSome ∧ o.instanceId.isSome)

/-- The options name one source: a file, or both the host and the port of a server, with a filter
that is an expression if there is one. -/
def NamesSource (o : Options) : Prop :=
  (o.inputFile.isSome ∧ o.hbaseHost = none ∧ o.hbasePort = none ∧ o.tableFilter = none) ∨
    (o.inputFile = none ∧ o.hbaseHost.isSome ∧
      (∃ portNumber, o.hbasePort = some portNumber ∧ 0 < portNumber ∧ portNumber < 65536) ∧
      ∀ t, o.tableFilter = some t → ∃ r, Regex.compile t = .ok r)

structure Coherent (o : Options) : Prop where
  destination : o.NamesDestination
  source : o.NamesSource

variable {o : Options} {e : Failure}

theorem exists_destination_iff : (∃ d, o.destination = .ok d) ↔ o.NamesDestination := by
  rw [destination, NamesDestination]
  cases o.outputFile <;> cases o.projectId <;> cases o.instanceId <;> simp

theorem checkFilter_eq_ok {filter : Option Text} :
    checkFilter filter = .ok () ↔ ∀ t, filter = some t → ∃ r, Regex.compile t = .ok r := by
  cases filter with
  | none => simp [checkFilter]
  | some t =>
    rw [checkFilter]
    cases hcompile : Regex.compile t with
    | ok r => simp [hcompile]
    | error fault => cases fault <;> simp [hcompile]

theorem exists_origin_iff : (∃ origin, o.origin = .ok origin) ↔ o.NamesSource := by
  rw [origin, NamesSource]
  cases o.inputFile with
  | some path =>
    by_cases hserver : o.hbaseHost.isSome ∨ o.hbasePort.isSome
    · cases hhost : o.hbaseHost <;> cases hport : o.hbasePort <;> simp_all
    · cases hfilter : o.tableFilter <;> simp_all
  | none =>
    cases o.hbaseHost with
    | none => simp
    | some host =>
      cases o.hbasePort with
      | none => simp
      | some portNumber =>
        by_cases hport : 0 < portNumber ∧ portNumber < 65536
        · have hfilter : (∃ x, checkFilter o.tableFilter = .ok x) ↔
              checkFilter o.tableFilter = .ok () :=
            ⟨fun ⟨(), h⟩ => h, fun h => ⟨(), h⟩⟩
          simp [hport, map_eq_ok, hfilter, checkFilter_eq_ok]
        · simp [hport]

/-- The options are accepted if and only if they fit together. -/
theorem exists_check_iff : (∃ t, o.check = .ok t) ↔ o.Coherent := by
  have hcheck : (∃ t, o.check = .ok t) ↔
      (∃ d, o.destination = .ok d) ∧ ∃ origin, o.origin = .ok origin := by
    simp only [check, bind_eq_ok, mapError_eq_ok]
    constructor
    · rintro ⟨t, d, hd, origin, horigin, -⟩
      exact ⟨⟨d, hd⟩, origin, horigin⟩
    · rintro ⟨⟨d, hd⟩, origin, horigin⟩
      exact ⟨_, d, hd, origin, horigin, rfl⟩
  rw [hcheck, exists_destination_iff, exists_origin_iff]
  exact ⟨fun ⟨hd, hs⟩ => ⟨hd, hs⟩, fun h => ⟨h.destination, h.source⟩⟩

/-- The failure is a complaint of the options, or compiling the filter broke down. -/
def Refusal (e : Failure) : Prop :=
  (∃ complaint, e = .options complaint) ∨ ∃ fault, e = .badPattern fault

theorem refusal_of_checkFilter {filter : Option Text} (h : checkFilter filter = .error e) :
    Refusal e := by
  unfold checkFilter at h
  split at h
  · cases h
  split at h
  · cases h
  · cases h
    exact Or.inl ⟨_, rfl⟩
  · cases h
    exact Or.inr ⟨_, rfl⟩

theorem refusal_of_origin (h : o.origin = .error e) : Refusal e := by
  rw [origin] at h
  repeat' split at h
  all_goals first
    | exact refusal_of_checkFilter (map_eq_error.mp h)
    | cases h; exact Or.inl ⟨_, rfl⟩
    | cases h

theorem refusal_of_check (h : o.check = .error e) : Refusal e := by
  rcases bind_eq_error.mp h with h | ⟨d, -, h⟩
  · obtain ⟨complaint, -, rfl⟩ := mapError_eq_error.mp h
    exact Or.inl ⟨complaint, rfl⟩
  rcases bind_eq_error.mp h with h | ⟨origin, -, h⟩
  · exact refusal_of_origin h
  · cases h

end SchemaTransfer.Options
