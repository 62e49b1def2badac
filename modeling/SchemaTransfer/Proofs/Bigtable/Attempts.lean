import SchemaTransfer.Proofs.Bigtable.Collected
import SchemaTransfer.Proofs.Bigtable.Creation
import SchemaTransfer.Proofs.Except
import SchemaTransfer.Proofs.Run.Success

/-!
# Attempts at tables

An attempt at a table fails before the destination is asked, or is refused by it, or adds the table
behind those that are there. Whichever it is, the attempt leaves its marks in the record, and the
next table is attempted in the world that it left.
-/
namespace SchemaTransfer

namespace Event

def created? : Event → Option Bigtable.Request
  | .created r => some r
  | _ => none

end Event

namespace Bigtable

variable {service : Service} {t : TableSchema} {u v w : World}

theorem requestFor_eq_ok {r : Request} (h : requestFor t = .ok r) :
    r.name = t.name ∧ r.splits = t.splits ∧ familyRules t.families.entries = .ok r.families := by
  obtain ⟨families, hrules, h⟩ := bind_eq_ok.mp h
  cases h
  exact ⟨rfl, rfl, hrules⟩

/-! ## Tables without rules -/

theorem familyRules_eq_error {families : List (Text × Config)} {e : Failure}
    (h : familyRules families = .error e) : e = .infiniteBound := by
  induction families with
  | nil => cases h
  | cons f rest ih =>
    rcases bind_eq_error.mp h with hrule | ⟨rule, -, h⟩
    · exact (Config.retention?_eq_error.mp hrule).2
    rcases bind_eq_error.mp h with hrest | ⟨more, -, h⟩
    · exact ih hrest
    · cases h

/-- Only an infinite bound keeps a table from being asked for. -/
theorem requestFor_eq_error {e : Failure} (h : requestFor t = .error e) : e = .infiniteBound := by
  rcases bind_eq_error.mp h with hrules | ⟨families, -, h⟩
  · exact familyRules_eq_error hrules
  · cases h

/-! ## One attempt -/

/-- The failure that a refusal is reported as. -/
def failureOf (t : TableSchema) : Fault → Failure
  | .alreadyExists _ => .tableExists t.name
  | fault => .outside fault

/-- What an attempt at a table comes to. -/
inductive Attempt (service : Service) (t : TableSchema) (u : World) :
    Except Failure Unit → World → Prop
  | noRules {e : Failure} (hrequest : requestFor t = .error e) : Attempt service t u (.error e) u
  | refused {r : Request} {fault : Fault} (hrequest : requestFor t = .ok r)
    (hrefuses : service.refuses u.requests u.tables r = some fault) :
    Attempt service t u (.error (failureOf t fault)) (u.note (.request r))
  | created {r : Request} (hrequest : requestFor t = .ok r)
    (haccepts : service.refuses u.requests u.tables r = none) :
    Attempt service t u (.ok ())
      ({ u.note (.request r) with tables := u.tables ++ [r] }.note (.created r))

theorem attempt (service : Service) (t : TableSchema) (u : World) :
    Attempt service t u (service.createTable t u).1 (service.createTable t u).2 := by
  rw [Service.createTable, Run.bind_apply]
  cases hrequest : requestFor t with
  | error e => exact .noRules hrequest
  | ok r =>
    dsimp only [Run.ofExcept, Run.pure]
    rw [Run.bind_apply, Run.result, Service.put]
    cases hrefuses : service.refuses u.requests u.tables r with
    | none => exact .created hrequest hrefuses
    | some fault =>
      have hfault := Attempt.refused hrequest hrefuses
      cases fault <;> exact hfault

/-! ## Marks in the record -/

/-- The marks of an attempt at a table, of which the log has the last. -/
inductive Marks (t : TableSchema) : List Event → Prop
  | noRules {e : Failure} (hrequest : requestFor t = .error e) : Marks t [logOf t (.error e)]
  | refused {r : Request} {e : Failure} (hrequest : requestFor t = .ok r) :
    Marks t [.request r, logOf t (.error e)]
  | created {r : Request} (hrequest : requestFor t = .ok r) :
    Marks t [.request r, .created r, logOf t (.ok ())]

theorem Marks.not_isConnection {es : List Event} (h : Marks t es) :
    ∀ e ∈ es, !e.isConnection := by
  cases h <;> simp [logOf, Event.isConnection]

theorem Marks.not_isOnScreen {es : List Event} (h : Marks t es) : ∀ e ∈ es, !e.isOnScreen := by
  cases h <;> simp [logOf, Event.isOnScreen]

/-- The second world is what attempts at the tables, one each and in their order, made of the first.
The tables that are new are those that the record has as created. -/
structure Attempted (tables : List TableSchema) (w v : World) : Prop where
  files : v.files = w.files
  marks : ∃ marks, List.Forall₂ Marks tables marks ∧ v.events = w.events ++ marks.flatten ∧
    v.tables = w.tables ++ marks.flatten.filterMap Event.created?

theorem attempted_one (service : Service) (t : TableSchema) (u : World) :
    Attempted [t] u (service.next t u) := by
  rw [Service.next]
  generalize hv : (service.createTable t u).2 = v
  generalize hr : (service.createTable t u).1 = r
  have h := attempt service t u
  rw [hv, hr] at h
  have hone : ∀ {es : List Event}, Marks t es → List.Forall₂ Marks [t] [es] :=
    fun hes => .cons hes .nil
  cases h with
  | @noRules e hrequest =>
    exact ⟨rfl, _, hone (.noRules hrequest), rfl, (List.append_nil _).symm⟩
  | @refused r fault hrequest hrefuses =>
    refine ⟨rfl, _, hone (.refused (e := failureOf t fault) hrequest), ?_, (List.append_nil _).symm⟩
    simp [World.note]
  | @created r hrequest haccepts =>
    refine ⟨rfl, _, hone (.created hrequest), ?_, rfl⟩
    simp [World.note]

theorem Attempted.append {tables others : List TableSchema} (h : Attempted tables u v)
    (h' : Attempted others v w) : Attempted (tables ++ others) u w := by
  obtain ⟨hfiles, marks, hmarks, hevents, htables⟩ := h
  obtain ⟨hfiles', marks', hmarks', hevents', htables'⟩ := h'
  refine ⟨hfiles'.trans hfiles, marks ++ marks', List.rel_append hmarks hmarks', ?_, ?_⟩
  · rw [hevents', hevents, List.flatten_append, List.append_assoc]
  · rw [htables', htables, List.flatten_append, List.filterMap_append, List.append_assoc]

theorem Attempted.recordsOf {q : Event → Bool} {tables : List TableSchema}
    (hq : ∀ t es, Marks t es → ∀ e ∈ es, q e) (h : Attempted tables u v) : u.Records q v := by
  obtain ⟨-, marks, hmarks, hevents, -⟩ := h
  refine ⟨marks.flatten, hevents, fun e he => ?_⟩
  obtain ⟨es, hes, he⟩ := List.mem_flatten.mp he
  exact forall_of_forall₂ hmarks (fun t _ es h => hq t es h) es hes e he

theorem Attempted.records {tables : List TableSchema} (h : Attempted tables u v) :
    u.Records (fun e => !e.isConnection) v :=
  h.recordsOf fun _ _ => Marks.not_isConnection

theorem Attempted.offScreen {tables : List TableSchema} (h : Attempted tables u v) :
    u.Records (fun e => !e.isOnScreen) v :=
  h.recordsOf fun _ _ => Marks.not_isOnScreen

theorem attempted (service : Service) (tables : List TableSchema) (w : World) :
    Attempted tables w (service.attempts tables w).2 := by
  induction tables generalizing w with
  | nil => exact ⟨rfl, [], .nil, (List.append_nil _).symm, (List.append_nil _).symm⟩
  | cons t rest ih =>
    rw [attempts_cons]
    exact (attempted_one service t w).append (ih _)

end Bigtable

end SchemaTransfer
