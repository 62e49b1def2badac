import SchemaTransfer.Proofs.Bigtable.Attempts
import SchemaTransfer.Proofs.Schema.Likeness

/-!
# Equal definitions create the same tables

What is read from a setting depends only on what it counts as equal to, so families with equal
settings have the same rule. The rules of a table follow the order of its families. Where a rule
cannot be made it is always for the same reason, so the order makes no difference to that.
-/
namespace SchemaTransfer

/-! ## Bounds and rules -/

theorem ConfigValue.bound?_of_wholeValue? {v : Json} {i : Int} (h : v.wholeValue? = some i) :
    (json v).bound? = .ok (some i) := by
  cases v with
  | null | string | array | object => cases h
  | bool b => exact congrArg Except.ok h
  | int j => exact congrArg Except.ok h
  | double d =>
    have htruncate := Double.truncate?_of_whole? h
    cases d with
    | nan => cases h
    | inf negative => cases h
    | finite negative rank => exact congrArg Except.ok htruncate

/-- Settings that are alike stand for the same bound. -/
theorem ConfigValue.bound?_of_alike {cv cw : ConfigValue} (h : cv.alike cw = true) :
    cv.bound? = cw.bound? := by
  unfold alike at h
  split at h
  · rcases Json.alike_cases h with rfl | ⟨i, hv, hw⟩ | ⟨_, _, rfl, rfl⟩ | ⟨_, _, rfl, rfl⟩
    · rfl
    · rw [bound?_of_wholeValue? hv, bound?_of_wholeValue? hw]
    · rfl
    · rfl
  · rw [of_decide_eq_true h]
  · rw [Bool.and_eq_true, decide_eq_true_eq, decide_eq_true_eq] at h
    exact congrArg Except.ok h.2
  · cases h

namespace Config

variable {c d : Config}

theorem positive?_of_alike (h : Dict.alike ConfigValue.alike c d = true) (key : Text) :
    c.positive? key = d.positive? key := by
  have hrel := Dict.get?_rel_of_alike h key
  rw [positive?, positive?]
  generalize c.get? key = found at hrel
  generalize d.get? key = found' at hrel
  cases hrel with
  | none => rfl
  | some hvw =>
    dsimp only
    rw [ConfigValue.bound?_of_alike hvw]

theorem retention?_of_alike (h : Dict.alike ConfigValue.alike c d = true) :
    c.retention? = d.retention? := by
  rw [retention?, retention?, positive?_of_alike h, positive?_of_alike h]

end Config

namespace Bigtable

/-! ## The rules of a table -/

/-- The same rules in some order, or the same failure. -/
inductive SameRules : Except Failure (List (Text × Option Retention)) →
    Except Failure (List (Text × Option Retention)) → Prop
  | failed (e : Failure) : SameRules (.error e) (.error e)
  | ruled {rules rules' : List (Text × Option Retention)} (h : rules.Perm rules') :
    SameRules (.ok rules) (.ok rules')

variable {families families' : List (Text × Config)}

theorem SameRules.trans {x y z : Except Failure (List (Text × Option Retention))}
    (hxy : SameRules x y) (hyz : SameRules y z) : SameRules x z := by
  cases hxy with
  | failed e => exact hyz
  | ruled h =>
    cases hyz with
    | ruled h' => exact .ruled (h.trans h')

theorem familyRules_cons_of_error {f : Text × Config} {e : Failure}
    (h : f.2.retention? = .error e) : familyRules (f :: families) = .error e := by
  rw [familyRules, h]
  rfl

theorem familyRules_cons_of_ok {f : Text × Config} {rule : Option Retention}
    (h : f.2.retention? = .ok rule) :
    familyRules (f :: families) = (familyRules families).map ((f.1, rule) :: ·) := by
  rw [familyRules, h]
  cases familyRules families <;> rfl

/-- The order of the families is that of the rules, and only a failure that is the same for all of
them keeps the rules from being made. -/
theorem familyRules_perm (h : families.Perm families') :
    SameRules (familyRules families) (familyRules families') := by
  induction h with
  | nil => exact .ruled .nil
  | @cons f rest rest' _ ih =>
    cases hf : f.2.retention? with
    | error e =>
      rw [familyRules_cons_of_error hf, familyRules_cons_of_error hf]
      exact .failed e
    | ok rule =>
      rw [familyRules_cons_of_ok hf, familyRules_cons_of_ok hf]
      generalize familyRules rest = x at ih
      generalize familyRules rest' = y at ih
      cases ih with
      | failed e => exact .failed e
      | ruled h => exact .ruled (h.cons _)
  | swap f g rest =>
    cases hf : f.2.retention? with
    | error e =>
      cases hg : g.2.retention? with
      | error e' =>
        rw [familyRules_cons_of_error hf, familyRules_cons_of_error hg,
          (Config.retention?_eq_error.mp hf).2, (Config.retention?_eq_error.mp hg).2]
        exact .failed _
      | ok rule' =>
        rw [familyRules_cons_of_error hf, familyRules_cons_of_ok hg, familyRules_cons_of_error hf]
        exact .failed e
    | ok rule =>
      cases hg : g.2.retention? with
      | error e' =>
        rw [familyRules_cons_of_ok hf, familyRules_cons_of_error hg, familyRules_cons_of_error hg]
        exact .failed e'
      | ok rule' =>
        rw [familyRules_cons_of_ok hf, familyRules_cons_of_ok hg, familyRules_cons_of_ok hg,
          familyRules_cons_of_ok hf]
        cases familyRules rest with
        | error e => exact .failed e
        | ok rules => exact .ruled (.swap _ _ rules)
  | trans _ _ ih ih' => exact ih.trans ih'

theorem familyRules_of_like
    (h : List.Forall₂ (Dict.LikeEntries (Dict.alike ConfigValue.alike)) families families') :
    familyRules families = familyRules families' := by
  induction h with
  | nil => rfl
  | cons hfg _ ih => rw [familyRules, familyRules, hfg.1, Config.retention?_of_alike hfg.2, ih]

/-- The rules are made in the order of the families, one for each. -/
theorem forall₂_of_familyRules {rules : List (Text × Option Retention)}
    (h : familyRules families = .ok rules) :
    List.Forall₂ (fun f rule => f.1 = rule.1 ∧ f.2.retention? = .ok rule.2) families rules := by
  induction families generalizing rules with
  | nil =>
    cases h
    exact .nil
  | cons f rest ih =>
    obtain ⟨rule, hrule, h⟩ := bind_eq_ok.mp h
    obtain ⟨more, hmore, h⟩ := bind_eq_ok.mp h
    cases h
    exact .cons ⟨rfl, hrule⟩ (ih hmore)

theorem exists_of_familyRules {e : Failure} (h : familyRules families = .error e) :
    ∃ f ∈ families, f.2.retention? = .error e := by
  induction families with
  | nil => cases h
  | cons f rest ih =>
    rcases bind_eq_error.mp h with hrule | ⟨rule, -, h⟩
    · exact ⟨f, List.mem_cons_self, hrule⟩
    rcases bind_eq_error.mp h with hrest | ⟨more, -, h⟩
    · obtain ⟨g, hmem, hg⟩ := ih hrest
      exact ⟨g, List.mem_cons_of_mem _ hmem, hg⟩
    · cases h

/-! ## Tables -/

variable {t u : TableSchema}

/-- The request is for the table, and each of its families has its rule. -/
structure Request.For (r : Request) (t : TableSchema) : Prop where
  name : r.name = t.name
  splits : r.splits = t.splits
  families : List.Forall₂ (fun f rule => f.1 = rule.1 ∧ f.2.retention? = .ok rule.2)
    t.families.entries r.families

/-- Two requests for the same table: the families, none of which comes twice, may stand in another
order. -/
structure Request.Same (r s : Request) : Prop where
  name : r.name = s.name
  splits : r.splits = s.splits
  distinct : (Entries.keys r.families).Nodup
  families : r.families.Perm s.families

/-- To create the two tables comes to the same, whatever the destination allows and whatever was
done before: either the rule of a family cannot be made, and both fail with the error of that before
they ask for anything, or both ask for the same table. -/
inductive CreatedAlike (t u : TableSchema) : Prop
  | failed {e : Failure} (hfamily : ∃ f ∈ t.families.entries, f.2.retention? = .error e)
    (ht : ∀ (service : Service) (w : World), service.createTable t w = (.error e, w))
    (hu : ∀ (service : Service) (w : World), service.createTable u w = (.error e, w))
  | asked {r s : Request} (hfor : r.For t) (hsame : r.Same s)
    (ht : ∀ (service : Service) (w : World),
      (service.createTable t w).2.requests = w.requests ++ [r])
    (hu : ∀ (service : Service) (w : World),
      (service.createTable u w).2.requests = w.requests ++ [s])

theorem createTable_of_error {e : Failure} (h : familyRules t.families.entries = .error e)
    (service : Service) (w : World) : service.createTable t w = (.error e, w) := by
  rw [Service.createTable, requestFor, h]
  rfl

/-- Whatever comes of it, the table is asked for once. -/
theorem requests_createTable {rules : List (Text × Option Retention)}
    (h : familyRules t.families.entries = .ok rules) (service : Service) (w : World) :
    (service.createTable t w).2.requests = w.requests ++ [⟨t.name, t.splits, rules⟩] := by
  have hrequest : requestFor t = .ok ⟨t.name, t.splits, rules⟩ := by
    rw [requestFor, h]
    rfl
  have hattempt := attempt service t w
  generalize (service.createTable t w).1 = result at hattempt
  generalize (service.createTable t w).2 = v at hattempt
  cases hattempt with
  | noRules hfailed => cases hrequest.symm.trans hfailed
  | refused hasked =>
    cases hrequest.symm.trans hasked
    exact World.requests_note w _
  | created hasked =>
    cases hrequest.symm.trans hasked
    rw [World.requests_note]
    exact (List.append_nil _).trans (World.requests_note w _)

theorem createdAlike (h : t.alike u = true) : CreatedAlike t u := by
  simp only [TableSchema.alike, Bool.and_eq_true, decide_eq_true_eq] at h
  obtain ⟨⟨hname, hfamilies⟩, hsplits⟩ := h
  obtain ⟨families, hperm, hlike⟩ := Dict.alike_iff.mp hfamilies
  have hsame := familyRules_perm hperm
  rw [← familyRules_of_like hlike] at hsame
  generalize hu : familyRules u.families.entries = rules' at hsame
  cases ht : familyRules t.families.entries with
  | error e =>
    rw [ht] at hsame
    cases hsame
    exact .failed (exists_of_familyRules ht) (createTable_of_error ht) (createTable_of_error hu)
  | ok rules =>
    rw [ht] at hsame
    cases hsame with
    | ruled hrules =>
      have hfor := forall₂_of_familyRules ht
      have hkeys : t.families.keys = Entries.keys rules :=
        map_eq_map_of_forall₂ (hfor.imp fun _ _ hf => hf.1)
      have hdistinct : (Entries.keys rules).Nodup := by
        rw [← hkeys]
        exact t.families.nodup
      exact .asked ⟨rfl, rfl, hfor⟩ ⟨hname, hsplits, hdistinct, hrules⟩ (requests_createTable ht)
        (requests_createTable hu)

/-- Definitions that count as equal have equally many tables, and to create them table by table
comes to the same: the same name, splits and rules of the families are asked for, or the same error
keeps both tables from being asked for. -/
theorem created_alike {a b : ClusterSchema} (h : a.alike b = true) :
    List.Forall₂ CreatedAlike a.tables b.tables :=
  (ClusterSchema.alike_iff.mp h).imp fun _ _ htu => createdAlike htu

/-- A table with an infinite bound. -/
def unlimited : TableSchema :=
  ⟨"u", ⟨[("f", ⟨[("max_versions", .json (.double (.inf false)))], by decide⟩)], by decide⟩, []⟩

/-- A table with bounds that are whole numbers, and one that has no rules. -/
def numbersAsWhole : ClusterSchema :=
  ⟨[⟨"t", ⟨[("f", ⟨[("max_versions", .json (.int 1)), ("time_to_live", .json (.int 60)),
        ("x", .json (.array [.bool true, .int 0]))], by decide⟩), ("g", ∅)], by decide⟩, [[107]]⟩,
    unlimited]⟩

/-- The same with numbers of other kinds, in another order. -/
def numbersAsOthers : ClusterSchema :=
  ⟨[⟨"t", ⟨[("g", ∅),
        ("f", ⟨[("x", .json (.array [.double (.ofDecimal false 1 0),
            .double (.ofDecimal true 0 0)])),
          ("time_to_live", .json (.double (.ofDecimal false 60 0))),
          ("max_versions", .json (.bool true))], by decide⟩)], by decide⟩, [[107]]⟩,
    unlimited]⟩

theorem created_alike_numbers : numbersAsWhole.alike numbersAsOthers = true ∧
    List.Forall₂ CreatedAlike numbersAsWhole.tables numbersAsOthers.tables := by
  have halike : numbersAsWhole.alike numbersAsOthers = true := by decide +kernel
  exact ⟨halike, created_alike halike⟩

end Bigtable

end SchemaTransfer
