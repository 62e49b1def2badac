import SchemaTransfer.Proofs.Bigtable.Attempts
import SchemaTransfer.Proofs.HBase.Faults
import SchemaTransfer.Proofs.Schema.Unwritable
import SchemaTransfer.Proofs.Transfer.Legible
import SchemaTransfer.Proofs.Transfer.Stages

/-!
# What the stages of a transfer leave to the command

The stages of a transfer show nothing, which is for the command to do. Credentials are a matter of
the set-up alone: later stages fail for other reasons.
-/
namespace SchemaTransfer

/-- Whatever the run fails with, it does not for want of credentials. -/
abbrev Run.NeedsNoCredentials {α : Type} (x : Run Failure α) : Prop :=
  x.FailsWith fun e => e.isCredentials = false

variable {s : Surroundings}

/-! ## Reading -/

theorem Run.needsNoCredentials_readText (p : Path) (describe : FileFault → AccessError) :
    (readText p describe).NeedsNoCredentials := by
  intro w e h
  rw [readText] at h
  split at h
  · next hname =>
    cases h
    rcases noName?_eq_some hname with ⟨u, rfl⟩ | rfl <;> rfl
  split at h
  · cases h
    rfl
  split at h
  · cases h
    rfl
  · cases h

theorem isCredentials_of_parseWith {α : Type} {complaint : Json.Cause → Place → DecodeError}
    {decode : Json → Except Failure α}
    (hdecode : ∀ v e, decode v = .error e → e.isCredentials = false) {t : Text} {e : Failure}
    (h : parseWith complaint decode t = .error e) : e.isCredentials = false := by
  unfold parseWith at h
  split at h
  · cases h
    rfl
  · cases h
    rfl
  · exact hdecode _ e h

theorem ClusterSchema.isCredentials_of_ofJson (v : Json) (e : Failure) (h : ofJson v = .error e) :
    e.isCredentials = false := by
  rcases (ofJson_eq_error.mp h).isDecode_or_long with ⟨d, rfl⟩ | ⟨rfl, -⟩ <;> rfl

theorem Renaming.isCredentials_of_ofJson (p : Path) (v : Json) (e : Failure)
    (h : ofJson p v = .error e) : e.isCredentials = false := by
  obtain ⟨d, rfl⟩ := eq_decode_of_ofJson h
  rfl

theorem needsNoCredentials_readSchemaFile (p : Path) : (readSchemaFile p).NeedsNoCredentials :=
  Run.failsWith_bind (Run.failsWith_note _) fun _ =>
    Run.failsWith_bind (Run.needsNoCredentials_readText _ _) fun _ =>
      Run.failsWith_ofExcept fun _ =>
        isCredentials_of_parseWith ClusterSchema.isCredentials_of_ofJson

theorem Renaming.needsNoCredentials_load (p : Path) : (load p).NeedsNoCredentials :=
  Run.failsWith_bind (Run.needsNoCredentials_readText _ _) fun _ =>
    Run.failsWith_ofExcept fun _ h =>
      isCredentials_of_parseWith (isCredentials_of_ofJson p) (ofText_eq p ▸ h)

/-- Nothing is shown of what is read from a server. -/
theorem HBase.offScreen_read (server : Server) (filter : Option Text) :
    (server.source.read filter).OffScreen := by
  have hcall : ∀ (w : World) (c : Call), w.Records (fun e => !e.isOnScreen) (w.note (.call c)) :=
    fun w _ => w.records_note rfl
  have hparts : server.ReadParts (Source.patternOf filter) fun _ x => x.OffScreen :=
    { Run.composes_within with
      log := fun _ _ _ w => w.records_note rfl
      ask := fun describe c _ w => by
        rw [Server.askFor, Server.ask]
        cases server.answer w.calls c <;> exact hcall w c
      compiled := Run.within_ofExcept _
      decoded := fun _ => Run.within_ofExcept _
      checked := fun _ => Run.within_ofExcept _ }
  intro w
  rw [read_eq, Run.ensuring_world, close_world]
  exact ((w.records_note rfl).trans (hparts.gather filter _)).trans (hcall _ .close)

namespace Pipeline

theorem offScreen_prepare (s : Surroundings) (t : Transfer) : (prepare s t).OffScreen := by
  have hinput : (openInput s t.origin).OffScreen := by
    cases t.origin with
    | file path => exact Run.within_pure _
    | server host portNumber filter =>
      refine Run.within_bind (fun w => ?_) fun _ => Run.within_pure _
      rw [HBase.Server.connect]
      cases s.hbase.refuses host portNumber <;> exact w.records_note rfl
  exact Run.within_bind (unseen_loadNames t.mapping).offScreen fun _ => Run.within_bind
    (unseen_openOutput s t.destination).offScreen fun _ => Run.within_bind hinput
      fun _ => Run.within_pure _

theorem offScreen_plan (s : Surroundings) (p : Pipeline) : (plan s p).OffScreen := by
  refine Run.within_bind ?_ fun c => (unseen_renamePlan s p.newNames c).offScreen
  cases p.input with
  | file path => exact (unseen_readSchemaFile path).offScreen
  | server filter => exact HBase.offScreen_read s.hbase filter

theorem needsNoCredentials_rename (names : Option Renaming) (c : ClusterSchema) :
    (rename names c).NeedsNoCredentials := by
  have hchecked : ∀ {α : Type} (r : Except DefinitionError α),
      (Run.ofExcept (r.mapError .definition)).NeedsNoCredentials := by
    intro α r
    refine Run.failsWith_ofExcept fun e h => ?_
    obtain ⟨_, -, rfl⟩ := mapError_eq_error.mp h
    rfl
  cases names with
  | none => exact Run.failsWith_pure c
  | some r =>
    have happly : ∀ done tables, (r.applyFrom done tables).NeedsNoCredentials := by
      intro done tables
      induction tables generalizing done with
      | nil => exact Run.failsWith_pure done
      | cons t rest ih =>
        refine Run.failsWith_bind ?_ fun _ => Run.failsWith_bind (hchecked _) fun done => ih done
        rw [Renaming.renameTable]
        cases r.get? t.name with
        | none => exact Run.failsWith_pure t
        | some name => exact Run.failsWith_bind (Run.failsWith_note _) fun _ => hchecked _
    exact happly .empty c.tables

theorem needsNoCredentials_plan (s : Surroundings) (p : Pipeline) :
    (plan s p).NeedsNoCredentials := by
  refine Run.failsWith_bind ?_ fun c => Run.failsWith_bind (Run.failsWith_note _) fun _ =>
    needsNoCredentials_rename p.newNames c
  cases p.input with
  | file path => exact needsNoCredentials_readSchemaFile path
  | server filter =>
    refine (HBase.failsWith_read s.hbase filter).mono fun e h => ?_
    rcases h with h | ⟨fault, rfl⟩
    · exact h.isCredentials
    · rfl

/-! ## Writing -/

/-- What writing a schema file may fail with. -/
inductive WriteFailure : Failure → Prop
  | access (e : AccessError) : WriteFailure (.access e)
  | nulInPath : WriteFailure .nulInPath
  | unencodable (u : Unencodable) : WriteFailure (.unencodable u)
  | noJson (type : Text) : WriteFailure (.noJson type)
  | badKey (type : Text) : WriteFailure (.badKey type)
  | longInteger : WriteFailure .longInteger

theorem writeFailure_of_flaw {c : ClusterSchema} {e : Failure} (h : c.Flaw e) : WriteFailure e := by
  obtain ⟨t, -, f, -, ⟨key, cv⟩, -, hflaw⟩ := h
  cases hflaw with
  | long => exact .longInteger
  | bytes => exact .noJson _
  | foreign hform =>
    induction hform with
    | long => exact .longInteger
    | other type => exact .noJson type
    | item _ _ ih => exact ih
    | member _ _ ih => exact ih
    | @key _ m _ _ hkey =>
      obtain ⟨name, value⟩ := m
      cases hkey with
      | long => exact .longInteger
      | other type => exact .badKey type

theorem failsWith_writeSchemaFile (p : Path) (c : ClusterSchema) :
    Run.FailsWith WriteFailure (writeSchemaFile p (some c)) := by
  intro w e h
  obtain ⟨v, hwrite⟩ : ∃ v, writeSchemaFile p (some c) w = (.error e, v) := ⟨_, Prod.ext h rfl⟩
  cases writeOutcome_of_eq hwrite with
  | shut _ he =>
    cases he with
    | unencodable u => exact .unencodable u
    | nulInPath => exact .nulInPath
    | refused fault => exact .access _
  | emptied _ hcontent =>
    exact writeFailure_of_flaw (ClusterSchema.flaw_of_toText (map_eq_error.mp hcontent))
  | cut => exact .access _

theorem offScreen_writeSchemaFile (p : Path) (c : Option ClusterSchema) :
    (writeSchemaFile p c).OffScreen := by
  cases c with
  | none => exact Run.within_fail _
  | some c =>
    intro w
    have hopened : ∀ l, w.Records (fun e => !e.isOnScreen) (w.emptied l) :=
      fun l => ⟨[.opened l], rfl, List.forall_mem_singleton.mpr rfl⟩
    rcases hwrite : writeSchemaFile p (some c) w with ⟨r, v⟩
    cases writeOutcome_of_eq hwrite with
    | shut => exact .refl _ w
    | emptied | cut => exact hopened _
    | written => exact (hopened _).trans (World.records_note _ rfl)

theorem offScreen_writeOutput (s : Surroundings) (c : ClusterSchema) (o : Output) :
    (writeOutput s (some c) o).OffScreen := by
  cases o with
  | file path => exact offScreen_writeSchemaFile path (some c)
  | bigtable =>
    refine Run.within_bind (fun w => (Bigtable.attempted s.bigtable c.tables w).offScreen)
      fun results => ?_
    split
    · exact Run.within_pure _
    · exact Run.within_fail _

end Pipeline

end SchemaTransfer
