import SchemaTransfer.Proofs.HBase.Catalogue
import SchemaTransfer.Proofs.Run.Failures

/-!
# Faults of a server

Whatever fails while a server is read, what comes of it is a failure with words of its own: faults
of the connection are reported with what was being done, and what is malformed as malformed.
Closing the connection is the one call whose faults have no words: they end the reading as they are,
whatever it had come to.
-/
namespace SchemaTransfer.HBase

variable {server : Server} {pattern : Text}

/-- A failure that reading the tables of a pattern may end in, before the connection is closed. -/
inductive ReadFailure (server : Server) (pattern : Text) : Failure → Prop
  | access (e : AccessError) : ReadFailure server pattern (.access e)
  | decode (e : DecodeError) : ReadFailure server pattern (.decode e)
  | definition (e : DefinitionError) : ReadFailure server pattern (.definition e)
  | raised {history : List Call} {c : Call} {fault : Fault}
    (hanswer : server.answer history c = .error fault) (hforeign : fault.isTransport = false) :
    ReadFailure server pattern (.outside fault)
  | badPattern {fault : Regex.Fault} (hcompile : Regex.compile pattern = .error fault) :
    ReadFailure server pattern (.badPattern fault)

/-- A server whose calls fail with faults of the connection alone. -/
def Server.OnlyTransport (server : Server) : Prop :=
  ∀ history c fault, server.answer history c = .error fault → fault.isTransport = true

theorem ReadFailure.isClusterError {e : Failure} (h : ReadFailure server pattern e)
    (hs : server.OnlyTransport) (hpattern : ∃ r, Regex.compile pattern = .ok r) :
    e.isClusterError = true := by
  cases h with
  | access | decode | definition => rfl
  | raised hanswer hforeign => exact absurd (hs _ _ _ hanswer) (Bool.eq_false_iff.mp hforeign)
  | badPattern hcompile =>
    obtain ⟨r, hr⟩ := hpattern
    cases hr.symm.trans hcompile

theorem ReadFailure.isCredentials {e : Failure} (h : ReadFailure server pattern e) :
    e.isCredentials = false := by
  cases h <;> rfl

/-! ## Reading -/

theorem readFailure_askFor (describe : Fault → AccessError) (c : Call) :
    Run.FailsWith (ReadFailure server pattern) (server.askFor describe c) := by
  intro w e he
  rw [Server.askFor, Server.ask] at he
  cases hanswer : server.answer w.calls c with
  | ok reply =>
    rw [hanswer] at he
    cases he
  | error fault =>
    rw [hanswer] at he
    cases he
    cases hforeign : fault.isTransport with
    | true => exact .access (describe fault)
    | false => exact .raised hanswer hforeign

theorem readParts_fails (server : Server) (pattern : Text) :
    server.ReadParts pattern fun _ x => Run.FailsWith (ReadFailure server pattern) x where
  toComposes := Run.composes_failsWith
  log _ _ _ := Run.failsWith_note _
  ask describe c _ := readFailure_askFor describe c
  compiled := Run.failsWith_ofExcept fun _ he => by
    obtain ⟨_, hcompile, rfl⟩ := mapError_eq_error.mp he
    exact .badPattern hcompile
  decoded _ := Run.failsWith_ofExcept fun _ he => by
    obtain ⟨_, -, rfl⟩ := mapError_eq_error.mp he
    exact .decode _
  checked _ := Run.failsWith_ofExcept fun _ he => by
    obtain ⟨_, -, rfl⟩ := mapError_eq_error.mp he
    exact .definition _

/-! ## Closing -/

theorem close_result (server : Server) (w : World) :
    (server.close w).1 = (server.answer w.calls .close).mapError .outside := by
  rw [Server.close, Server.ask]
  cases server.answer w.calls .close <;> rfl

/-- A failure to read a server is one of the reading itself or a fault in closing. -/
theorem failsWith_read (server : Server) (filter : Option Text) : Run.FailsWith
    (fun e => ReadFailure server (Source.patternOf filter) e ∨ ∃ fault, e = .outside fault)
    (server.source.read filter) := by
  have hclose : Run.FailsWith (fun e => ∃ fault, e = .outside fault) server.close := by
    intro w e he
    rw [close_result] at he
    obtain ⟨fault, -, rfl⟩ := mapError_eq_error.mp he
    exact ⟨fault, rfl⟩
  exact Run.failsWith_bind (Run.failsWith_note _) fun _ => Run.failsWith_ensuring
    (((readParts_fails server _).gather filter).mono fun _ => Or.inl)
    (hclose.mono fun _ => Or.inr)

/-! ## Patterns -/

theorem compile_matchAll : ∃ r, Regex.compile (Source.patternOf none) = .ok r := by
  obtain ⟨r, hr, -⟩ := eq_ok_of_toOption (f := fun _ => ())
    (by decide +kernel : (Regex.compile (Source.patternOf none)).toOption.map _ = some ())
  exact ⟨r, hr⟩

theorem compile_patternOf {filter : Option Text}
    (hfilter : ∀ t ∈ filter, ∃ r, Regex.compile t = .ok r) :
    ∃ r, Regex.compile (Source.patternOf filter) = .ok r := by
  rcases filter with _ | _ | ⟨c, rest⟩
  · exact compile_matchAll
  · exact compile_matchAll
  · exact hfilter _ rfl

/-- Where the calls fail with faults of the connection alone, reading ends in a definition or in a
failure with words of its own if and only if closing succeeds. If closing fails, its fault ends the
reading as it is. -/
theorem read_reports_unless_close_fails (hs : server.OnlyTransport) {filter : Option Text}
    (hfilter : ∀ t ∈ filter, ∃ r, Regex.compile t = .ok r) (w : World) :
    ∃ history, (server.source.read filter w).2.calls = history ++ [.close] ∧
      ((∀ e, (server.source.read filter w).1 = .error e → e.isClusterError) ↔
        server.answer history .close = .ok ()) ∧
      ∀ fault, server.answer history .close = .error fault →
        (server.source.read filter w).1 = .error (.outside fault) := by
  rw [read_eq, Run.ensuring_world, Run.ensuring_result, close_world, close_result]
  generalize hv : (server.gather filter
    (w.note (.log .info "Reading schema from HBase."))).2 = v
  refine ⟨v.calls, List.filterMap_append, ?_, fun fault hfault => by rw [hfault]; rfl⟩
  cases hanswer : server.answer v.calls .close with
  | ok =>
    refine iff_of_true (fun e he => ?_) rfl
    exact ((readParts_fails server _).gather filter _ e he).isClusterError hs
      (compile_patternOf hfilter)
  | error fault =>
    refine iff_of_false (fun h => ?_) (fun h => nomatch h)
    cases h _ rfl

/-- A server with the table `t`, whose families and whose closing come out as given. -/
def oneTableServer (families closing : Except Fault Unit) : Server where
  refuses _ _ := none
  answer _
    | .tables => .ok ([.text "t"] : List RawName)
    | .table _ => .ok ()
    | .families _ => families.map fun () => Dict.ofList []
    | .regions _ => .ok ([] : List Bytes)
    | .close => closing

theorem onlyTransport_oneTable {families closing : Except Fault Unit}
    (hfamilies : ∀ fault, families = .error fault → fault.isTransport)
    (hclosing : ∀ fault, closing = .error fault → fault.isTransport) :
    (oneTableServer families closing).OnlyTransport := by
  intro _ c fault h
  cases c with
  | tables | table | regions => cases h
  | families => exact hfamilies fault (map_eq_error.mp h)
  | close => exact hclosing fault h

def broken : Except Fault Unit := .error (.thrift "broken")

theorem isTransport_of_broken : ∀ fault, broken = .error fault → fault.isTransport := by
  intro fault h
  cases h
  rfl

def untouched : World := ⟨.empty [], [], []⟩

/-- Where the families cannot be had and the connection can be closed, the fault is reported. -/
theorem read_reports_families_fault :
    ((oneTableServer broken (.ok ())).source.read none untouched).1.toOption.map
        ClusterSchema.names = none ∧
      ∀ e, ((oneTableServer broken (.ok ())).source.read none untouched).1 = .error e →
        e.isClusterError := by
  have honly : (oneTableServer broken (.ok ())).OnlyTransport :=
    onlyTransport_oneTable isTransport_of_broken fun _ h => nomatch h
  have hfilter : ∀ t ∈ (none : Option Text), ∃ r, Regex.compile t = .ok r := nofun
  obtain ⟨_, -, hreports, -⟩ := read_reports_unless_close_fails honly hfilter untouched
  exact ⟨by decide +kernel, hreports.mpr rfl⟩

/-- A fault in closing alone ends the reading as it is, though it is one of the connection. -/
theorem read_lets_close_fault_through :
    (oneTableServer (.ok ()) broken).OnlyTransport ∧
      ∃ e, ((oneTableServer (.ok ()) broken).source.read none untouched).1 = .error e ∧
        e.isClusterError = false := by
  refine ⟨onlyTransport_oneTable (fun _ h => nomatch h) isTransport_of_broken,
    .outside (.thrift "broken"), ?_, rfl⟩
  rw [read_eq, Run.ensuring_result, close_result]
  rfl

end SchemaTransfer.HBase
