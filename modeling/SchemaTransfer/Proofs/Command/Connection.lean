import SchemaTransfer.Proofs.Command.Transfer

/-!
# The life of a connection

A transfer command opens at most one connection to a server, and only once everything else is ready.
It closes the connection once, whatever happened while the server was read, and makes no call after
that. Consent is asked for, and anything written, only when the connection is closed.
-/
namespace SchemaTransfer

/-- What becomes of a connection in a record of events, where `asked` has the host and the port of
the one that was asked for, if any was. -/
inductive HBase.Lifecycle (server : Server) : (asked : Option (Text × Int)) → List Event → Prop
  | unopened {es : List Event} (hes : ∀ e ∈ es, !e.isConnection) : Lifecycle server none es
  | refused {host : Text} {portNumber : Int} {fault : Fault} {before after : List Event}
    (hrefuses : server.refuses host portNumber = some fault) (hbefore : ∀ e ∈ before, e.isQuiet)
    (hafter : ∀ e ∈ after, e.isQuiet) :
    Lifecycle server (some (host, portNumber)) (before ++ .connect host portNumber :: after)
  | closed {host : Text} {portNumber : Int} {before reading after : List Event}
    (haccepts : server.refuses host portNumber = none) (hbefore : ∀ e ∈ before, e.isQuiet)
    (hreading : ∀ e ∈ reading, e.isReading) (hafter : ∀ e ∈ after, !e.isConnection) :
    Lifecycle server (some (host, portNumber))
      (before ++ .connect host portNumber :: (reading ++ .call .close :: after))

/-- What happened from the first world to the second is such a record. -/
def World.Connects (server : HBase.Server) (asked : Option (Text × Int)) (w v : World) : Prop :=
  ∃ es, v.events = w.events ++ es ∧ HBase.Lifecycle server asked es

namespace World

variable {server : HBase.Server} {host : Text} {portNumber : Int} {u v w x : World}

theorem Records.connects (h : w.Records (fun e => !e.isConnection) v) :
    w.Connects server none v := by
  obtain ⟨es, hevents, hes⟩ := h
  exact ⟨es, hevents, .unopened hes⟩

theorem Passes.connects (h : w.Passes Event.isQuiet v) : w.Connects server none v :=
  (h.records.mono fun _ => Event.not_isConnection_of_isQuiet).connects

theorem connects_of_refused {fault : Fault} (hrefuses : server.refuses host portNumber = some fault)
    (hwu : w.Passes Event.isQuiet u)
    (huv : (u.note (.connect host portNumber)).Passes Event.isQuiet v) :
    w.Connects server (some (host, portNumber)) v := by
  obtain ⟨before, hu, hbefore⟩ := hwu.records
  obtain ⟨after, hv, hafter⟩ := huv.records
  refine ⟨_, ?_, .refused hrefuses hbefore hafter⟩
  rw [hv, note, hu, List.append_assoc, List.append_assoc]
  rfl

theorem connects_of_closed (haccepts : server.refuses host portNumber = none)
    (hwu : w.Passes Event.isQuiet u)
    (hux : (u.note (.connect host portNumber)).Passes Event.isReading x)
    (hxv : (x.note (.call .close)).Records (fun e => !e.isConnection) v) :
    w.Connects server (some (host, portNumber)) v := by
  obtain ⟨before, hu, hbefore⟩ := hwu.records
  obtain ⟨reading, hx, hreading⟩ := hux.records
  obtain ⟨after, hv, hafter⟩ := hxv
  refine ⟨_, ?_, .closed haccepts hbefore hreading hafter⟩
  rw [hv, note, hx, note, hu]
  simp only [List.append_assoc, List.cons_append, List.nil_append]

end World

namespace TransferCommand

variable {s : Surroundings} {t : Transfer} {v w : World}

/-- A connection is due if the options ask for it, the mapping can be loaded and the destination is
ready. -/
def Due (s : Surroundings) (t : Transfer) (w : World) (host : Text) (portNumber : Int) : Prop :=
  (∃ filter, t.origin = .server host portNumber filter) ∧
    ∃ names u output v, Pipeline.loadNames t.mapping w = (.ok names, u) ∧
      Pipeline.openOutput s t.destination u = (.ok output, v)

/-- What the command does once its options are accepted. -/
def proceed (s : Surroundings) (command : TransferCommand) (t : Transfer) : Run Exit Unit := do
  let p ← prepare s t
  let c ← plan s p
  permit s command t c
  write s p c
  succeed s.console c t.destination

theorem proceed_of_error (command : TransferCommand) {e : Failure}
    (h : Pipeline.prepare s t w = (.error e, v)) :
    v.Passes Event.isQuiet (proceed s command t w).2 := by
  obtain ⟨e', u, hfailed, hu⟩ := prepare_of_error h
  rw [proceed, Run.bind_apply, hfailed]
  exact hu

/-- Nothing that comes after the plan concerns a connection. -/
theorem proceed_of_ok (command : TransferCommand) {p : Pipeline}
    (h : Pipeline.prepare s t w = (.ok p, v)) :
    (Pipeline.plan s p (planning v)).2.Records (fun e => !e.isConnection)
      (proceed s command t w).2 := by
  have hp := Pipeline.prepare_output h
  rw [proceed, Run.bind_apply, prepare_eq_ok.mpr h]
  have hplanned := (plan_world s p v).records.mono fun _ => Event.not_isConnection_of_isQuiet
  refine hplanned.trans (Run.after_bind (plan s p)
    (fun c => Run.within_bind (fun u => ?_) fun _ u => ?_) v)
  · exact (passes_permit (fun _ => Event.not_isConnection_of_isQuiet) (fun _ _ => rfl) u).records
  · exact (write_written hp u).records

theorem quiet_ready {names : Option Renaming} {r : Except Failure Pipeline.Output} {u : World}
    (hnames : Pipeline.loadNames t.mapping w = (.ok names, u))
    (houtput : Pipeline.openOutput s t.destination u = (r, v)) : w.Passes Event.isQuiet v :=
  ((Pipeline.quiet_loadNames t.mapping).next hnames).trans
    ((Pipeline.quiet_openOutput s t.destination).next houtput)

theorem due_iff {names : Option Renaming} {output : Pipeline.Output} {u : World} {host : Text}
    {portNumber : Int} (hnames : Pipeline.loadNames t.mapping w = (.ok names, u))
    (houtput : Pipeline.openOutput s t.destination u = (.ok output, v)) :
    Due s t w host portNumber ↔ ∃ filter, t.origin = .server host portNumber filter :=
  ⟨fun h => h.1, fun h => ⟨h, names, u, output, v, hnames, houtput⟩⟩

theorem proceed_connects (s : Surroundings) (command : TransferCommand) (t : Transfer) (w : World) :
    ∃ asked, w.Connects s.hbase asked (proceed s command t w).2 ∧
      ∀ host portNumber, asked = some (host, portNumber) ↔ Due s t w host portNumber := by
  -- The set-up settles whether there is a connection, so the cases are the ways in which it ends.
  have hprepared := Pipeline.prepared s t w
  rcases hprepare : Pipeline.prepare s t w with ⟨r, x⟩
  rw [hprepare] at hprepared
  cases hprepared with
  | noNames hnames =>
    have hwx := (Pipeline.quiet_loadNames t.mapping).next hnames
    refine ⟨none, (hwx.trans (proceed_of_error command hprepare)).connects, fun _ _ => ⟨nofun, ?_⟩⟩
    rintro ⟨-, _, _, _, _, hnames', -⟩
    cases hnames.symm.trans hnames'
  | noOutput hnames houtput =>
    have hwx := quiet_ready hnames houtput
    refine ⟨none, (hwx.trans (proceed_of_error command hprepare)).connects, fun _ _ => ⟨nofun, ?_⟩⟩
    rintro ⟨-, _, _, _, _, hnames', houtput'⟩
    cases hnames.symm.trans hnames'
    cases houtput.symm.trans houtput'
  | @file names u v output path hnames houtput horigin =>
    have hplanning : w.Passes Event.isQuiet (planning x) :=
      (quiet_ready hnames houtput).trans (x.passes_note rfl)
    have hplanned := hplanning.trans (Pipeline.quiet_plan_file s (.ofText path) names output _)
    have hrest := (hplanned.records.mono fun _ => Event.not_isConnection_of_isQuiet).trans
      (proceed_of_ok command hprepare)
    refine ⟨none, hrest.connects, fun _ _ => ⟨nofun, fun hdue => ?_⟩⟩
    obtain ⟨_, horigin'⟩ := (due_iff hnames houtput).mp hdue
    cases horigin.symm.trans horigin'
  | @refused names u v output host portNumber filter fault e hnames houtput horigin hrefuses =>
    refine ⟨some (host, portNumber), World.connects_of_refused hrefuses
      (quiet_ready hnames houtput) (proceed_of_error command hprepare), fun _ _ => ?_⟩
    rw [due_iff hnames houtput, horigin]
    simp
  | @connected names u v output host portNumber filter hnames houtput horigin haccepts =>
    -- The plan closes the connection in `y`, and all that it does after that is renaming.
    obtain ⟨y, hy, hclosed⟩ := Pipeline.plan_server_world s filter names output
      (planning (v.note (.connect host portNumber)))
    have hreading := (World.passes_note _ rfl).trans hy
    have hrest := (hclosed.records.mono fun _ => Event.not_isConnection_of_isQuiet).trans
      (proceed_of_ok command hprepare)
    refine ⟨some (host, portNumber), World.connects_of_closed haccepts
      (quiet_ready hnames houtput) hreading hrest, fun _ _ => ?_⟩
    rw [due_iff hnames houtput, horigin]
    simp

/-- However a transfer command ends, the connection that it may have opened has lived its life by
then. One is asked for exactly if it is due, and if the options are refused it is not. -/
theorem connection_lifecycle (s : Surroundings) (command : TransferCommand) (w : World) :
    ∃ es asked, (run s command w).2.events = w.events ++ es ∧ HBase.Lifecycle s.hbase asked es ∧
      ∀ host portNumber, asked = some (host, portNumber) ↔
        ∃ t, command.options.check = .ok t ∧ Due s t w host portNumber := by
  have hrun : run s command w = (accept s.console command.options >>= proceed s command) w := by
    rw [run_eq]
    rfl
  rw [hrun, Run.bind_apply]
  cases hcheck : command.options.check with
  | error e =>
    have hrefused : (accept s.console command.options).GivesUp := givesUp_accept hcheck
    obtain ⟨e', he⟩ := hrefused.fails w
    have haccept : accept s.console command.options w =
        (.error e', (accept s.console command.options w).2) := Prod.ext he rfl
    rw [haccept]
    obtain ⟨es, hevents, hlife⟩ :
        w.Connects s.hbase none (accept s.console command.options w).2 :=
      (hrefused.quiet w).connects
    exact ⟨es, none, hevents, hlife, fun _ _ => ⟨nofun, fun ⟨_, h, _⟩ => nomatch h⟩⟩
  | ok t =>
    rw [accept_of_ok hcheck]
    obtain ⟨asked, ⟨es, hevents, hlife⟩, hdue⟩ := proceed_connects s command t w
    refine ⟨es, asked, hevents, hlife, fun host portNumber => (hdue host portNumber).trans ?_⟩
    constructor
    · exact fun h => ⟨t, rfl, h⟩
    · rintro ⟨_, ⟨⟩, h⟩
      exact h

end TransferCommand

end SchemaTransfer
