import SchemaTransfer.Regex.Matcher
import SchemaTransfer.Failure

/-!
# Options of a transfer

A transfer has one source, a file or an HBase server, and one destination, a file or a Bigtable
instance.
-/
namespace SchemaTransfer

/-- The options as they were given. -/
structure Options where
  hbaseHost : Option Text := none
  hbasePort : Option Int := none
  tableFilter : Option Text := none
  inputFile : Option Text := none
  projectId : Option Text := none
  instanceId : Option Text := none
  outputFile : Option Text := none
  mappingFile : Option Text := none

inductive Origin
  | file (path : Text)
  | server (host : Text) (portNumber : Int) (filter : Option Text)

inductive Destination
  | file (path : Text)
  | bigtable (project instanceId : Text)

/-- What options that are in order ask for. -/
structure Transfer where
  origin : Origin
  destination : Destination
  mapping : Option Text

namespace Options

def destination (o : Options) : Except OptionsError Destination :=
  match o.outputFile, o.projectId, o.instanceId with
  | some path, none, none => .ok (.file path)
  | some _, _, _ => .error .twoDestinations
  | none, some project, some instanceId => .ok (.bigtable project instanceId)
  | none, _, _ => .error .noDestination

/-- Refuses a filter that is no expression. -/
def checkFilter : Option Text → Except Failure Unit
  | none => .ok ()
  | some t =>
    match Regex.compile t with
    | .ok _ => .ok ()
    | .error (.malformed complaint place severalLines) =>
      .error (.options (.badFilter (.malformed complaint place severalLines)))
    | .error fault => .error (.badPattern fault)

def origin (o : Options) : Except Failure Origin :=
  match o.inputFile with
  | some path =>
    if o.hbaseHost.isSome ∨ o.hbasePort.isSome then .error (.options .twoSources)
    else if o.tableFilter.isSome then .error (.options .filterWithFile)
    else .ok (.file path)
  | none =>
    match o.hbaseHost, o.hbasePort with
    | some host, some portNumber =>
      if 0 < portNumber ∧ portNumber < 65536 then
        (checkFilter o.tableFilter).map fun () => .server host portNumber o.tableFilter
      else .error (.options (.badPort portNumber))
    | _, _ => .error (.options .noSource)

def check (o : Options) : Except Failure Transfer := do
  let destination ← o.destination.mapError .options
  let origin ← o.origin
  return ⟨origin, destination, o.mappingFile⟩

end Options

end SchemaTransfer
