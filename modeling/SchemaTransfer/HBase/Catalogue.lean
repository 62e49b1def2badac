import SchemaTransfer.Regex.Matcher
import SchemaTransfer.Transfer.Source

/-!
# The tables of an HBase server

Names and settings come as bytes and are decoded. Faults of the connection are reported with what
was being done; any other fault, and any fault in closing, goes through as it is.
-/
namespace SchemaTransfer.HBase

/-- Puts a call to a server. -/
def Server.ask (server : Server) (c : Call) : Run Fault c.Reply := fun w =>
  (server.answer w.calls c, w.note (.call c))

/-- Opens a connection. -/
def Server.connect (server : Server) (host : Text) (portNumber : Int) : Run Failure Unit := fun w =>
  let w := w.note (.connect host portNumber)
  match server.refuses host portNumber with
  | none => (.ok (), w)
  | some fault =>
    (.error (if fault.isTransport then .access (.connect host portNumber fault) else .outside fault),
      w)

/-- A call whose faults of the connection `describe` puts into words. -/
def Server.askFor (server : Server) (describe : Fault → AccessError) (c : Call) :
    Run Failure c.Reply := fun w =>
  match server.ask c w with
  | (.ok reply, w) => (.ok reply, w)
  | (.error fault, w) =>
    (.error (if fault.isTransport then .access (describe fault) else .outside fault), w)

/-! ## Decoding -/

def RawName.decode : RawName → Except Utf8.Malformed Text
  | .bytes b => Utf8.decode b
  | .text t => .ok t

def decodeSetting : ConfigValue → Except Utf8.Malformed ConfigValue
  | .bytes b => (Utf8.decode b).map fun t => .json (.string t)
  | v => .ok v

/-- The settings of a descriptor without the family's own name, which its key says already. -/
def decodeSettings : List (Text × ConfigValue) → Except Utf8.Malformed (List (Text × ConfigValue))
  | [] => .ok []
  | (key, v) :: rest =>
    if key = "name" then decodeSettings rest
    else do
      let v ← decodeSetting v
      return (key, v) :: (← decodeSettings rest)

def decodeFamilies :
    List (RawName × Descriptor) → Except Utf8.Malformed (List (Text × Config))
  | [] => .ok []
  | (rawName, descriptor) :: rest => do
    let family ← rawName.decode
    let settings ← decodeSettings descriptor.entries
    return (family, Dict.ofList settings) :: (← decodeFamilies rest)

/-- A decoded value, or a report that the server sent something that is not UTF-8. -/
def decoded {α : Type} (r : Except Utf8.Malformed α) : Run Failure α :=
  Run.ofExcept (r.mapError fun malformed => .decode (.descriptor malformed))

/-! ## Listing -/

/-- A table with its families. -/
def Server.describe (server : Server) (name : Text) : Run Failure ListedTable := do
  server.askFor .listTables (.table name)
  let (families : Dict RawName Descriptor) ← server.askFor .listTables (.families name)
  let families ← decoded (decodeFamilies families.entries)
  return ⟨name, Dict.ofList families⟩

/-- The tables among `names` that the expression matches in full. -/
def Server.describeMatching (server : Server) (r : Regex) :
    List RawName → Run Failure (List ListedTable)
  | [] => return []
  | rawName :: rest => do
    let name ← decoded rawName.decode
    if r.matchesWhole name then
      let table ← server.describe name
      return table :: (← describeMatching server r rest)
    else describeMatching server r rest

def Server.listTables (server : Server) (pattern : Text) : Run Failure (List ListedTable) := do
  let r ← Run.ofExcept ((Regex.compile pattern).mapError .badPattern)
  let (names : List RawName) ← server.askFor .listTables .tables
  server.describeMatching r names

def Server.regionStartKeys (server : Server) (table : Text) : Run Failure (List Bytes) := do
  server.askFor (.readRegions table) (.table table)
  let (keys : List Bytes) ← server.askFor (.readRegions table) (.regions table)
  return keys

def Server.close (server : Server) : Run Failure Unit := fun w =>
  match server.ask .close w with
  | (.ok (), w) => (.ok (), w)
  | (.error fault, w) => (.error (.outside fault), w)

/-- A server as a source of tables. -/
def Server.source (server : Server) : Source where
  listTables pattern := do return some (← server.listTables pattern)
  regionStartKeys table := do return some (← server.regionStartKeys table)
  close := server.close

end SchemaTransfer.HBase
