import SchemaTransfer.File.System
import SchemaTransfer.Json.Nesting
import SchemaTransfer.Json.Notation
import SchemaTransfer.Regex.Fault

/-!
# Failures

Every way in which a run can fail, by its cause. The wording is fixed by `message` alone.
-/
namespace SchemaTransfer

/-- What the systems outside raise. -/
inductive Fault
  | thrift (message : Text)
  | system (number : Option Int) (message : Text)
  | runtime (message : Text)
  | alreadyExists (message : Text)
  /-- A text was to be shown whose markup does not close as it opens. -/
  | markup (message : Text)
deriving DecidableEq

namespace Fault

def message : Fault → Text
  | thrift m => "TTransportException(type=0, message=" ++ m.quoted ++ ")"
  | system (some n) m => "[Errno " ++ Text.ofInt n ++ "] " ++ m
  | system none m => m
  | runtime m | markup m => m
  | alreadyExists m => "409 " ++ m

/-- Faults of a connection, as opposed to faults of a program. -/
def isTransport : Fault → Bool
  | thrift _ | system _ _ => true
  | runtime _ | alreadyExists _ | markup _ => false

end Fault

/-- What a table or a cluster may not be. -/
inductive DefinitionError
  | unnamedTable
  | emptySplit (table : Text)
  | duplicateTable (table : Text)
deriving DecidableEq

def DefinitionError.message : DefinitionError → Text
  | .unnamedTable => "Table name must be a non-empty string."
  | .emptySplit table =>
    "Table '" ++ table ++
      "' has an empty split; the start of the keyspace is not a valid split point."
  | .duplicateTable table => "Table '" ++ table ++ "' is defined more than once."

/-- What is wrong with a schema or a mapping that was given in writing, or with bytes that should be
text. -/
inductive DecodeError
  | schemaText (cause : Json.Cause) (place : Place)
  | schemaNotObject
  | tablesNotList
  | tableNotObject
  | missingName
  | familiesNotObject (table : Text)
  | configNotObject (family table : Text)
  | splitsNotList (table : Text)
  | splitNotUtf8 (split : Text)
  | splitNotBytes
  | unsupportedSplit (v : Json)
  | definition (e : DefinitionError)
  | mappingText (path : Path) (cause : Json.Cause) (place : Place)
  | mappingNotObject (path : Path)
  | badMapping (old : Text) (path : Path)
  | descriptor (malformed : Utf8.Malformed)

def DecodeError.message : DecodeError → Text
  | .schemaText cause place =>
    "Invalid schema JSON: " ++ (Json.ReadError.malformed cause place).message
  | .schemaNotObject => "Schema file must contain a JSON object."
  | .tablesNotList => "'tableSchemaDefinitions' must be a list."
  | .tableNotObject => "Table schema definition must be a JSON object."
  | .missingName => "Table schema definition is missing a name."
  | .familiesNotObject table => "Column families of '" ++ table ++ "' must be an object."
  | .configNotObject family table =>
    "Configuration of family '" ++ family ++ "' in '" ++ table ++ "' must be an object."
  | .splitsNotList table => "Splits of '" ++ table ++ "' must be a list."
  | .splitNotUtf8 split => "Split " ++ split.quoted ++ " is not valid UTF-8."
  | .splitNotBytes => "Split byte arrays must contain byte values."
  | .unsupportedSplit v => "Unsupported split value: " ++ v.shown
  | .definition e => e.message
  | .mappingText path cause place =>
    "Invalid mapping JSON in '" ++ path.text ++ "': " ++
      (Json.ReadError.malformed cause place).message
  | .mappingNotObject path =>
    "Mapping file '" ++ path.text ++ "' does not contain valid schema mappings."
  | .badMapping old path =>
    "Mapping for '" ++ old ++ "' in '" ++ path.text ++ "' must be a non-empty string."
  | .descriptor malformed =>
    "HBase returned a table or family descriptor that is not UTF-8: " ++ malformed.message

/-- A file or a cluster that could not be reached. -/
inductive AccessError
  | readSchema (path : Path) (fault : FileFault)
  | readMapping (path : Path) (fault : FileFault)
  | writeSchema (path : Path) (fault : FileFault)
  | connect (host : Text) (portNumber : Int) (fault : Fault)
  | listTables (fault : Fault)
  | readRegions (table : Text) (fault : Fault)
deriving DecidableEq

def AccessError.message : AccessError → Text
  | .readSchema path fault =>
    "Could not read schema file '" ++ path.text ++ "': " ++ fault.message path
  | .readMapping path fault =>
    "Could not read mapping file '" ++ path.text ++ "': " ++ fault.message path
  | .writeSchema path fault =>
    "Could not write schema file '" ++ path.text ++ "': " ++ fault.message path
  | .connect host portNumber fault =>
    "Could not connect to HBase at " ++ host ++ ":" ++ Text.ofInt portNumber ++ ": " ++ fault.message
  | .listTables fault => "Failed to list HBase tables: " ++ fault.message
  | .readRegions table fault =>
    "Failed to read regions of HBase table '" ++ table ++ "': " ++ fault.message

/-- Options that conflict or are missing. -/
inductive OptionsError
  | twoDestinations
  | noDestination
  | twoSources
  | filterWithFile
  | noSource
  | badPort (portNumber : Int)
  | badFilter (fault : Regex.Fault)
deriving DecidableEq

def OptionsError.message : OptionsError → Text
  | .twoDestinations => "--project-id/--instance-id can not be set when output file is set."
  | .noDestination => "Schema destination not specified."
  | .twoSources => "--hbase-host/--hbase-port can not be set when input file is set."
  | .filterWithFile =>
    "--table-filter is not supported when reading the schema from a file. Use it when writing the " ++
      "schema to the file instead."
  | .noSource => "Schema source not specified."
  | .badPort portNumber => "Invalid HBase port: " ++ Text.ofInt portNumber
  | .badFilter fault => "Invalid regex for --table-filter: " ++ fault.message

/-- How the creation of one table went; the text of the error, if there was one. -/
structure CreateResult where
  table : Text
  error : Option Text
deriving DecidableEq

/-- The tables that were not created, in order. -/
def failedTables (results : List CreateResult) : List Text :=
  (results.filter fun r => r.error.isSome).map CreateResult.table

inductive Failure
  | options (e : OptionsError)
  | access (e : AccessError)
  | decode (e : DecodeError)
  | definition (e : DefinitionError)
  | tableExists (table : Text)
  | creation (results : List CreateResult)
  | credentials (reason : Text)
  /-- There is no definition to write. -/
  | noDefinition
  /-- A configuration holds a value of a type that JSON has no place for. -/
  | noJson (type : Text)
  /-- A configuration holds a mapping with a key of a type that members of an object can not have. -/
  | badKey (type : Text)
  /-- A whole number of too many digits was to be put into text. -/
  | longInteger
  /-- A bound is infinite. -/
  | infiniteBound
  | notUtf8 (malformed : Utf8.Malformed)
  | badPattern (fault : Regex.Fault)
  | tooManyDigits (count : Nat)
  /-- There was no room left for an array or an object inside others. -/
  | tooDeep (container : Json.Container)
  | nulInPath
  /-- A path holds surrogates that have no bytes. -/
  | unencodable (u : Unencodable)
  | outside (fault : Fault)

namespace Failure

def message : Failure → Text
  | options e => e.message
  | access e => e.message
  | decode e => e.message
  | definition e => e.message
  | tableExists table => "Table '" ++ table ++ "' already exists."
  | creation results =>
    "Failed to create some tables in Cloud Bigtable: " ++
      (Json.array ((failedTables results).map Json.string)).shown
  | credentials reason =>
    "Google Cloud authentication failed: " ++ reason ++
      "\nSet up application default credentials with:\n" ++
      "  $ gcloud auth application-default login"
  | noDefinition => "Schema definition can not be None."
  | noJson type => "Object of type " ++ type ++ " is not JSON serializable"
  | badKey type => "keys must be str, int, float, bool or None, not " ++ type
  | longInteger => Text.longInteger
  | infiniteBound => "cannot convert float infinity to integer"
  | notUtf8 malformed => malformed.message
  | badPattern fault => fault.message
  | tooManyDigits count => Text.tooManyDigits count
  | tooDeep container =>
    "maximum recursion depth exceeded while decoding a JSON " ++ container.name ++
      " from a unicode string"
  | nulInPath => "embedded null byte"
  | unencodable u => u.message
  | outside fault => fault.message

/-- Failures that the program reports by itself, setting up credentials apart. All others are
faults of the program or of the systems outside, and end it. -/
def isReported : Failure → Bool
  | options _ | access _ | decode _ | definition _ | tableExists _ | creation _ => true
  | _ => false

end Failure

end SchemaTransfer
