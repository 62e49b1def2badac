import SchemaTransfer.Bigtable.Service
import SchemaTransfer.HBase.Server

/-!
# Events

Everything that a run does or shows, in the order in which it happens.
-/
namespace SchemaTransfer

inductive LogLevel
  | debug
  | info
  | error
deriving DecidableEq

/-- A request to a source of tables that was given directly. -/
inductive SourceRequest
  | listTables (pattern : Text)
  | regionStartKeys (table : Text)
  | close
deriving DecidableEq

inductive Event
  | log (level : LogLevel) (message : Text)
  | connect (host : Text) (portNumber : Int)
  | call (c : HBase.Call)
  | source (r : SourceRequest)
  | client (project : Text)
  | chooseInstance (id : Text)
  /-- A table was asked for; whether it was created shows in the next event. -/
  | request (r : Bigtable.Request)
  | created (r : Bigtable.Request)
  /-- A file was opened for writing, and emptied by that. -/
  | opened (l : Location)
  | print (markup : Text)
  | status (text : Text)
  | table (title : Text) (header : List Text) (rows : List (List Text))
  | confirm (question : Text) (default : Bool)
  | usage
deriving DecidableEq

namespace Event

def call? : Event → Option HBase.Call
  | .call c => some c
  | _ => none

def request? : Event → Option Bigtable.Request
  | .request r => some r
  | _ => none

end Event

end SchemaTransfer
