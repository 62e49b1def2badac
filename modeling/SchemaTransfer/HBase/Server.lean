import SchemaTransfer.Failure
import SchemaTransfer.Schema.Config

/-!
# An HBase server

A connection is known by its answers. What it answers to a call may depend on all calls before.
-/
namespace SchemaTransfer.HBase

/-- A name as a server sends it. -/
inductive RawName
  | bytes (b : Bytes)
  | text (t : Text)
deriving DecidableEq

/-- What a server says of a column family. -/
abbrev Descriptor := Dict Text ConfigValue

inductive Call
  | tables
  | table (name : Text)
  | families (table : Text)
  | regions (table : Text)
  | close
deriving DecidableEq

/-- What a call that succeeds brings: the names of all tables, the families of a table, the start
keys of its regions, or nothing. -/
def Call.Reply : Call → Type
  | .tables => List RawName
  | .families _ => Dict RawName Descriptor
  | .regions _ => List Bytes
  | .table _ | .close => Unit

structure Server where
  /-- The fault that opening a connection ends in, if any. -/
  refuses : (host : Text) → (portNumber : Int) → Option Fault
  answer : (history : List Call) → (c : Call) → Except Fault c.Reply

end SchemaTransfer.HBase
