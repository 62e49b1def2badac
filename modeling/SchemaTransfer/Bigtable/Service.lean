import SchemaTransfer.Bigtable.Retention

/-!
# A Bigtable instance
-/
namespace SchemaTransfer.Bigtable

/-- A table as it is asked for: its name, its initial split keys, and its families with their
rules. -/
structure Request where
  name : Text
  splits : List Bytes
  families : List (Text × Option Retention)
deriving DecidableEq

/-- Why no client can be made. -/
inductive ClientFault
  /-- There are no credentials. -/
  | credentials (reason : Text)
  | other (fault : Fault)

/-- What the service allows. A refusal may depend on all requests made before and on the tables
there are. -/
structure Service where
  /-- Why no client can be made, if none can. -/
  refusesClient : Option ClientFault
  refuses : (earlier : List Request) → (tables : List Request) → Request → Option Fault

end SchemaTransfer.Bigtable
