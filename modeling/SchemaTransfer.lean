import SchemaTransfer.Main
import SchemaTransfer.Schema.Workspace
import SchemaTransfer.Proofs.Bigtable.Collected
import SchemaTransfer.Proofs.Bigtable.Creation
import SchemaTransfer.Proofs.Bigtable.LikeTables
import SchemaTransfer.Proofs.Bigtable.Report
import SchemaTransfer.Proofs.Bigtable.Rerun
import SchemaTransfer.Proofs.Bigtable.ResourceId
import SchemaTransfer.Proofs.Bigtable.Results
import SchemaTransfer.Proofs.Bigtable.Retention
import SchemaTransfer.Proofs.Command.Clearance
import SchemaTransfer.Proofs.Command.Connection
import SchemaTransfer.Proofs.Command.Ending
import SchemaTransfer.Proofs.Command.ExitCode
import SchemaTransfer.Proofs.Command.FileFailures
import SchemaTransfer.Proofs.Command.Show
import SchemaTransfer.Proofs.Command.ShowOrder
import SchemaTransfer.Proofs.Command.Verdict
import SchemaTransfer.Proofs.Console.Listing
import SchemaTransfer.Proofs.Console.RowKey
import SchemaTransfer.Proofs.Double.Shortest
import SchemaTransfer.Proofs.File.System
import SchemaTransfer.Proofs.HBase.Catalogue
import SchemaTransfer.Proofs.HBase.Faults
import SchemaTransfer.Proofs.HBase.LiveRead
import SchemaTransfer.Proofs.Json.KeyOrder
import SchemaTransfer.Proofs.Json.LongNumeral
import SchemaTransfer.Proofs.Schema.CanonicalSplit
import SchemaTransfer.Proofs.Schema.Collision
import SchemaTransfer.Proofs.Schema.Renaming
import SchemaTransfer.Proofs.Text.Numeral
import SchemaTransfer.Proofs.Text.Utf8
import SchemaTransfer.Proofs.Text.WholeNumber
import SchemaTransfer.Proofs.Transfer.Chain
import SchemaTransfer.Proofs.Transfer.Conduct
import SchemaTransfer.Proofs.Transfer.Legible
import SchemaTransfer.Proofs.Transfer.LineEnds
import SchemaTransfer.Proofs.Transfer.Options
import SchemaTransfer.Proofs.Transfer.Overwriting
import SchemaTransfer.Proofs.Transfer.Staging
