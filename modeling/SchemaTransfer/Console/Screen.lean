import SchemaTransfer.Run.World

/-!
# On the screen

Events as plain text, as a console shows them; the columns of a listing are aligned.
-/
namespace SchemaTransfer

namespace Screen

/-- A cell made as wide as its column. -/
def padded (width : Nat) (cell : Text) : Text :=
  cell ++ List.replicate (width - cell.length) (CodePoint.ofChar ' ')

/-- The widths of the columns of some rows. -/
def columnWidths : List (List Text) → List Nat
  | [] => []
  | row :: rest =>
    let below := columnWidths rest
    let here := row.map List.length
    (here.zipWith max below) ++ here.drop below.length ++ below.drop here.length

def rowText (widths : List Nat) (row : List Text) : Text :=
  Text.join "  " (widths.zipWith padded row)

def tableText (console : Console) (title : Text) (header : List Text) (rows : List (List Text)) :
    Text :=
  let rows := (header :: rows).map fun row => row.map console.shows
  Text.join "\n" (console.shows title :: rows.map (rowText (columnWidths rows)))

def levelName : LogLevel → Text
  | .debug => "DEBUG"
  | .info => "INFO"
  | .error => "ERROR"

/-- How an event is printed, if it is. -/
def eventText? (console : Console) : Event → Option Text
  | .print markup => some (console.shows markup)
  | .table title header rows => some (tableText console title header rows)
  | .confirm question _ => some (question ++ " (y/N)")
  | _ => none

/-- How a message of the log is printed. -/
def logText? : Event → Option Text
  | .log level message => some (levelName level ++ " " ++ message)
  | _ => none

end Screen

end SchemaTransfer
