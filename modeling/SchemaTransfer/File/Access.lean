import SchemaTransfer.Run.World
import SchemaTransfer.Text.Newline

/-!
# Reading and writing files in a run
-/
namespace SchemaTransfer.Run

/-- Why a path can name no file at all, if it cannot. -/
def noName? (p : Path) : Option Failure :=
  match Unencodable.find? 0 p.text with
  | some u => some (.unencodable u)
  | none => if p.hasNul then some .nulInPath else none

/-- The text of a file, its line ends unified; `describe` says what was being done. -/
def readText (p : Path) (describe : FileFault → AccessError) : Run Failure Text := fun w =>
  match noName? p with
  | some failure => (.error failure, w)
  | none =>
    match w.files.read p with
    | .error fault => (.error (.access (describe fault)), w)
    | .ok content =>
      match Utf8.decode content with
      | .error malformed => (.error (.notUtf8 malformed), w)
      | .ok t => (.ok t.unifyNewlines, w)

/-- Opens a file for writing, which empties it or makes it. -/
def openFile (p : Path) (describe : FileFault → AccessError) : Run Failure Location := fun w =>
  match noName? p with
  | some failure => (.error failure, w)
  | none =>
    match w.files.openable p with
    | .error fault => (.error (.access (describe fault)), w)
    | .ok l => (.ok l, { w with files := w.files.put l (.file []) }.note (.opened l))

/-- Gives an opened file its content, or as much of it as gets there. -/
def writeFile (l : Location) (describe : FileFault → AccessError) (content : Bytes) :
    Run Failure Unit := fun w =>
  match w.files.full? l with
  | some (fault, kept) =>
    (.error (.access (describe fault)),
      { w with files := w.files.put l (.file (content.take kept)) })
  | none => (.ok (), { w with files := w.files.put l (.file content) })

end SchemaTransfer.Run
