import SchemaTransfer.Dict
import SchemaTransfer.File.Name
import SchemaTransfer.File.Path
import SchemaTransfer.Text.Quoted

/-!
# Files and directories
-/
namespace SchemaTransfer

/-- Why a file could not be opened, or not be read or written to its end. -/
inductive FileFault
  | notFound
  | notADirectory
  | isADirectory
  | nameTooLong
  /-- The system does not allow it; permission may be missing, for instance. -/
  | refused (number : Nat) (description : Text)
  /-- The system fails at a file that is open. It names no path then. -/
  | broken (number : Nat) (description : Text)
deriving DecidableEq

namespace FileFault

def number : FileFault → Nat
  | notFound => 2
  | notADirectory => 20
  | isADirectory => 21
  | nameTooLong => 36
  | refused number _ | broken number _ => number

def description : FileFault → Text
  | notFound => "No such file or directory"
  | notADirectory => "Not a directory"
  | isADirectory => "Is a directory"
  | nameTooLong => "File name too long"
  | refused _ description | broken _ description => description

/-- What is said of the path in a message. -/
def subject (path : Path) : FileFault → Text
  | broken _ _ => []
  | _ => ": " ++ path.text.quoted

def message (fault : FileFault) (path : Path) : Text :=
  "[Errno " ++ Text.ofNat fault.number ++ "] " ++ fault.description ++ fault.subject path

end FileFault

/-- The names on the way from the root to a file or directory. -/
abbrev Location := List FileName

inductive Node
  | directory
  | file (content : Bytes)
deriving DecidableEq

/-- What stands in the way of using a place, whether there is anything at it or not. -/
inductive Hindrance
  /-- Nothing there can be opened, made or gone through. -/
  | closed (fault : FileFault)
  /-- No file there can be opened for writing, or made. -/
  | readOnly (fault : FileFault)
  /-- A file there can be opened for writing, but only the first `kept` bytes get into it. -/
  | full (fault : FileFault) (kept : Nat)
deriving DecidableEq

structure FileSystem where
  nodes : Dict Location Node
  workingDirectory : Location
  hindrance? : Location → Option Hindrance := fun _ => none

namespace FileSystem

def node? (fs : FileSystem) (l : Location) : Option Node :=
  if l = [] then some .directory else fs.nodes.get? l

def file? (fs : FileSystem) (l : Location) : Option Bytes :=
  match fs.node? l with
  | some (.file content) => some content
  | _ => none

/-- The greatest length of a name in bytes. -/
def maxName : Nat := 255

/-- The greatest length of a path in bytes. -/
def maxPath : Nat := 4095

/-- Why nothing at a place can be opened, made or gone through, if so. -/
def closed? (fs : FileSystem) (l : Location) : Option FileFault :=
  match fs.hindrance? l with
  | some (.closed fault) => some fault
  | _ => none

/-- Why no file at a place can be opened for writing, or made, if so. -/
def unwritable? (fs : FileSystem) (l : Location) : Option FileFault :=
  match fs.hindrance? l with
  | some (.closed fault) | some (.readOnly fault) => some fault
  | _ => none

/-- The fault that writing to an open file ends in, and how many bytes get into it before, if not
all do. -/
def full? (fs : FileSystem) (l : Location) : Option (FileFault × Nat) :=
  match fs.hindrance? l with
  | some (.full fault kept) => some (fault, kept)
  | _ => none

/-- Follows the parts of a path. Everything but the last part has to be a directory that can be
gone through. -/
def walk (fs : FileSystem) (l : Location) : List Text → Except FileFault Location
  | [] => .ok l
  | part :: rest =>
    match fs.node? l, fs.closed? l with
    | none, _ => .error .notFound
    | some (.file _), _ => .error .notADirectory
    | some .directory, some fault => .error fault
    | some .directory, none =>
      let name := FileName.ofText part
      if maxName < name.length then .error .nameTooLong
      else if part = ".." then walk fs l.dropLast rest
      else walk fs (l ++ [name]) rest

/-- The location that a path leads to; there need not be anything there yet. -/
def locate (fs : FileSystem) (p : Path) : Except FileFault Location :=
  if maxPath < (FileName.ofText p.text).length then .error .nameTooLong
  else walk fs (if p.isAbsolute then [] else fs.workingDirectory) p.parts

def read (fs : FileSystem) (p : Path) : Except FileFault Bytes :=
  match fs.locate p with
  | .error fault => .error fault
  | .ok l =>
    match fs.node? l, fs.closed? l with
    | none, _ => .error .notFound
    | some _, some fault => .error fault
    | some .directory, none => .error .isADirectory
    | some (.file content), none => .ok content

/-- The location of a file that can be opened for writing: an old file, or a new one in an old
directory. -/
def openable (fs : FileSystem) (p : Path) : Except FileFault Location :=
  match fs.locate p with
  | .error fault => .error fault
  | .ok l =>
    match fs.node? l, fs.unwritable? l with
    | some .directory, _ => .error .isADirectory
    | _, some fault => .error fault
    | _, none => .ok l

/-- The location of a file that can be written to its end. -/
def writable (fs : FileSystem) (p : Path) : Except FileFault Location :=
  match fs.openable p with
  | .error fault => .error fault
  | .ok l =>
    match fs.full? l with
    | some (fault, _) => .error fault
    | none => .ok l

def put (fs : FileSystem) (l : Location) (node : Node) : FileSystem :=
  { fs with nodes := fs.nodes.insert l node }

/-- The file system with the directories from `done` on along the names. -/
def putDirectories (fs : FileSystem) (done : Location) : List FileName → FileSystem
  | [] => fs
  | name :: rest =>
    let l := done ++ [name]
    putDirectories (if (fs.node? l).isSome then fs else fs.put l .directory) l rest

/-- The file system with one thing more, and with the directories on the way to it. -/
def place (fs : FileSystem) (l : Location) (node : Node) : FileSystem :=
  (fs.putDirectories [] l.dropLast).put l node

def empty (workingDirectory : Location) : FileSystem :=
  putDirectories { nodes := ∅, workingDirectory } [] workingDirectory

end FileSystem

end SchemaTransfer
