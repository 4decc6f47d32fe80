import RemoteTree.Host.Basic
import RemoteTree.Table
import RemoteTree.Text.Utf8

/-!
# Directories as values

A directory of files that is a value, with the faults that a system reports for paths in it, and a
machine whose working directory it is.
-/

set_option autoImplicit false

namespace RemoteTree

/-- The files below a directory, by the names on the way to them. Every file makes directories of
the names before its last. -/
abbrev Directory := Table (List String) Bytes

namespace Directory

/-- Where a path leads to: to names below the directory, or out of it. -/
inductive Location where
  | inside (names : List String)
  | outside
  deriving DecidableEq, Repr

def parts (path : String) : List String := path.splitOn "/"

def hasDirectory (directory : Directory) : Location → Bool
  | .outside => true
  | .inside names =>
      names.isEmpty || directory.any fun entry => names.isPrefixOf entry.1 && names ≠ entry.1

def has (directory : Directory) (location : Location) : Bool :=
  directory.hasDirectory location ||
    match location with
    | .inside names => (Table.find? names directory).isSome
    | .outside => false

def longestName : Nat := 255

def longestPath : Nat := 4095

def Location.child : Location → String → Location
  | .inside names, name =>
      if name = ".." then if names.isEmpty then .outside else .inside names.dropLast
      else .inside (names ++ [name])
  | .outside, _ => .outside

/-- Goes through the parts of a path that lead to its last part. Each must be a directory. -/
def walk (directory : Directory) : Location → List String → Except FileFault Location
  | location, [] => .ok location
  | location, name :: rest =>
      if name = "" ∨ name = "." then walk directory location rest
      else if longestName < name.utf8ByteSize then .error .nameTooLong
      else
        let next := location.child name
        if location = .outside ∧ name ≠ ".." then .error .notFound
        else if directory.hasDirectory next then walk directory next rest
        else if directory.has next then .error .notDirectory
        else .error .notFound

def isVoid (part : String) : Bool := part = "" || part = "."

/-- Where a path leads to, and whether it can only mean a directory. The last name need not
exist. -/
def locate (directory : Directory) (path : String) : Except FileFault (Location × Bool) :=
  if path.toList.contains '\x00' then .error .nulInName
  else if path = "" then .error .notFound
  else if longestPath < path.utf8ByteSize then .error .nameTooLong
  else if path.startsWith "/" then
    if (parts path).all isVoid then .ok (.outside, true) else .error .notFound
  else
    let reversed := (parts path).reverse
    let marks := reversed.takeWhile isVoid
    match reversed.drop marks.length with
    | [] => .ok (.inside [], true)
    | last :: before => do
        let location ← walk directory (.inside []) before.reverse
        if longestName < last.utf8ByteSize then throw .nameTooLong
        else if location = .outside ∧ last ≠ ".." then throw .notFound
        else return (location.child last, !marks.isEmpty)

/-- The file that swallows everything and holds nothing. -/
def nullDevice : String := "/dev/null"

def read (directory : Directory) (path : String) : Except FileFault Bytes :=
  if path = nullDevice then .ok []
  else do
    let (location, mustBeDirectory) ← directory.locate path
    if directory.hasDirectory location then throw .isDirectory
    else
      match location with
      | .outside => throw .isDirectory
      | .inside names =>
          match Table.find? names directory with
          | some bytes => if mustBeDirectory then throw .notDirectory else return bytes
          | none => throw .notFound

/-- Writes the file at a path, whose directory must be there. -/
def write (directory : Directory) (path : String) (bytes : Bytes) : Except FileFault Directory :=
  if path = nullDevice then .ok directory
  else do
    let (location, mustBeDirectory) ← directory.locate path
    if directory.hasDirectory location then throw .isDirectory
    else
      match location with
      | .outside => throw .isDirectory
      | .inside names =>
          if mustBeDirectory then
            throw (if (Table.find? names directory).isSome then .notDirectory else .isDirectory)
          else return Table.insert names bytes directory

end Directory

/-- A machine that is a value. -/
structure Machine where
  environment : Table String String
  directory : Directory
  input : Except String Bytes
  seconds : UInt32
  timestamp : String
  room : Option Room := none
  wording : Wording

namespace Machine

def envFileName : String := ".env"

def host : Host (StateM Machine) where
  valueOf name := fun machine => (Table.find? name machine.environment, machine)
  envFile? := fun machine => (Table.find? [envFileName] machine.directory, machine)
  readFile path := fun machine => (machine.directory.read path, machine)
  writeFile path text := fun machine =>
    match machine.directory.write path (Utf8.encode text) with
    | .ok directory => (.ok (), { machine with directory := directory })
    | .error fault => (.error fault, machine)
  input := fun machine => (machine.input, machine)
  room := fun machine => (machine.room, machine)
  wording := fun machine => (machine.wording, machine)
  seconds := fun machine => (machine.seconds, machine)
  timestamp := fun machine => (machine.timestamp, machine)

end Machine

end RemoteTree
