import RemoteTree.Tape.Calls
import RemoteTree.Time.Timestamp

/-!
# Hosts

What a program needs from the machine it runs on. A host is a record of operations in some monad,
so a program can run on a real machine as well as on one that is a value.
-/

set_option autoImplicit false

namespace RemoteTree

/-- Why a file cannot be read or written. -/
structure FileFault where
  message : String
  code : Option Int32
  deriving DecidableEq, Repr

namespace FileFault

def numbered (message : String) (code : Nat) : FileFault :=
  { message := message ++ " (os error " ++ toString code ++ ")", code := some (Int32.ofNat code) }

def notFound : FileFault := numbered "No such file or directory" 2

def notDirectory : FileFault := numbered "Not a directory" 20

def isDirectory : FileFault := numbered "Is a directory" 21

def nameTooLong : FileFault := numbered "File name too long" 36

def nulInName : FileFault := ⟨"file name contained an unexpected NUL byte", none⟩

def notText : FileFault := ⟨"stream did not contain valid UTF-8", none⟩

end FileFault

/-- How many bytes more an output takes, and what it says of those that come then. -/
structure Room where
  bytes : Nat
  fault : String
  deriving DecidableEq, Repr

/-- A machine. -/
structure Host (World : Type → Type) where
  valueOf : String → World (Option String)
  envFile? : World (Option Bytes)
  readFile : String → World (Except FileFault Bytes)
  /-- Puts text into a file, in the place of what it holds. -/
  writeFile : String → String → World (Except FileFault Unit)
  /-- Everything on the standard input, or why it cannot be read. -/
  input : World (Except String Bytes)
  /-- How much the standard output takes, if it does not take all. -/
  room : World (Option Room)
  wording : World Wording
  /-- The seconds since the start of 1970. -/
  seconds : World UInt32
  timestamp : World String

end RemoteTree
