import RemoteTree.Server.Basic
import RemoteTree.Stat.Wire

/-!
# Client errors

What a client operation reports when it fails: which operation, on which file, and why.
-/

set_option autoImplicit false

namespace RemoteTree

/-- How a server broke the rules of its protocol. -/
inductive Violation where
  | overlongRead (claimed requested : Nat)
  | overlongWrite (claimed offered : Nat)
  | cutRecord (shortfall : Shortfall)
  /-- Some other breach, in words. -/
  | described (detail : String)
  deriving DecidableEq, Repr

def Violation.detail : Violation → String
  | .overlongRead claimed requested =>
      "server returned " ++ toString claimed ++ " bytes for " ++ toString requested
  | .overlongWrite claimed offered =>
      "server wrote " ++ toString claimed ++ " bytes of " ++ toString offered
  | .cutRecord shortfall => shortfall.message
  | .described detail => detail

/-- A failed operation of a client. -/
inductive ClientError where
  | connect (address : String) (source : Refusal)
  | openFile (path : String) (source : Refusal)
  | read (path : String) (source : Refusal)
  | write (path : String) (source : Refusal)
  | allocate (path : String) (size : Nat)
  | protocol (path : String) (violation : Violation)
  | create (path : String) (source : Refusal)
  | remove (path : String) (source : Refusal)
  | stat (path : String) (source : Refusal)
  deriving DecidableEq, Repr

namespace ClientError

/-- The refusal behind an error, if a server refused something. -/
def refusal? : ClientError → Option Refusal
  | .connect _ source => some source
  | .openFile _ source => some source
  | .read _ source => some source
  | .write _ source => some source
  | .create _ source => some source
  | .remove _ source => some source
  | .stat _ source => some source
  | .allocate _ _ => none
  | .protocol _ _ => none

def code (error : ClientError) : Option Int32 := error.refusal?.bind Refusal.code

def message : ClientError → String
  | .connect address source =>
      "could not open ixp connection to " ++ address ++ ": " ++ source.message
  | .openFile path source => "could not open p9 file " ++ path ++ ": " ++ source.message
  | .read path source => "failed to read from p9 file " ++ path ++ ": " ++ source.message
  | .write path source => "failed to write to p9 file " ++ path ++ ": " ++ source.message
  | .allocate path size => "could not allocate " ++ toString size ++ " bytes for " ++ path
  | .protocol path violation => "protocol violation on " ++ path ++ ": " ++ violation.detail
  | .create path source => "could not create file " ++ path ++ ": " ++ source.message
  | .remove path source => "failed to remove p9 file " ++ path ++ ": " ++ source.message
  | .stat path source => "cannot stat file " ++ path ++ ": " ++ source.message

end ClientError

/-- What a script sees of a failed operation. -/
structure Failure where
  message : String
  code : Option Int32
  deriving DecidableEq, Repr

namespace Failure

def ofError (error : ClientError) : Failure := ⟨error.message, error.code⟩

/-- The failure on one line, with its error number where there is one. -/
def text (failure : Failure) : String :=
  match failure.code with
  | some code => failure.message ++ " (code " ++ toString code.toInt ++ ")"
  | none => failure.message

end Failure

end RemoteTree
