import RemoteTree.Program
import Std.Time.DateTime.Timestamp

/-!
# The command line program

The program on a real machine: files, environment, standard streams and clock.
-/

set_option autoImplicit false

namespace RemoteTree

def FileFault.ofError (error : IO.Error) : FileFault :=
  match error with
  | .noFileOrDirectory _ _ _ => .notFound
  | .inappropriateType _ code _ => if code.toNat = 21 then .isDirectory else .notDirectory
  | .invalidArgument _ code _ =>
      if code.toNat = 36 then .nameTooLong else .numbered error.toString code.toNat
  | .permissionDenied _ code _ => .numbered "Permission denied" code.toNat
  | other => ⟨other.toString, none⟩

def faulty {Result : Type} (action : IO Result) : IO (Except FileFault Result) := do
  try
    return .ok (← action)
  catch error => return .error (.ofError error)

/-- The environment file here, in the directory above, and so on. -/
def envFiles : List String :=
  (List.range 64).map fun level => String.join (List.replicate level "../") ++ ".env"

def firstFile : List String → IO (Option Bytes)
  | [] => return none
  | path :: rest => do
      match ← faulty (IO.FS.readBinFile path) with
      | .ok bytes => return some bytes.toList
      | .error _ => firstFile rest

def twoDigits (number : Nat) : String := Moment.twoPlaces "0" number

def timestampOf (seconds : Nat) : String :=
  let moment := Moment.ofSeconds seconds
  Moment.yearText moment.year ++ "-" ++ twoDigits moment.month ++ "-" ++ twoDigits moment.day ++
    "T" ++ twoDigits moment.hour ++ ":" ++ twoDigits moment.minute ++ ":" ++
    twoDigits moment.second ++ "Z"

def secondsNow : IO Nat := do
  return (← Std.Time.Timestamp.now).toSecondsSinceUnixEpoch.val.toNat

partial def readAll (stream : IO.FS.Stream) (read : ByteArray) : IO ByteArray := do
  let piece ← stream.read 65536
  if piece.isEmpty then return read else readAll stream (read ++ piece)

def machine : Host IO where
  valueOf name := IO.getEnv name
  envFile? := firstFile envFiles
  readFile path := faulty (return (← IO.FS.readBinFile path).toList)
  writeFile path text := faulty (IO.FS.writeFile path text)
  input := do
    try
      return .ok (← readAll (← IO.getStdin) .empty).toList
    catch error => return .error error.toString
  room := return none
  wording := return fun _ _ => "unexpected value"
  seconds := return UInt32.ofNat (← secondsNow)
  timestamp := return timestampOf (← secondsNow)

end RemoteTree

def main (arguments : List String) : IO UInt32 := do
  let report ← RemoteTree.Program.execute RemoteTree.machine arguments
  let output ← IO.getStdout
  output.write ⟨report.console.printed.toArray⟩
  output.flush
  for complaint in report.complaints do
    IO.eprintln complaint
  return if report.result.toBool then 0 else 1
