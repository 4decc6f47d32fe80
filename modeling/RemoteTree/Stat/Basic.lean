import RemoteTree.Time.Calendar

/-!
# Stat records

What a file server says about one file, and the two texts derived from it: the permission string
and the time of the last change.
-/

set_option autoImplicit false

namespace RemoteTree

/-- The bit of a mode that marks a directory. -/
def directoryMode : UInt32 := 0x80000000

/-- The bit of a kind of identity that marks a directory. -/
def directoryKind : UInt8 := 0x80

/-- The identity of a file on its server. -/
structure Qid where
  kind : UInt8
  version : UInt32
  path : UInt64
  deriving DecidableEq, Repr, Inhabited

/-- One file's metadata. Times count seconds from the start of 1970. -/
structure Stat where
  type : UInt16
  device : UInt32
  qid : Qid
  mode : UInt32
  accessTime : UInt32
  changeTime : UInt32
  length : UInt64
  name : String
  owner : String
  group : String
  changedBy : String
  deriving DecidableEq, Repr, Inhabited

namespace Stat

def isDirectory (stat : Stat) : Bool := stat.mode &&& directoryMode != 0

/-- The permissions of one class of users, from three bits. -/
def permissionText (bits : UInt32) : String :=
  (if bits &&& 4 != 0 then "r" else "-") ++ (if bits &&& 2 != 0 then "w" else "-") ++
    (if bits &&& 1 != 0 then "x" else "-")

/-- The type of the file and the permissions of owner, group and others, in ten characters. -/
def modeText (stat : Stat) : String :=
  (if stat.isDirectory then "d" else "-") ++ permissionText (stat.mode >>> 6) ++
    permissionText (stat.mode >>> 3) ++ permissionText stat.mode

/-- The time of the last change in a zone that lies the given number of seconds east. -/
def timeTextAt (stat : Stat) (offset : Int) : String :=
  (Moment.ofSeconds (stat.changeTime.toNat + offset)).line

def timeText (stat : Stat) : String := stat.timeTextAt 0

/-- The name as listings show it: a directory's ends with a slash. -/
def displayName (stat : Stat) : String :=
  if stat.isDirectory then stat.name ++ "/" else stat.name

/-- A number in at least five places. -/
def lengthText (length : UInt64) : String :=
  let digits := toString length.toNat
  "".pushn ' ' (5 - digits.length) ++ digits

def longLine (stat : Stat) : String :=
  stat.modeText ++ " " ++ stat.owner ++ " " ++ stat.group ++ " " ++ lengthText stat.length ++
    " " ++ stat.timeText ++ " " ++ stat.displayName

end Stat

end RemoteTree
