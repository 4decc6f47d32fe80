import RemoteTree.Json.Basic
import RemoteTree.Stat.Basic

/-!
# Stat records as values

The recorded form of identities and stat records, and the form for readers, which adds the texts
derived from a record.
-/

set_option autoImplicit false

namespace RemoteTree

namespace Qid

def toJson (qid : Qid) : Json :=
  .object [
    ("qtype", .ofNat qid.kind.toNat),
    ("version", .ofNat qid.version.toNat),
    ("path", .ofNat qid.path.toNat)]

def ofJson? (value : Json) : Option Qid :=
  match value.columns? ["qtype", "version", "path"] with
  | some [some kind, some version, some path] => do
      return ⟨← kind.toUInt8?, ← version.toUInt32?, ← path.toUInt64?⟩
  | _ => none

end Qid

namespace Stat

def columnNames : List String :=
  ["type", "dev", "qid", "mode", "atime", "mtime", "length", "name", "uid", "gid", "muid"]

def columns (stat : Stat) : List (String × Json) :=
  [("type", .ofNat stat.type.toNat),
    ("dev", .ofNat stat.device.toNat),
    ("qid", stat.qid.toJson),
    ("mode", .ofNat stat.mode.toNat),
    ("atime", .ofNat stat.accessTime.toNat),
    ("mtime", .ofNat stat.changeTime.toNat),
    ("length", .ofNat stat.length.toNat),
    ("name", .string stat.name),
    ("uid", .string stat.owner),
    ("gid", .string stat.group),
    ("muid", .string stat.changedBy)]

def toJson (stat : Stat) : Json := .object stat.columns

/-- The value of a record with the texts derived from it. -/
def toRecord (stat : Stat) : Json :=
  .object (stat.columns ++ [("modestr", .string stat.modeText), ("timestr", .string stat.timeText)])

def ofJson? (value : Json) : Option Stat :=
  match value.columns? columnNames with
  | some [some type, some device, some qid, some mode, some accessTime, some changeTime,
      some length, some name, some owner, some group, some changedBy] => do
      return {
        type := ← type.toUInt16?
        device := ← device.toUInt32?
        qid := ← Qid.ofJson? qid
        mode := ← mode.toUInt32?
        accessTime := ← accessTime.toUInt32?
        changeTime := ← changeTime.toUInt32?
        length := ← length.toUInt64?
        name := ← name.toText?
        owner := ← owner.toText?
        group := ← group.toText?
        changedBy := ← changedBy.toText? }
  | _ => none

end Stat

end RemoteTree
