import RemoteTree.Host.Basic
import RemoteTree.Tape.File
import RemoteTree.Tape.Player
import RemoteTree.Text.Quoted
import RemoteTree.Tree.Fixture
import RemoteTree.Tree.Service

/-!
# Mounting

From an address to a server. An address names a kind of server and, behind an exclamation mark,
where to find it: a fixture to serve from memory, or a tape to play.
-/

set_option autoImplicit false

namespace RemoteTree

/-- What an address refers to. -/
inductive Source where
  | fixture (path : String)
  | tape (path : String)
  deriving DecidableEq, Repr

/-- A server that has been mounted: a tree in memory or a tape that is being played. -/
inductive Mounted where
  | tree (tree : Tree)
  | player (player : Player)

namespace Mounted

def server : Server Mounted where
  answer request
    | .tree state =>
        let (reply, state) := Tree.server.answer request state
        (reply, .tree state)
    | .player state =>
        let (reply, state) := Player.server.answer request state
        (reply, .player state)

end Mounted

namespace Source

def split? (address : String) : Option (String × String) :=
  let kind := address.toList.takeWhile (· != '!')
  match address.toList.drop kind.length with
  | _ :: locator => some (String.ofList kind, String.ofList locator)
  | [] => none

def malformed (address : String) : Refusal :=
  .failed ("malformed address " ++ Text.quoted address ++ ", expected <transport>!<locator>")
    (some 22)

def unknownKind (kind : String) : Refusal :=
  .failed
    ("no client for transport " ++ Text.quoted kind ++
      "; use a mem!<fixture.yaml> or replay!<cassette.yaml> address") none

def ofAddress (address : String) : Except Refusal Source :=
  match split? address with
  | none => .error (malformed address)
  | some ("mem", locator) => .ok (.fixture locator)
  | some ("replay", locator) => .ok (.tape locator)
  | some (kind, _) => .error (unknownKind kind)

def path : Source → String
  | .fixture path => path
  | .tape path => path

def textOf (contents : Except FileFault Bytes) : Except FileFault String :=
  match contents with
  | .error fault => .error fault
  | .ok bytes =>
      match Utf8.decode? bytes with
      | some text => .ok text
      | none => .error .notText

def treeOf (path : String) (clock : UInt32) (contents : Except FileFault Bytes) :
    Except Refusal Tree :=
  match textOf contents with
  | .error fault =>
      .error (.failed ("failed to read fixture " ++ path ++ ": " ++ fault.message) fault.code)
  | .ok text =>
      match Fixture.ofText text with
      | .ok described => .ok (described.tree clock)
      | .error fault =>
          .error
            (.failed ("failed to parse fixture " ++ path ++ ": " ++ fault.message) (some 22))

def tapeOf (contents : Except FileFault Bytes) : Except FileFault Tape :=
  match textOf contents with
  | .error fault => .error fault
  | .ok text => (Tape.ofText text).mapError fun fault => ⟨fault.message, none⟩

def playerOf (wording : Wording) (path : String) (contents : Except FileFault Bytes) :
    Except Refusal Player :=
  match tapeOf contents with
  | .ok recorded => .ok (Player.ofInteractions wording recorded.interactions)
  | .error fault =>
      .error (.failed ("failed to load cassette " ++ path ++ ": " ++ fault.message) fault.code)

def mount (source : Source) (clock : UInt32) (wording : Wording)
    (contents : Except FileFault Bytes) : Except Refusal Mounted :=
  match source with
  | .fixture path => (treeOf path clock contents).map .tree
  | .tape path => (playerOf wording path contents).map .player

end Source

end RemoteTree
