import RemoteTree.Client.Basic
import RemoteTree.Client.Error

/-!
# Whole transfers

Reading a small file at once and writing all of some data, over servers that deliver and accept
fewer bytes than they are offered.
-/

set_option autoImplicit false

namespace RemoteTree.Client

/-- May a buffer have this size? Without a limit every buffer may be made. -/
def fits (limit : Option Nat) (size : Nat) : Bool :=
  match limit with
  | some most => size ≤ most
  | none => true

/-- The most bytes that reading a file at once returns. What lies behind them is not read. -/
def readLimit : Nat := 4096

/-- Reads until the server has no more or `readLimit` bytes are there. `collected` has been read;
`tail` is the buffer behind it. When a buffer that is smaller than `readLimit` is full it grows,
once, to `readLimit`. Every read but the last delivers a byte, so `readLimit + 1` of them are
always enough. -/
def collect (handle : Handle) (path : String) (limit : Option Nat) :
    Nat → Bytes → Bytes → Client (Except ClientError Bytes)
  | 0, collected, _ => .done (.ok collected)
  | reads + 1, collected, tail =>
      let window := tail.take handle.transferSize
      .ask (.readFrom handle window none) fun delivery =>
        match delivery.claimed with
        | .error source => .done (.error (.read path source))
        | .ok 0 => .done (.ok collected)
        | .ok count =>
            if window.length < count then
              .done (.error (.protocol path (.overlongRead count window.length)))
            else
              let filled := Bytes.overlay delivery.received window
              let collected := collected ++ filled.take count
              let tail := filled.drop count ++ tail.drop handle.transferSize
              if !tail.isEmpty then collect handle path limit reads collected tail
              else if readLimit ≤ collected.length then .done (.ok collected)
              else if fits limit readLimit then
                collect handle path limit reads collected
                  (Bytes.zeros (readLimit - collected.length))
              else .done (.error (.allocate path readLimit))

/-- The contents of an open file, up to `readLimit` bytes. -/
def readCapped (handle : Handle) (path : String) (limit : Option Nat) :
    Client (Except ClientError Bytes) :=
  let size := min handle.transferSize readLimit
  if fits limit size then
    collect handle path limit (readLimit + 1) [] (Bytes.zeros size)
  else .done (.error (.allocate path size))

/-- The refusal that a write amounts to when the server takes nothing. -/
def acceptedNothing : Refusal := .failed "server accepted no bytes" none

/-- Offers what the server has not taken yet until nothing is left. Every accepted write takes a
byte, so as many writes as there are bytes are enough. -/
def offer (handle : Handle) (path : String) : Nat → Bytes → Client (Except ClientError Unit)
  | _, [] => .done (.ok ())
  | 0, _ => .done (.ok ())
  | writes + 1, remaining =>
      .ask (.writeTo handle remaining) fun reply =>
        match reply with
        | .error source => .done (.error (.write path source))
        | .ok count =>
            if remaining.length < count then
              .done (.error (.protocol path (.overlongWrite count remaining.length)))
            else if count = 0 then .done (.error (.write path acceptedNothing))
            else offer handle path writes (remaining.drop count)

def writeAll (handle : Handle) (path : String) (data : Bytes) :
    Client (Except ClientError Unit) :=
  offer handle path data.length data

end RemoteTree.Client
