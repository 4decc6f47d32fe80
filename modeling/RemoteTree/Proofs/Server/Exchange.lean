import RemoteTree.Server.Basic

/-!
# Requests and exchanges

What a request is about, and what a list of exchanges says of the files that were opened and
closed in it.
-/

set_option autoImplicit false

namespace RemoteTree

namespace Request

def isRead : Request → Bool
  | .readFrom _ _ _ => true
  | _ => false

def handle? : Request → Option Handle
  | .readFrom handle _ _ => some handle
  | .writeTo handle _ => some handle
  | .closeFile handle => some handle
  | _ => none

end Request

/-- The server never claims to have delivered more than the buffer of a read holds. -/
def Server.StaysWithin {State : Type} (server : Server State) : Prop :=
  ∀ handle buffer wait state count,
    (server.answer (.readFrom handle buffer wait) state).1.claimed = .ok count →
      count ≤ buffer.length

/-- A request with the answer it got. -/
structure Exchange where
  request : Request
  reply : request.Reply

namespace Exchange

/-- The handle that an exchange brought. -/
def opened? : Exchange → Option Handle
  | ⟨.openFile _ _, .ok handle⟩ => some handle
  | ⟨.createFile _ _ _, .ok handle⟩ => some handle
  | _ => none

/-- The handle that an exchange gave back. -/
def closed? : Exchange → Option Handle
  | ⟨.closeFile handle, _⟩ => some handle
  | _ => none

end Exchange

def opened (exchanges : List Exchange) : List Handle := exchanges.filterMap Exchange.opened?

def closed (exchanges : List Exchange) : List Handle := exchanges.filterMap Exchange.closed?

@[simp] theorem opened_nil : opened [] = [] := rfl

@[simp] theorem closed_nil : closed [] = [] := rfl

theorem opened_cons (exchange : Exchange) (rest : List Exchange) :
    opened (exchange :: rest) = exchange.opened?.toList ++ opened rest := by
  rw [opened, List.filterMap_cons]
  cases exchange.opened? <;> rfl

theorem closed_cons (exchange : Exchange) (rest : List Exchange) :
    closed (exchange :: rest) = exchange.closed?.toList ++ closed rest := by
  rw [closed, List.filterMap_cons]
  cases exchange.closed? <;> rfl

/-- Every exchange that names a handle takes place while the handle has been brought more often
than given back, so files are used between being opened and being closed, and closed once. -/
def Orderly (exchanges : List Exchange) : Prop :=
  ∀ before exchange after handle, exchanges = before ++ exchange :: after →
    exchange.request.handle? = some handle →
      (closed before).count handle < (opened before).count handle

def StaysMounted (exchanges : List Exchange) : Prop :=
  ∀ exchange ∈ exchanges, exchange.request ≠ .unmount

/-- The last exchange unmounts the tree, and no other. -/
def EndsUnmounted (exchanges : List Exchange) : Prop :=
  ∃ before reply, exchanges = before ++ [⟨.unmount, reply⟩] ∧ StaysMounted before

end RemoteTree
