import RemoteTree.Server.Basic

/-!
# Client programs

A client program is either done with a result or makes a request and goes on with the reply. What
a program does on every server can be said of the program alone; on one server it is run.
-/

set_option autoImplicit false

namespace RemoteTree

/-- A program that talks to a file server. -/
inductive Client (Result : Type) : Type where
  | done (result : Result)
  | ask (request : Request) (next : request.Reply → Client Result)

namespace Client

variable {First Second Third State : Type}

def andThen : Client First → (First → Client Second) → Client Second
  | .done result, next => next result
  | .ask request rest, next => .ask request fun reply => (rest reply).andThen next

instance : Monad Client where
  pure := .done
  bind := andThen

def request (request : Request) : Client request.Reply := .ask request .done

def run (server : Server State) : Client First → State → First × State
  | .done result, state => (result, state)
  | .ask request next, state =>
      let (reply, state) := server.answer request state
      (next reply).run server state

@[simp] theorem pure_eq_done (result : First) : (pure result : Client First) = .done result := rfl

@[simp] theorem bind_eq_andThen (program : Client First) (next : First → Client Second) :
    program >>= next = program.andThen next := rfl

@[simp] theorem andThen_done (program : Client First) : program.andThen .done = program := by
  induction program with
  | done => rfl
  | ask request rest ih => simp only [andThen, ih]

theorem andThen_assoc (program : Client First) (middle : First → Client Second)
    (last : Second → Client Third) :
    (program.andThen middle).andThen last =
      program.andThen fun result => (middle result).andThen last := by
  induction program with
  | done => rfl
  | ask request rest ih => simp only [andThen, ih]

instance : LawfulMonad Client :=
  LawfulMonad.mk' Client
    (fun program => andThen_done program)
    (fun _ _ => rfl)
    (fun program middle last => andThen_assoc program middle last)

/-- A program in two parts runs its first part, then its second on the state that is left. -/
theorem run_andThen (server : Server State) (program : Client First)
    (next : First → Client Second) (state : State) :
    (program.andThen next).run server state =
      (next (program.run server state).1).run server (program.run server state).2 := by
  induction program generalizing state with
  | done => rfl
  | ask request rest ih => simp only [andThen, run, ih]

end Client

end RemoteTree
