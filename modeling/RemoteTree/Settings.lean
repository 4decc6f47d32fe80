/-!
# Settings

Where to connect, and where to keep a recording of the session, from the command line and the
environment. An empty variable counts as none.
-/

set_option autoImplicit false

namespace RemoteTree

/-- What a session needs to know. -/
structure Settings where
  address : String
  record : Option String
  deriving DecidableEq, Repr

namespace Settings

def addressVariable : String := "WMII_ADDRESS"

def namespaceVariable : String := "NAMESPACE"

def recordVariable : String := "IXP_RECORD"

def variableNames : List String :=
  [addressVariable, namespaceVariable, recordVariable, "USER", "LOGNAME", "DISPLAY"]

/-- A display without its screen, if that is the first one. -/
def withoutScreen (display : String) : String :=
  if display.endsWith ".0" then (display.dropEnd 2).toString else display

def defaultNamespace (valueOf : String → Option String) : String :=
  let user := ((valueOf "USER").orElse fun _ => valueOf "LOGNAME").getD "none"
  "/tmp/ns." ++ user ++ "." ++ withoutScreen ((valueOf "DISPLAY").getD ":0")

def defaultAddress (valueOf : String → Option String) : String :=
  match valueOf addressVariable with
  | some address => address
  | none =>
      "unix!" ++ (valueOf namespaceVariable).getD (defaultNamespace valueOf) ++ "/wmii"

def resolve (address : Option String) (environment : String → Option String) : Settings :=
  let valueOf := fun name => (environment name).filter fun value => !value.isEmpty
  { address := address.getD (defaultAddress valueOf)
    record := valueOf recordVariable }

end Settings

end RemoteTree
