/-!
# Paths

Places in a tree of files. A path is written with slashes; empty segments and segments that are a
single dot do not count, so one place has many spellings.
-/

set_option autoImplicit false

namespace RemoteTree

/-- The root of a tree, or a name in the directory at another path. -/
inductive Path where
  | root
  | child (parent : Path) (name : String)
  deriving DecidableEq, Repr, Inhabited

namespace Path

def segments : List Char → List (List Char)
  | [] => [[]]
  | character :: rest =>
      if character = '/' then [] :: segments rest
      else
        match segments rest with
        | [] => [[character]]
        | first :: others => (character :: first) :: others

def isName (segment : List Char) : Bool := segment ≠ [] && segment ≠ ['.']

def namesOf (text : String) : List String :=
  ((segments text.toList).filter isName).map String.ofList

def ofNames (names : List String) : Path := names.foldl child root

def ofText (text : String) : Path := ofNames (namesOf text)

def names : Path → List String
  | root => []
  | child parent name => parent.names ++ [name]

/-- The one spelling of a path without anything superfluous. -/
def text : Path → String
  | root => "/"
  | child root name => "/" ++ name
  | child parent name => parent.text ++ "/" ++ name

/-- The directory that holds a path. The root is in none. -/
def parent? : Path → Option Path
  | root => none
  | child parent _ => some parent

/-- The name of a path in its directory. The root goes by a slash. -/
def name : Path → String
  | root => "/"
  | child _ name => name

end Path

end RemoteTree
