import RemoteTree.Table
import RemoteTree.Yaml.Scanner

/-!
# From tokens to a document

A YAML document as a tree of nodes, and the grammar of YAML over tokens, by recursive descent. An
alias stands for a node that an anchor marks; since that node may hold the alias, aliases are looked
up only when a document is used. A text may hold one document at most.
-/

set_option autoImplicit false

namespace RemoteTree.Yaml

/-- A node. Every node but an alias may have a tag. -/
inductive Node where
  | scalar (text : String) (style : Style) (tag : Option String)
  | sequence (items : List Node) (tag : Option String)
  | mapping (entries : List (Node × Node)) (tag : Option String)
  /-- Stands for the node of an anchor, by the number of the anchor. -/
  | alias (number : Nat)
  deriving Repr, Inhabited

def Node.empty : Node := .scalar "" .plain none

/-- A document: its root, which a text without any document lacks, the nodes that anchors mark,
and the number of nodes and ends of collections that it is made of. -/
structure Document where
  root : Option Node
  marked : Table Nat Node
  size : Nat
  deriving Repr, Inhabited

namespace Grammar

/-- What reading has learned so far: the handles of tags with what they stand for, the number of
every anchor, for every number the latest node that has it, counted in the order in which nodes
start, the marked nodes that are complete, and how many nodes and ends of collections there were. -/
structure Knowledge where
  handles : Table String String
  numbers : Table String Nat
  latest : Table Nat Nat
  complete : Table Nat Node
  started : Nat
  size : Nat

def initial : Knowledge :=
  { handles := []
    numbers := []
    latest := []
    complete := []
    started := 0
    size := 0 }

def standardHandles : Table String String := [("!", "!"), ("!!", "tag:yaml.org,2002:")]

/-- What reading yields: a result, the tokens after it and what has been learned. -/
abbrev Found (Result : Type) := Result × List Token × Knowledge

/-- The properties of a node, and the tokens after them. -/
structure Properties where
  anchor : Option String
  tag : Option (String × String)
  rest : List Token

/-- The properties in front of a node, in either order. -/
def properties : List Token → Properties
  | .anchor name :: .tag handle suffix :: rest => ⟨some name, some (handle, suffix), rest⟩
  | .tag handle suffix :: .anchor name :: rest => ⟨some name, some (handle, suffix), rest⟩
  | .anchor name :: rest => ⟨some name, none, rest⟩
  | .tag handle suffix :: rest => ⟨none, some (handle, suffix), rest⟩
  | rest => ⟨none, none, rest⟩

def fullTag (knowledge : Knowledge) :
    Option (String × String) → Except Fault (Option String)
  | none => .ok none
  | some (handle, suffix) =>
      if handle.isEmpty then .ok (some suffix)
      else
        match Table.find? handle (knowledge.handles ++ standardHandles) with
        | some stem => .ok (some (stem ++ suffix))
        | none => .error (Fault.meaning "found undefined tag handle")

/-- Counts a node that starts. Its anchor, if it has one, gets as number the count of the names of
anchors before it. The answer is the place of the node among the marked ones. -/
def startNode (knowledge : Knowledge) (anchor : Option String) : Option Nat × Knowledge :=
  let knowledge := { knowledge with size := knowledge.size + 1 }
  match anchor with
  | none => (none, knowledge)
  | some name =>
      let number := knowledge.numbers.length
      (some knowledge.started,
        { knowledge with
          numbers := Table.insert name number knowledge.numbers
          latest := Table.insert number knowledge.started knowledge.latest
          started := knowledge.started + 1 })

/-- Keeps a node that has been read, if it is marked. -/
def finishNode (knowledge : Knowledge) (node : Node) : Option Nat → Knowledge
  | none => knowledge
  | some serial => { knowledge with complete := (serial, node) :: knowledge.complete }

/-- A node without parts, read with the tokens after it. -/
def leaf (knowledge : Knowledge) (anchor : Option String) (node : Node) (rest : List Token) :
    Except Fault (Found Node) :=
  let (serial, knowledge) := startNode knowledge anchor
  .ok (node, rest, finishNode knowledge node serial)

/-- An empty scalar where a node is left out. -/
def leftOut (knowledge : Knowledge) (rest : List Token) : Except Fault (Found Node) :=
  leaf knowledge none .empty rest

/-- The tag of a scalar. A lone exclamation mark says nothing about a scalar. -/
def scalarTag (tag : Option String) : Option String := if tag = some "!" then none else tag

def aliasNode (knowledge : Knowledge) (name : String) (rest : List Token) :
    Except Fault (Found Node) :=
  match Table.find? name knowledge.numbers with
  | some number => .ok (.alias number, rest, { knowledge with size := knowledge.size + 1 })
  | none => .error (Fault.meaning "unknown anchor")

/-- Does the token end a node that is left out in a block? -/
def endsInBlock : List Token → Bool
  | .key :: _ | .value :: _ | .blockEntry :: _ | .blockEnd :: _ => true
  | _ => false

/-- A node with parts as it starts: keeps its place among the marked nodes. -/
def collection {Part : Type} (knowledge : Knowledge) (anchor : Option String)
    (parts : Knowledge → Except Fault (Found Part)) (toNode : Part → Node) :
    Except Fault (Found Node) := do
  let (serial, knowledge) := startNode knowledge anchor
  let (part, rest, knowledge) ← parts knowledge
  let node := toNode part
  return (node, rest, finishNode { knowledge with size := knowledge.size + 1 } node serial)

/-- Where a node has properties but nothing else, it is empty. -/
def unexpected (found : Properties) (tag : Option String) (rest : List Token)
    (knowledge : Knowledge) : Except Fault (Found Node) :=
  if found.anchor.isSome || tag.isSome then
    leaf knowledge found.anchor (.scalar "" .plain tag) rest
  else .error (Fault.meaning "did not find expected node content")

mutual

/-- Reads a node. In a block it may be a block itself, and as a part of a mapping a sequence that
is not indented. -/
def node : Nat → Bool → Bool → List Token → Knowledge → Except Fault (Found Node)
  | 0, _, _, _, _ => .error (Fault.meaning "document too large")
  | steps + 1, inBlock, inMapping, tokens, knowledge =>
      match tokens with
      | .alias name :: rest => aliasNode knowledge name rest
      | tokens => do
          let found := properties tokens
          let tag ← fullTag knowledge found.tag
          match found.rest with
          | .scalar text style :: rest =>
              leaf knowledge found.anchor (.scalar text style (scalarTag tag)) rest
          | .flowSequenceStart :: rest =>
              collection knowledge found.anchor (flowItems steps true [] rest) (.sequence · tag)
          | .flowMappingStart :: rest =>
              collection knowledge found.anchor (flowEntries steps true [] rest) (.mapping · tag)
          | rest =>
              match inBlock, rest with
              | true, .blockSequenceStart :: rest =>
                  collection knowledge found.anchor (blockItems steps [] rest) (.sequence · tag)
              | true, .blockMappingStart :: rest =>
                  collection knowledge found.anchor (blockEntries steps [] rest) (.mapping · tag)
              | _, .blockEntry :: after =>
                  if inMapping then
                    collection knowledge found.anchor (plainItems steps [] (.blockEntry :: after))
                      (.sequence · tag)
                  else unexpected found tag rest knowledge
              | _, rest => unexpected found tag rest knowledge

def blockItems : Nat → List Node → List Token → Knowledge → Except Fault (Found (List Node))
  | 0, _, _, _ => .error (Fault.meaning "document too large")
  | steps + 1, items, tokens, knowledge =>
      match tokens with
      | .blockEntry :: rest => do
          let (item, rest, knowledge) ←
            match rest with
            | .blockEntry :: _ | .blockEnd :: _ => leftOut knowledge rest
            | _ => node steps true false rest knowledge
          blockItems steps (item :: items) rest knowledge
      | .blockEnd :: rest => .ok (items.reverse, rest, knowledge)
      | _ => .error (Fault.meaning "did not find expected dash of a block sequence")

def plainItems : Nat → List Node → List Token → Knowledge → Except Fault (Found (List Node))
  | 0, _, _, _ => .error (Fault.meaning "document too large")
  | steps + 1, items, tokens, knowledge =>
      match tokens with
      | .blockEntry :: rest => do
          let (item, rest, knowledge) ←
            if endsInBlock rest then leftOut knowledge rest
            else node steps true false rest knowledge
          plainItems steps (item :: items) rest knowledge
      | rest => .ok (items.reverse, rest, knowledge)

def blockEntries :
    Nat → List (Node × Node) → List Token → Knowledge → Except Fault (Found (List (Node × Node)))
  | 0, _, _, _ => .error (Fault.meaning "document too large")
  | steps + 1, entries, tokens, knowledge =>
      match tokens with
      | .key :: rest => do
          let (key, rest, knowledge) ← blockPart steps rest knowledge
          let (value, rest, knowledge) ←
            match rest with
            | .value :: rest => blockPart steps rest knowledge
            | rest => leftOut knowledge rest
          blockEntries steps ((key, value) :: entries) rest knowledge
      | .blockEnd :: rest => .ok (entries.reverse, rest, knowledge)
      | _ => .error (Fault.meaning "did not find expected key of a block mapping")

def blockPart : Nat → List Token → Knowledge → Except Fault (Found Node)
  | 0, _, _ => .error (Fault.meaning "document too large")
  | steps + 1, tokens, knowledge =>
      match tokens with
      | .key :: _ | .value :: _ | .blockEnd :: _ => leftOut knowledge tokens
      | tokens => node steps true true tokens knowledge

/-- Reads the items between square brackets. Between two of them is a comma; a key makes an item a
mapping of one entry. -/
def flowItems : Nat → Bool → List Node → List Token → Knowledge → Except Fault (Found (List Node))
  | 0, _, _, _, _ => .error (Fault.meaning "document too large")
  | steps + 1, isFirst, items, tokens, knowledge =>
      match isFirst, tokens with
      | _, .flowSequenceEnd :: rest => .ok (items.reverse, rest, knowledge)
      | true, tokens => flowItem steps items tokens knowledge
      | false, .flowEntry :: .flowSequenceEnd :: rest => .ok (items.reverse, rest, knowledge)
      | false, .flowEntry :: rest => flowItem steps items rest knowledge
      | false, _ => .error (Fault.meaning "did not find expected comma or bracket")

/-- Reads one item between square brackets and those after it. -/
def flowItem : Nat → List Node → List Token → Knowledge → Except Fault (Found (List Node))
  | 0, _, _, _ => .error (Fault.meaning "document too large")
  | steps + 1, items, tokens, knowledge =>
      match tokens with
      | .key :: rest => do
          let (item, rest, knowledge) ←
            collection knowledge none (flowPair steps rest) fun entry => .mapping [entry] none
          flowItems steps false (item :: items) rest knowledge
      | tokens => do
          let (item, rest, knowledge) ← node steps false false tokens knowledge
          flowItems steps false (item :: items) rest knowledge

/-- Reads the one entry of an item that is a mapping. Where its key is left out the token behind it
is passed over. -/
def flowPair : Nat → List Token → Knowledge → Except Fault (Found (Node × Node))
  | 0, _, _ => .error (Fault.meaning "document too large")
  | steps + 1, tokens, knowledge => do
      let (key, rest, knowledge) ←
        match tokens with
        | .value :: rest => leftOut knowledge rest
        | .flowEntry :: rest => leftOut knowledge rest
        | .flowSequenceEnd :: rest => leftOut knowledge rest
        | tokens => node steps false false tokens knowledge
      let (value, rest, knowledge) ←
        match rest with
        | .value :: .flowEntry :: rest => leftOut knowledge (.flowEntry :: rest)
        | .value :: .flowSequenceEnd :: rest => leftOut knowledge (.flowSequenceEnd :: rest)
        | .value :: rest => node steps false false rest knowledge
        | rest => leftOut knowledge rest
      return ((key, value), rest, knowledge)

/-- Reads the entries between curly brackets. Between two of them is a comma. -/
def flowEntries :
    Nat → Bool → List (Node × Node) → List Token → Knowledge →
      Except Fault (Found (List (Node × Node)))
  | 0, _, _, _, _ => .error (Fault.meaning "document too large")
  | steps + 1, isFirst, entries, tokens, knowledge =>
      match isFirst, tokens with
      | _, .flowMappingEnd :: rest => .ok (entries.reverse, rest, knowledge)
      | true, tokens => flowEntry steps entries tokens knowledge
      | false, .flowEntry :: .flowMappingEnd :: rest => .ok (entries.reverse, rest, knowledge)
      | false, .flowEntry :: rest => flowEntry steps entries rest knowledge
      | false, _ => .error (Fault.meaning "did not find expected comma or bracket")

/-- Reads one entry between curly brackets and those after it. -/
def flowEntry :
    Nat → List (Node × Node) → List Token → Knowledge → Except Fault (Found (List (Node × Node)))
  | 0, _, _, _ => .error (Fault.meaning "document too large")
  | steps + 1, entries, tokens, knowledge =>
      match tokens with
      | .key :: rest => do
          let (key, rest, knowledge) ← flowPart steps rest knowledge
          let (value, rest, knowledge) ←
            match rest with
            | .value :: rest => flowValue steps rest knowledge
            | rest => leftOut knowledge rest
          flowEntries steps false ((key, value) :: entries) rest knowledge
      | tokens => do
          let (key, rest, knowledge) ← node steps false false tokens knowledge
          let (value, rest, knowledge) ← leftOut knowledge rest
          flowEntries steps false ((key, value) :: entries) rest knowledge

/-- Reads a key between curly brackets that has its indicator. -/
def flowPart : Nat → List Token → Knowledge → Except Fault (Found Node)
  | 0, _, _ => .error (Fault.meaning "document too large")
  | steps + 1, tokens, knowledge =>
      match tokens with
      | .value :: _ | .flowEntry :: _ | .flowMappingEnd :: _ => leftOut knowledge tokens
      | tokens => node steps false false tokens knowledge

def flowValue : Nat → List Token → Knowledge → Except Fault (Found Node)
  | 0, _, _ => .error (Fault.meaning "document too large")
  | steps + 1, tokens, knowledge =>
      match tokens with
      | .flowEntry :: _ | .flowMappingEnd :: _ => leftOut knowledge tokens
      | tokens => node steps false false tokens knowledge

end

/-- Reads the directives in front of a document: a version, at most once, and handles of tags. -/
def directives : Bool → Table String String → List Token →
    Except Fault (Table String String × List Token)
  | versioned, handles, .version major minor :: rest =>
      if versioned then .error (Fault.meaning "found duplicate version directive")
      else if major = 1 ∧ (minor = 1 ∨ minor = 2) then directives true handles rest
      else .error (Fault.meaning "found incompatible document")
  | versioned, handles, .tagDirective handle stem :: rest =>
      if (Table.find? handle handles).isSome then
        .error (Fault.meaning "found duplicate tag directive")
      else directives versioned (Table.insert handle stem handles) rest
  | _, handles, rest => .ok (handles, rest)

def isOver : List Token → Bool
  | .documentEnd :: rest => isOver rest
  | .streamEnd :: _ => true
  | _ => false

/-- Reads the root of a document that has a mark at its start. -/
def markedRoot (steps : Nat) (tokens : List Token) (knowledge : Knowledge) :
    Except Fault (Found Node) :=
  match tokens with
  | .version _ _ :: _ | .tagDirective _ _ :: _ | .documentStart :: _ | .documentEnd :: _
  | .streamEnd :: _ => leftOut knowledge tokens
  | tokens => node steps true false tokens knowledge

def root (steps : Nat) (tokens : List Token) : Except Fault (Found Node) :=
  match tokens with
  | .version _ _ :: _ | .tagDirective _ _ :: _ | .documentStart :: _ => do
      let (handles, rest) ← directives false [] tokens
      match rest with
      | .documentStart :: rest => markedRoot steps rest { initial with handles := handles }
      | _ => throw (Fault.meaning "did not find expected document start")
  | tokens => node steps true false tokens initial

/-- The nodes that anchors mark, by the numbers of the anchors. -/
def marked (knowledge : Knowledge) : Table Nat Node :=
  knowledge.latest.filterMap fun (number, serial) =>
    (Table.find? serial knowledge.complete).map fun node => (number, node)

end Grammar

namespace Document

def ofTokens (tokens : List Token) : Except Fault Document :=
  match tokens with
  | .streamEnd :: _ => .ok ⟨none, [], 1⟩
  | tokens => do
      let (root, rest, knowledge) ← Grammar.root (4 * tokens.length + 8) tokens
      if Grammar.isOver rest then
        return ⟨some root, Grammar.marked knowledge, knowledge.size⟩
      else throw (Fault.meaning "did not find expected end of the document")

def ofText (text : String) : Except Fault Document := do
  ofTokens (← Token.ofText text)

end Document

end RemoteTree.Yaml
