import Mathlib

/-!
# The OTB loader

`OTB::Loader` (`io/fileloader.cpp`): the bytes of a file are parsed to a tree of nodes by one loop
with a stack of open nodes. A node keeps where its properties begin and end in the file; `getProps`
takes the escapes out of them.

An iterator is the place in the file it points to. Reading at the end of the file, which the source
would not notice, is the error `pastEnd` here.

## Main definitions

* `OTB.Node` — a node of the parsed tree.
* `OTB.parseTree`, `OTB.getProps` — the parser and the properties of a node.
-/

namespace TiabloServer.OTB

/-! ## Nodes -/

/-- `Node::NodeChar`. -/
def ESCAPE : UInt8 := 0xFD
def START : UInt8 := 0xFE
def END : UInt8 := 0xFF

/-- What parsing can end in: the exception of the source, or a read past the end of the file. -/
inductive LoadError where
  | InvalidOTBFormat
  | pastEnd
deriving DecidableEq

/-- `OTB::Node`; the end of the properties has no value until it has been found. -/
inductive Node where
  | node (type : UInt8) (propsBegin : ℕ) (propsEnd : Option ℕ) (children : List Node)

/-- A node whose end has not been found yet, with the children that have been closed. -/
structure OpenNode where
  type : UInt8
  propsBegin : ℕ
  propsEnd : Option ℕ
  children : List Node

/-- The node once its end has been found. -/
def OpenNode.close (n : OpenNode) : Node := .node n.type n.propsBegin n.propsEnd n.children

/-- `NodeStack`: the open nodes, or the root when all have been closed. The child that is being
parsed is in the list of its parent in the source; here it is added when it is closed. -/
inductive NodeStack where
  | empty (root : Node)
  | push (current : OpenNode) (parents : List OpenNode)

/-! ## Parsing -/

/-- `constexpr auto minimalSize`. -/
def minimalSize : ℕ := 7

def wildcard : List UInt8 := [0, 0, 0, 0]

/-- The constructor `Loader::Loader`. -/
def checkHeader (fileContents acceptedIdentifier : List UInt8) : Except LoadError Unit :=
  if fileContents.length ≤ minimalSize then .error .InvalidOTBFormat
  else
    let fileIdentifier := fileContents.take 4
    if fileIdentifier ≠ acceptedIdentifier ∧ fileIdentifier ≠ wildcard then
      .error .InvalidOTBFormat
    else .ok ()

/-- Sets the end of the properties of a node that has no children yet. -/
def OpenNode.endProps (n : OpenNode) (it : ℕ) : OpenNode :=
  if n.children.isEmpty then { n with propsEnd := some it } else n

/-- The case `Node::END` of the loop: the current node is popped. -/
def NodeStack.pop (current : OpenNode) : List OpenNode → NodeStack
  | [] => .empty current.close
  | parent :: parents =>
    .push { parent with children := parent.children ++ [current.close] } parents

/-- `*it`. -/
def byteAt (fileContents : List UInt8) (it : ℕ) : Except LoadError UInt8 :=
  match fileContents[it]? with
  | none => .error .pastEnd
  | some b => .ok b

/-- The loop of `Loader::parseTree`. -/
def parseLoop (fileContents : List UInt8) (it : ℕ) (parseStack : NodeStack) :
    Except LoadError Node :=
  if it = fileContents.length then
    match parseStack with
    | .empty root => .ok root
    | .push _ _ => .error .InvalidOTBFormat
  else
    match hbyte : byteAt fileContents it with
    | .error e => .error e
    | .ok byte =>
      have hlt : it < fileContents.length := by
        by_contra hle
        rw [byteAt, List.getElem?_eq_none (not_lt.1 hle)] at hbyte
        exact nomatch hbyte
      if byte = START then
        match parseStack with
        | .empty _ => .error .InvalidOTBFormat
        | .push current parents =>
          if it + 1 = fileContents.length then .error .InvalidOTBFormat
          else
            match byteAt fileContents (it + 1) with
            | .error e => .error e
            | .ok type =>
              parseLoop fileContents (it + 2)
                (.push ⟨type, it + 2, none, []⟩ (current.endProps it :: parents))
      else if byte = END then
        match parseStack with
        | .empty _ => .error .InvalidOTBFormat
        | .push current parents =>
          parseLoop fileContents (it + 1) (NodeStack.pop (current.endProps it) parents)
      else if byte = ESCAPE then
        if it + 1 = fileContents.length then .error .InvalidOTBFormat
        else parseLoop fileContents (it + 2) parseStack
      else parseLoop fileContents (it + 1) parseStack
termination_by fileContents.length - it

/-- `Loader::parseTree`. -/
def parseTree (fileContents : List UInt8) : Except LoadError Node := do
  let start ← byteAt fileContents 4
  if start ≠ START then .error .InvalidOTBFormat
  else
    let type ← byteAt fileContents 5
    parseLoop fileContents 6 (.push ⟨type, 6, none, []⟩ [])

/-- A loader that is made and used at once. -/
def load (fileContents acceptedIdentifier : List UInt8) : Except LoadError Node := do
  checkHeader fileContents acceptedIdentifier
  parseTree fileContents

/-! ## Properties -/

/-- `std::copy_if` with the lambda of `getProps`, which remembers whether the last byte was an
escape. -/
def copyUnescaped (lastEscaped : Bool) : List UInt8 → List UInt8
  | [] => []
  | byte :: bytes =>
    let lastEscaped := byte == ESCAPE && !lastEscaped
    if lastEscaped then copyUnescaped lastEscaped bytes
    else byte :: copyUnescaped lastEscaped bytes

/-- `Loader::getProps`: nothing where the source returns `false`. -/
def getProps (fileContents : List UInt8) : Node → Option (List UInt8)
  | .node _ _ none _ => none
  | .node _ propsBegin (some propsEnd) _ =>
    if propsEnd - propsBegin = 0 then none
    else some (copyUnescaped false
      ((fileContents.drop propsBegin).take (propsEnd - propsBegin)))

end TiabloServer.OTB
