import GunyahVmm.CrosFdt.Blob
import GunyahVmm.Lib.Arith
import GunyahVmm.Lib.IndexMap

/-! The nodes of a device tree and the strings with the names of their properties, parsed and
written. -/

namespace GunyahVmm.CrosFdt
open Run

def fdtBeginNode : BitVec 32 := 0x1

def fdtEndNode : BitVec 32 := 0x2

def fdtProp : BitVec 32 := 0x3

def fdtNop : BitVec 32 := 0x4

def fdtEnd : BitVec 32 := 0x9

/-! ## Strings block -/

/-- The order of `string_offsets` is never looked at. -/
structure FdtStrings where
  strings : Blob
  stringOffsets : IndexMap Str (BitVec 32)

namespace FdtStrings

def default : FdtStrings := ⟨[], .empty⟩

def collect : List Blob → Nat → IndexMap Str (BitVec 32) →
    Outcome Error (IndexMap Str (BitVec 32))
  | [], _, offsets => .ok offsets
  | bytes :: rest, offset, offsets =>
    if bytes.isEmpty then .ok offsets
    else if validUtf8 bytes = false then parseError .invalidValueInStringsBlock
    else if bytes.length + 1 < u32Size then do
      let next ← addU32 offset (bytes.length + 1)
      collect rest next (offsets.insert bytes (BitVec.ofNat 32 offset))
    else .err .binarySizeTooLarge

def fromBlob (input : Blob) : Outcome Error FdtStrings :=
  if input.getLast?.any (· ≠ 0) then parseError .stringsBlockMissingNullTerminator
  else do
    let stringOffsets ← collect (splitBytes 0 input) 0 .empty
    .ok ⟨input, stringOffsets⟩

def internString (s : FdtStrings) (name : Str) : BitVec 32 × FdtStrings :=
  match s.stringOffsets.get name with
  | some off => (off, s)
  | none =>
    let off := BitVec.ofNat 32 s.strings.length
    (off, ⟨s.strings ++ name ++ [0], s.stringOffsets.insert name off⟩)

def atOffset (s : FdtStrings) (off : BitVec 32) : Option Str :=
  if off.toNat ≤ s.strings.length then
    (cStrToString (s.strings.drop off.toNat)).filter fun name => !name.isEmpty
  else none

end FdtStrings

/-! ## Nodes -/

/-- A node with its properties and its children, each under its own name. -/
structure FdtNode where
  name : Str
  props : IndexMap Str Blob
  subnodes : List FdtNode

namespace FdtNode

def new (name : Str) (props : IndexMap Str Blob) (subnodes : List FdtNode) :
    Outcome Error FdtNode :=
  if isValidNodeName name = false then .err (.invalidName name)
  else
    match props.keys.find? fun pname => !isValidPropName pname with
    | some pname => .err (.invalidName pname)
    | none => .ok ⟨name, props, subnodes⟩

def empty (name : Str) : Outcome Error FdtNode := new name .empty []

/-! ### Parsing -/

def readToken : Nat → Blob → Outcome Error (BitVec 32 × Blob)
  | 0, _ => .panic
  | fuel + 1, input => do
    let (value, input) ← rdu32 input
    if value ≠ fdtNop then .ok (value, input) else readToken fuel input

/-- What the loop of `parse_node` has collected. -/
structure Contents where
  props : IndexMap Str Blob
  subnodes : List FdtNode
  encounteredSubnode : Bool

def parseProp (strings : FdtStrings) (st : Contents) (input : Blob) :
    Outcome Error (Contents × Blob) :=
  if st.encounteredSubnode then parseError .unexpectedPropTokenAfterSubnode
  else do
    let (propLen, input) ← rdu32 input
    let (propNameOffset, input) ← rdu32 input
    let (propBlob, input) ← consume input (propLen.toNat + alignPadLen propLen.toNat 4)
    let propName ← okOr (strings.atOffset propNameOffset)
      (.fdtParseError (.invalidPropertyNameAt propNameOffset))
    let value ← slice propBlob 0 propLen.toNat
    .ok ({ st with props := st.props.insert propName value }, input)

mutual

/-- The content of a node behind its token. Every token takes four bytes of the input. -/
def parseNode (strings : FdtStrings) : Nat → Blob → Outcome Error (FdtNode × Blob)
  | 0, _ => .panic
  | fuel + 1, input => do
    let name ← okOr (cStrToString input) (.fdtParseError .couldNotParseNodeName)
    let nameNbytes := name.length + 1
    let (_, input) ← consume input (nameNbytes + alignPadLen nameNbytes 4)
    let (st, input) ← parseContents strings fuel ⟨.empty, [], false⟩ input
    let node ← new name st.props st.subnodes
    .ok (node, input)

def parseContents (strings : FdtStrings) :
    Nat → Contents → Blob → Outcome Error (Contents × Blob)
  | 0, _, _ => .panic
  | fuel + 1, st, input => do
    let (token, input) ← readToken (fuel + 1) input
    if token = fdtBeginNode then do
      let (subnode, input) ← parseNode strings fuel input
      if st.subnodes.any (·.name = subnode.name) then .err (.duplicateNode subnode.name)
      else
        let st := { st with subnodes := st.subnodes ++ [subnode], encounteredSubnode := true }
        parseContents strings fuel st input
    else if token = fdtEndNode then .ok (st, input)
    else if token = fdtProp then do
      let (st, input) ← parseProp strings st input
      parseContents strings fuel st input
    else if token = fdtEnd then parseError .unexpectedEndToken
    else parseError (.invalidFdtToken token)

end

def fromBlob (input : Blob) (strings : FdtStrings) : Outcome Error FdtNode := do
  let (first, input) ← readToken (input.length + 1) input
  if first ≠ fdtBeginNode then parseError .expectedBeginNodeToken
  else do
    let (root, input) ← parseNode strings (input.length + 1) input
    let (last, _) ← readToken (input.length + 1) input
    if last ≠ fdtEnd then parseError .expectedEndNodeToken else .ok root

/-! ### Writing -/

def writeProp (prop : Str × Blob) (strings : FdtStrings) : Blob × FdtStrings :=
  let (off, strings) := strings.internString prop.1
  (beBytes32 fdtProp ++ beBytes32 (BitVec.ofNat 32 prop.2.length) ++ beBytes32 off ++ prop.2 ++
    List.replicate (alignPadLen prop.2.length 4) 0, strings)

def writeProps : List (Str × Blob) → FdtStrings → Blob × FdtStrings
  | [], strings => ([], strings)
  | prop :: props, strings =>
    let (bytes, strings) := writeProp prop strings
    let (rest, strings) := writeProps props strings
    (bytes ++ rest, strings)

def writeName (name : Str) : Blob :=
  beBytes32 fdtBeginNode ++ name ++ [0] ++ List.replicate (alignPadLen (name.length + 1) 4) 0

mutual

def writeBlob : FdtNode → FdtStrings → Blob × FdtStrings
  | ⟨name, props, subnodes⟩, strings =>
    let (propBytes, strings) := writeProps props.entries strings
    let (nodeBytes, strings) := writeSubnodes subnodes strings
    (writeName name ++ propBytes ++ nodeBytes ++ beBytes32 fdtEndNode, strings)

def writeSubnodes : List FdtNode → FdtStrings → Blob × FdtStrings
  | [], strings => ([], strings)
  | node :: nodes, strings =>
    let (bytes, strings) := writeBlob node strings
    let (rest, strings) := writeSubnodes nodes strings
    (bytes ++ rest, strings)

end

/-! ### Access -/

section
variable (node : FdtNode) (name : Str)

def setProp (value : Blob) : Outcome Error FdtNode :=
  if isValidPropName name = false then .err (.invalidName name)
  else if value.length < u32Size then .ok { node with props := node.props.insert name value }
  else .err .propertyValueTooLarge

def subnode : Option FdtNode := node.subnodes.find? (·.name = name)

def subnodeMut : Outcome Error FdtNode :=
  match node.subnode name with
  | some _ => .ok node
  | none => do
    let child ← empty name
    .ok { node with subnodes := node.subnodes ++ [child] }

end

/-- A call on the node at the end of a path, if it leads to one. -/
def modifyAt (f : FdtNode → FdtNode) : List Str → FdtNode → FdtNode
  | [], node => f node
  | name :: path, node =>
    { node with subnodes := node.subnodes.map fun child =>
        if child.name = name then modifyAt f path child else child }

end FdtNode

end GunyahVmm.CrosFdt
