import GunyahVmm.CrosFdt.Fdt
import Mathlib.Data.List.Lex
import Mathlib.Data.List.Sort

/-! Paths to the nodes of a device tree, and the values of properties. -/

namespace GunyahVmm.CrosFdt
open Run

def ascii (text : List Char) : Str := text.map fun c => BitVec.ofNat 8 c.toNat

/-! ## Paths -/

def pathSep : BitVec 8 := 0x2f

structure Path where
  str : Str
  deriving DecidableEq

def trimStart (s : Str) : Str := s.dropWhile (· = pathSep)

def trimEnd (s : Str) : Str := (s.reverse.dropWhile (· = pathSep)).reverse

namespace Path

lemma bytes_injective : Function.Injective fun p : Path => p.str.map BitVec.toNat := by
  rintro ⟨a⟩ ⟨b⟩ h
  have hab : a = b := List.map_injective_iff.mpr (fun _ _ => BitVec.eq_of_toNat_eq) h
  rw [hab]

/-- The order of the strings, byte by byte. -/
instance : LinearOrder Path := LinearOrder.lift' _ bytes_injective

def sanitize (path : Str) : Outcome Error Str :=
  if path.isEmpty || path.head? ≠ some pathSep then .err .invalidPath
  else if path = [pathSep] then .ok path
  else
    let path := trimEnd path
    if path.isEmpty || ((splitBytes pathSep path).drop 1).any List.isEmpty then .err .invalidPath
    -- the assertion of the source
    else if path.head? = some pathSep then .ok path
    else .panic

def new (path : Str) : Outcome Error Path := do
  let path ← sanitize path
  .ok ⟨path⟩

def push (path : Path) (subpath : Str) : Outcome Error Path :=
  let newPath := if path.str.getLast? = some pathSep then path.str else path.str ++ [pathSep]
  new (newPath ++ trimEnd (trimStart subpath))

def iter (path : Path) : List Str :=
  (splitBytes pathSep path.str).drop (if path.str = [pathSep] then 2 else 1)

end Path

def u32FromPropval : Blob → Option (BitVec 32)
  | [a, b, c, d] => some (ofBe32 a b c d)
  | _ => none

def u32sFromPropval : Blob → Option (List (BitVec 32))
  | [] => some []
  | a :: b :: c :: d :: rest => (u32sFromPropval rest).map (ofBe32 a b c d :: ·)
  | _ => none

namespace FdtNode
variable {α : Type}

def propNames (node : FdtNode) : List Str := node.props.keys

def hasProp (node : FdtNode) (name : Str) : Bool := node.props.contains name

/-- Read a value as what `fromPropval` takes it for. -/
def getProp (fromPropval : Blob → Option α) (node : FdtNode) (name : Str) : Option α :=
  (node.props.get name).bind fromPropval

def phandleAtOffset (node : FdtNode) (name : Str) (offset : Nat) : Option (BitVec 32) :=
  match node.props.get name with
  | none => none
  | some data =>
    if offset + 4 ≤ data.length then u32FromPropval ((data.drop offset).take 4) else none

def setSubnode (node child : FdtNode) : FdtNode :=
  { node with subnodes := node.subnodes.map fun n => if n.name = child.name then child else n }

def nodeAt : List Str → FdtNode → Option FdtNode
  | [], node => some node
  | name :: names, node => (node.subnode name).bind (nodeAt names)

mutual

def size : FdtNode → Nat
  | ⟨_, _, subnodes⟩ => 1 + sizes subnodes

def sizes : List FdtNode → Nat
  | [] => 0
  | node :: nodes => size node + sizes nodes

end

end FdtNode

namespace Fdt

end Fdt

end GunyahVmm.CrosFdt
