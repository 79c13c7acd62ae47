import GunyahVmm.CrosFdt.RoundTrip
import GunyahVmm.CrosFdt.TreeView
import GunyahVmm.Lib.Worklist

/-! What the filter keeps of an overlay. A path that lies below the one before it in the order of
the strings is dropped as if the subtree of that one were kept, so the filter is complete if there
is no such path. -/

namespace GunyahVmm.CrosFdt
open Run Outcome FdtNode Fdt Worklist List

/-! ## References -/

def PropRef (fixupNode treeNode : FdtNode) (propname : Str) (phandle : BitVec 32) : Prop :=
  ∃ offsets, fixupNode.getProp u32sFromPropval propname = some offsets ∧
    ∃ offset ∈ offsets, treeNode.phandleAtOffset propname offset.toNat = some phandle

def NodeRef (fixupNode treeNode : FdtNode) (phandle : BitVec 32) : Prop :=
  ∃ propname ∈ fixupNode.propNames, PropRef fixupNode treeNode propname phandle

def RefAt (root localFixups : FdtNode) (names : List Str) (phandle : BitVec 32) : Prop :=
  ∃ treeNode fixupNode, root.nodeAt names = some treeNode ∧
    localFixups.nodeAt names = some fixupNode ∧ NodeRef fixupNode treeNode phandle

def LocalRef (root : FdtNode) (names : List Str) (phandle : BitVec 32) : Prop :=
  ∃ localFixups, root.subnode localFixupsNode = some localFixups ∧
    RefAt root localFixups names phandle

variable {treeNode fixupNode node srcNode tgtNode tgtNode' : FdtNode} {phandle : BitVec 32}
  {name propname : Str} {names symbols : List Str} {path : Path} {paths result : List Path}
  {order : HashOrder} {offsets phandles : List (BitVec 32)}

lemma okOr_eq_ok {α : Type} {x : Option α} {e : Error} {a : α} :
    okOr x e = .ok a ↔ x = some a := by
  cases x <;> simp [okOr]

section Follow
variable {overlay : Fdt} {localFixups : FdtNode} {allPhandles : BTreeMap Nat Path}

/-- The references along a path lead to nodes that are known. -/
def Resolved (overlay : Fdt) (path : Path) : Prop :=
  ∀ front phandle, front ≠ [] → front <+: path.iter → LocalRef overlay.root front phandle →
    ∃ phandles target, getAllPhandles overlay = .ok phandles ∧
      phandles.get phandle.toNat = some target

end Follow

/-! ## Paths that are kept -/

variable {overlay : Fdt} {filterSymbols : List Str}

def labelledPath : Path :=
  ⟨ascii ['/', 'f', '/', '_', '_', 'o', 'v', 'e', 'r', 'l', 'a', 'y', '_', '_', '/', 'k']⟩

def childPath : Path := ⟨labelledPath.str ++ ascii ['/', 'c']⟩

end GunyahVmm.CrosFdt
