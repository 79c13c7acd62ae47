import GunyahVmm.CrosFdt.Path
import GunyahVmm.Lib.BTreeMap
import Mathlib.Data.List.Dedup
import Mathlib.Data.Prod.Lex

/-! Overlays: the filter, phandles and references, symbols, and the fragments merged into the base.
-/

namespace GunyahVmm.CrosFdt
open Run Fdt

def phandleProp : Str := ascii ['p', 'h', 'a', 'n', 'd', 'l', 'e']

def linuxPhandleProp : Str :=
  ascii ['l', 'i', 'n', 'u', 'x', ',', 'p', 'h', 'a', 'n', 'd', 'l', 'e']

def localFixupsNode : Str :=
  ascii ['_', '_', 'l', 'o', 'c', 'a', 'l', '_', 'f', 'i', 'x', 'u', 'p', 's', '_', '_']

def rootPath : Path := ⟨[pathSep]⟩

/-- The orders in which the hash sets of symbols and phandles are gone through. -/
structure HashOrder where
  symbols : List Str → List Str
  phandles : List (BitVec 32) → List (BitVec 32)
  symbols_perm : ∀ l, (symbols l).Perm l
  phandles_perm : ∀ l, (phandles l).Perm l

/-- The order of insertion. -/
def HashOrder.inserted : HashOrder := ⟨id, id, fun _ => .refl _, fun _ => .refl _⟩

def walk {σ : Type} (push : Path → Str → Outcome Error Path)
    (visit : Path → FdtNode → σ → Outcome Error σ) :
    Nat → List (Path × FdtNode) → σ → Outcome Error σ
  | _, [], s => .ok s
  | 0, _ :: _, _ => .panic
  | fuel + 1, (path, node) :: nodes, s => do
    let s ← visit path node s
    let children ← node.subnodes.foldlM (fun children (child : FdtNode) => do
      let childPath ← push path child.name
      .ok (children ++ [(childPath, child)])) []
    walk push visit fuel (nodes ++ children) s

/-! ## Filtering -/

/-- The phandle of a node, under either name. -/
def getNodePhandle (node : FdtNode) : Option (BitVec 32) :=
  (node.getProp u32FromPropval phandleProp).or (node.getProp u32FromPropval linuxPhandleProp)

def addPhandle (path : Path) (node : FdtNode) (phandles : BTreeMap Nat Path) :
    Outcome Error (BTreeMap Nat Path) :=
  match getNodePhandle node with
  | some phandle => .ok (phandles.insert phandle.toNat path)
  | none => .ok phandles

def getAllPhandles (fdt : Fdt) : Outcome Error (BTreeMap Nat Path) :=
  walk (fun path name => (path.push name).unwrap) addPhandle fdt.root.size
    [(rootPath, fdt.root)] .empty

def maxU32 (a b : BitVec 32) : BitVec 32 := if a.toNat ≤ b.toNat then b else a

mutual

def getMaxPhandle : FdtNode → BitVec 32
  | ⟨name, props, subnodes⟩ =>
    maxU32 ((getNodePhandle ⟨name, props, subnodes⟩).getD 0) (getMaxPhandles subnodes)

def getMaxPhandles : List FdtNode → BitVec 32
  | [] => 0
  | node :: nodes => maxU32 (getMaxPhandle node) (getMaxPhandles nodes)

end

def offsetPhandleProp (node : FdtNode) (propname : Str) (delta : BitVec 32) :
    Outcome Error FdtNode := do
  let val ← okOr (node.getProp u32FromPropval propname) .applyOverlayError
  if val.toNat + delta.toNat < u32Size then
    (node.setProp propname (beBytes32 (val + delta))).unwrap
  else .err .applyOverlayError

def offsetPhandlePropIfAny (node : FdtNode) (propname : Str) (delta : BitVec 32) :
    Outcome Error FdtNode :=
  if node.hasProp propname then offsetPhandleProp node propname delta else .ok node

def offsetPhandleProps (node : FdtNode) (delta : BitVec 32) : Outcome Error FdtNode := do
  let node ← offsetPhandlePropIfAny node phandleProp delta
  offsetPhandlePropIfAny node linuxPhandleProp delta

mutual

/-- The nodes below the root in any order: it only shows in which node an error names. -/
def offsetPhandleValues (delta : BitVec 32) : FdtNode → Outcome Error FdtNode
  | ⟨name, props, subnodes⟩ => do
    let node ← offsetPhandleProps ⟨name, props, subnodes⟩ delta
    let subnodes ← offsetSubnodes delta subnodes
    .ok { node with subnodes }

def offsetSubnodes (delta : BitVec 32) : List FdtNode → Outcome Error (List FdtNode)
  | [] => .ok []
  | node :: nodes => do
    let node ← offsetPhandleValues delta node
    let nodes ← offsetSubnodes delta nodes
    .ok (node :: nodes)

end

/-! ## References inside of the overlay -/

structure BaseTarget where
  basePath : Str
  phandle : BitVec 32

lemma BaseTarget.bytes_injective : Function.Injective fun t : BaseTarget =>
    toLex (t.basePath.map BitVec.toNat, t.phandle.toNat) := by
  rintro ⟨a, v⟩ ⟨b, w⟩ h
  obtain ⟨hp, hph⟩ := Prod.mk.inj (toLex_inj.mp h)
  have hab : a = b := List.map_injective_iff.mpr (fun _ _ => BitVec.eq_of_toNat_eq) hp
  have hvw : v = w := BitVec.eq_of_toNat_eq hph
  rw [hab, hvw]

instance : LinearOrder BaseTarget := LinearOrder.lift' _ BaseTarget.bytes_injective

mutual

/-- Copy the properties, then overlay the children. -/
def overlayNodePair : FdtNode → FdtNode → Outcome Error FdtNode
  | ⟨_, props, subnodes⟩, baseNode =>
    overlaySubnodes subnodes
      { baseNode with props := props.entries.foldl (fun m p => m.insert p.1 p.2) baseNode.props }

def overlaySubnodes : List FdtNode → FdtNode → Outcome Error FdtNode
  | [], baseNode => .ok baseNode
  | overlaySubnode :: subnodes, baseNode => do
    let baseNode ← baseNode.subnodeMut overlaySubnode.name
    let child ← Outcome.expect (baseNode.subnode overlaySubnode.name)
    let child ← overlayNodePair overlaySubnode child
    overlaySubnodes subnodes (baseNode.setSubnode child)

end

/-- Merge the entries that touch or overlap, in the order of their addresses. -/
def mergeEntries : FdtReserveEntry → List FdtReserveEntry → List FdtReserveEntry →
    Outcome Error (List FdtReserveEntry)
  | entry, [], result => .ok (result ++ [entry])
  | entry, nextEntry :: rest, result => do
    let entryEnd ← addU64 entry.address.toNat entry.size.toNat
    if nextEntry.address.toNat ≤ entryEnd then do
      let nextEnd ← addU64 nextEntry.address.toNat nextEntry.size.toNat
      let size ← subU64 (max entryEnd nextEnd) entry.address.toNat
      mergeEntries { entry with size := BitVec.ofNat 64 size } rest result
    else mergeEntries nextEntry rest (result ++ [entry])

/-- The entries are sorted from the highest address on and taken from the end. -/
def mergeResvmem (base newEntries : List FdtReserveEntry) : Outcome Error (List FdtReserveEntry) :=
  let sorted := (base ++ newEntries).insertionSort fun a b => b.address.toNat ≤ a.address.toNat
  match sorted.reverse with
  | [] => .ok []
  | entry :: rest => mergeEntries entry rest []

end GunyahVmm.CrosFdt
