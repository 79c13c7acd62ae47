import GunyahVmm.CrosFdt.Overlay
import GunyahVmm.CrosFdt.ParseSafety
import Mathlib.Data.List.DropRight

/-! A device tree seen from its paths: a tree is known by the properties that stand at every list of
names. -/

namespace GunyahVmm.CrosFdt
open Run Outcome FdtNode List
namespace FdtNode

/-! ## Nodes by their names -/

variable {node child root : FdtNode} {names : List Str}

lemma subnode_name {name : Str} (h : node.subnode name = some child) :
    child ∈ node.subnodes ∧ child.name = name :=
  ⟨mem_of_find?_eq_some h, by simpa using find?_some h⟩

lemma nodeAt_concat (names : List Str) (name : Str) (node : FdtNode) :
    nodeAt (names ++ [name]) node = (nodeAt names node).bind (·.subnode name) := by
  induction names generalizing node with
  | nil => simp [nodeAt]
  | cons first names ih =>
    simp only [cons_append, nodeAt]
    cases node.subnode first with
    | none => rfl
    | some child => exact ih child

lemma Valid.subnodes_valid (h : node.Valid) (hc : child ∈ node.subnodes) : child.Valid := by
  cases h with
  | mk _ _ _ hs => exact hs child hc

lemma Valid.subnode_eq (h : node.Valid) (hc : child ∈ node.subnodes) :
    node.subnode child.name = some child := by
  cases h with
  | @mk name props subnodes hn hp hd hsb =>
    cases hf : subnode ⟨name, props, subnodes⟩ child.name with
    | none => exact absurd (by simp) (find?_eq_none.mp hf child hc)
    | some other =>
      obtain ⟨hm, hs⟩ := subnode_name hf
      rw [inj_on_of_nodup_map hd hm hc hs]

section
variable (h : root.Valid) (hnode : nodeAt names root = some node)
include h hnode

lemma Valid.nodeAt_valid : node.Valid := by
  induction names generalizing root with
  | nil => exact Option.some.inj hnode ▸ h
  | cons name names ih =>
    obtain ⟨child, hc, hr⟩ := Option.bind_eq_some_iff.mp hnode
    exact ih (h.subnodes_valid (subnode_name hc).1) hr

end

mutual

/-- All nodes with the names that lead to them. -/
def places : FdtNode → List (List Str × FdtNode)
  | ⟨name, props, subnodes⟩ => ([], ⟨name, props, subnodes⟩) :: placesBelow subnodes

def placesBelow : List FdtNode → List (List Str × FdtNode)
  | [] => []
  | node :: nodes =>
    (places node).map (fun x => (node.name :: x.1, x.2)) ++ placesBelow nodes

end

end FdtNode

/-! ## Paths of names -/

namespace Path
variable {names : List Str} {name : Str}

section
variable (names : List Str)

end

end Path

/-! ## Going through a tree -/

def FdtNode.Named (root : FdtNode) : Prop := ∀ names, nodeAt names root ≠ none → [] ∉ names

namespace FdtNode

lemma size_eq (node : FdtNode) : node.size = 1 + sizes node.subnodes := by
  cases node
  rfl

end FdtNode

/-- The queue of `walk`: nodes stand at their names, each list of names once, parents seen before.
-/
structure Frontier (root : FdtNode) (seen : List (List Str)) (queue : List (List Str × FdtNode)) :
    Prop where
  found : ∀ x ∈ queue, root.nodeAt x.1 = some x.2
  nodup : (seen ++ queue.map Prod.fst).Nodup
  above : ∀ names name, names ++ [name] ∈ seen ++ queue.map Prod.fst → names ∈ seen

lemma Frontier.next {root : FdtNode} {seen : List (List Str)} {names : List Str}
    {node : FdtNode} {queue : List (List Str × FdtNode)} (hv : root.Valid)
    (h : Frontier root seen ((names, node) :: queue)) :
    Frontier root (seen ++ [names])
      (queue ++ node.subnodes.map fun child => (names ++ [child.name], child)) := by
  obtain ⟨hf, hnd, habv⟩ := h
  have hnode := hf (names, node) mem_cons_self
  have hn := hv.nodeAt_valid hnode
  have hnew : names ∉ seen := by
    intro hm
    exact (nodup_append.mp hnd).2.2 names hm names mem_cons_self rfl
  have ho : seen ++ [names] ++ queue.map Prod.fst = seen ++ names :: queue.map Prod.fst := by
    rw [append_assoc, singleton_append]
  have hk : (node.subnodes.map fun child => (names ++ [child.name], child)).map Prod.fst =
      (node.subnodes.map name).map fun name => names ++ [name] := by
    rw [map_map, map_map]
    rfl
  refine ⟨?_, ?_, ?_⟩
  · refine forall_mem_append.mpr ⟨(forall_mem_cons.mp hf).2, forall_mem_map.mpr fun child hc => ?_⟩
    rw [nodeAt_concat, hnode]
    exact hn.subnode_eq hc
  · rw [map_append, ← append_assoc, ho, hk]
    refine nodup_append.mpr ⟨hnd, ?_, ?_⟩
    · cases hn with
      | mk _ _ hd _ =>
        exact hd.map fun a b hab => by simpa using hab
    · rintro a ha _ hb rfl
      obtain ⟨name, _, rfl⟩ := mem_map.mp hb
      exact hnew (habv names name ha)
  · intro others name hm
    rw [map_append, ← append_assoc, ho, hk] at hm
    rcases mem_append.mp hm with hm | hm
    · exact mem_append_left _ (habv others name hm)
    obtain ⟨other, _, heq⟩ := mem_map.mp hm
    obtain ⟨rfl, _⟩ := append_inj' heq rfl
    exact mem_append_right _ (mem_singleton_self _)

section Walk
variable {σ : Type} {push : Path → Str → Outcome Error Path}
  {visit : Path → FdtNode → σ → Outcome Error σ}

end Walk

end GunyahVmm.CrosFdt
