import Mathlib.Data.List.Nodup
import Mathlib.Data.List.Range
import Mathlib.Data.List.Perm.Subperm

/-! Linked lists in a table that anyone may write, followed to a last cell. -/

namespace GunyahVmm.LinkedPath
open List
variable {ι α : Type} {cell : ι → Option (α × Option ι)}

/-- The cells from `i` to a last cell, with their indexes. -/
inductive Path (cell : ι → Option (α × Option ι)) : ι → List (ι × α) → Prop
  | last {i : ι} {a : α} : cell i = some (a, none) → Path cell i [(i, a)]
  | link {i j : ι} {a : α} {rest : List (ι × α)} :
      cell i = some (a, some j) → Path cell j rest → Path cell i ((i, a) :: rest)

namespace Path
variable {i : ι} {p : List (ι × α)}
variable (hp : Path cell i p)
include hp

lemma unique {q : List (ι × α)} (hq : Path cell i q) : p = q := by
  induction hp generalizing q with
  | last hc =>
    cases hq with
    | last hc' =>
      rw [hc] at hc'
      cases hc'
      rfl
    | link hc' _ =>
      rw [hc] at hc'
      cases hc'
  | link hc _ ih =>
    cases hq with
    | last hc' =>
      rw [hc] at hc'
      cases hc'
    | link hc' hr =>
      rw [hc] at hc'
      cases hc'
      rw [ih hr]

lemma head_mem : ∃ a, (i, a) ∈ p := by
  cases hp with
  | last _ | link _ _ => exact ⟨_, mem_cons_self⟩

lemma exists_suffix {j : ι} (hj : j ∈ p.map Prod.fst) :
    ∃ q, Path cell j q ∧ q.length ≤ p.length := by
  induction hp with
  | last hc =>
    simp only [map_cons, map_nil, mem_singleton] at hj
    subst hj
    exact ⟨_, .last hc, le_rfl⟩
  | link hc hr ih =>
    rw [map_cons, mem_cons] at hj
    rcases hj with rfl | hj
    · exact ⟨_, .link hc hr, le_rfl⟩
    · obtain ⟨q, hq, hl⟩ := ih hj
      exact ⟨q, hq, Nat.le_succ_of_le hl⟩

/-- **No cycles.** A path that ends visits no index twice. -/
lemma nodup : (p.map Prod.fst).Nodup := by
  induction hp with
  | last _ => simp
  | @link i j a rest hc hr ih =>
    rw [map_cons, nodup_cons]
    refine ⟨?_, ih⟩
    intro hm
    -- the path from the second visit would be the whole path again, and shorter
    obtain ⟨q, hq, hl⟩ := hr.exists_suffix hm
    have heq := hq.unique (.link hc hr)
    rw [heq, length_cons] at hl
    omega

lemma length_le (f : ι → Nat) (hf : Function.Injective f) {n : Nat} (hn : ∀ x ∈ p, f x.1 < n) :
    p.length ≤ n := by
  have hnd : ((p.map Prod.fst).map f).Nodup := hp.nodup.map hf
  have hs : (p.map Prod.fst).map f ⊆ range n := by
    intro k hk
    simp only [map_map, mem_map, Function.comp_apply] at hk
    obtain ⟨x, hx, rfl⟩ := hk
    exact mem_range.mpr (hn x hx)
  have hl := (subperm_of_subset hnd hs).length_le
  simpa only [length_map, length_range] using hl

end Path

end GunyahVmm.LinkedPath
