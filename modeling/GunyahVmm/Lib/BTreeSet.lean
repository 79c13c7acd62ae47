import Mathlib.Data.List.Basic
import Mathlib.Data.List.Pairwise
import Mathlib.Data.List.Perm.Basic
import Mathlib.Order.Basic

/-! Ordered sets as strictly increasing lists. Elements that compare equal are one element. -/

namespace GunyahVmm
open List

structure BTreeSet (α : Type) [Ord α] where
  toList : List α
  sorted : toList.Pairwise (fun a b => compare a b = .lt)

namespace BTreeSet
variable {α : Type} [Ord α]

def empty : BTreeSet α := ⟨[], List.Pairwise.nil⟩

/-- Ordered insertion. An element that is already there is kept. -/
def insertList (x : α) : List α → List α
  | [] => [x]
  | y :: ys =>
    match compare x y with
    | .lt => x :: y :: ys
    | .eq => y :: ys
    | .gt => y :: insertList x ys

variable {x y : α} {l : List α} {s : BTreeSet α}

lemma mem_insertList {z : α} (h : z ∈ insertList x l) : z = x ∨ z ∈ l := by
  induction l with
  | nil => simpa [insertList] using h
  | cons y ys ih =>
    simp only [insertList] at h
    split at h
    · simpa using h
    · exact Or.inr h
    · rcases mem_cons.mp h with rfl | h
      · exact Or.inr mem_cons_self
      rcases ih h with h | h
      · exact Or.inl h
      · exact Or.inr (mem_cons_of_mem _ h)

lemma insertList_perm (h : ∀ y ∈ l, compare x y ≠ .eq) : (insertList x l).Perm (x :: l) := by
  induction l with
  | nil => exact List.Perm.refl _
  | cons y ys ih =>
    have hy := h y mem_cons_self
    have hys := ih (forall_mem_cons.mp h).2
    simp only [insertList]
    split
    · exact List.Perm.refl _
    · contradiction
    · exact (hys.cons y).trans (List.Perm.swap x y ys)

section
variable (s : BTreeSet α)

def contains (x : α) : Bool := s.toList.any (fun y => compare y x == .eq)

lemma sorted_filter (p : α → Bool) :
    (s.toList.filter p).Pairwise (fun a b => compare a b = .lt) :=
  s.sorted.sublist filter_sublist

def remove (x : α) : BTreeSet α :=
  ⟨s.toList.filter (fun y => compare y x != .eq), s.sorted_filter _⟩

/-- The greatest element that is at most `x`. -/
def maxLe (x : α) : Option α := (s.toList.filter (fun y => (compare y x).isLE)).getLast?

/-- The least element that is greater than `x`. -/
def minGt (x : α) : Option α := (s.toList.filter (fun y => compare y x == .gt)).head?

end

lemma mem_of_maxLe (h : s.maxLe x = some y) : y ∈ s.toList ∧ (compare y x).isLE := by
  have hm := mem_of_getLast? h
  simpa using mem_filter.mp hm

lemma mem_of_minGt (h : s.minGt x = some y) : y ∈ s.toList ∧ compare y x = .gt := by
  have hm := mem_of_head? h
  simpa using mem_filter.mp hm

lemma mem_remove : y ∈ (s.remove x).toList ↔ y ∈ s.toList ∧ compare y x ≠ .eq := by
  simp [remove]

variable [Std.TransOrd α]

lemma insertList_sorted (x : α) (h : l.Pairwise (fun a b => compare a b = .lt)) :
    (insertList x l).Pairwise (fun a b => compare a b = .lt) := by
  induction h with
  | nil => simp [insertList]
  | @cons y ys hy hys ih =>
    simp only [insertList]
    split
    · rename_i hlt
      refine List.Pairwise.cons ?_ (List.Pairwise.cons hy hys)
      exact forall_mem_cons.mpr ⟨hlt, fun z hz => Std.TransCmp.lt_trans hlt (hy z hz)⟩
    · exact List.Pairwise.cons hy hys
    · rename_i hgt
      refine List.Pairwise.cons ?_ ih
      intro z hz
      rcases mem_insertList hz with rfl | hz
      · exact Std.OrientedCmp.lt_of_gt hgt
      · exact hy z hz

def insert (s : BTreeSet α) (x : α) : BTreeSet α :=
  ⟨insertList x s.toList, insertList_sorted x s.sorted⟩

lemma contains_of_mem (h : x ∈ s.toList) : s.contains x = true := by
  rw [contains, any_eq_true]
  exact ⟨x, h, by simp [Std.ReflCmp.compare_self]⟩

lemma mem_of_mem_insert (h : y ∈ (s.insert x).toList) : y = x ∨ y ∈ s.toList := mem_insertList h

lemma insert_perm (h : ∀ y ∈ s.toList, compare x y ≠ .eq) :
    (s.insert x).toList.Perm (x :: s.toList) :=
  insertList_perm h

lemma remove_perm (h : x ∈ s.toList) : s.toList.Perm (x :: (s.remove x).toList) := by
  obtain ⟨l, hs⟩ := s
  simp only [remove] at h ⊢
  induction hs with
  | nil => simp at h
  | @cons y ys hy hys ih =>
    rcases mem_cons.mp h with rfl | hx
    · -- `x` heads the list, and everything after it is strictly greater
      have hr : ys.filter (fun z => compare z x != .eq) = ys := by
        rw [filter_eq_self]
        intro z hz
        have := Std.OrientedCmp.gt_of_lt (hy z hz)
        simp [this]
      rw [filter_cons_of_neg (by simp [Std.ReflCmp.compare_self]), hr]
    · have hyx := hy x hx
      rw [filter_cons_of_pos (by simp [hyx])]
      exact ((ih hx).cons y).trans (List.Perm.swap x y _)

end BTreeSet

end GunyahVmm
