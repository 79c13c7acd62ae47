import GunyahVmm.Lib.Segments
import Mathlib.Data.List.Pairwise

/-! Consecutive pieces, each starting where the one before it ends: in order, disjoint, and
covering. -/

namespace GunyahVmm.Tiling
open List Segments
variable {α : Type} {start size : α → Nat}

/-- The pieces of the list, in order, fill the interval from `lo` to below `hi`. -/
def Tiles (start size : α → Nat) : Nat → List α → Nat → Prop
  | lo, [], hi => lo = hi
  | lo, c :: cs, hi => start c = lo ∧ 0 < size c ∧ Tiles start size (lo + size c) cs hi

variable {lo hi : Nat} {l : List α} {c : α}

lemma tiles_iff :
    Tiles start size lo l hi ↔ Consecutive start size lo l hi ∧ ∀ c ∈ l, 0 < size c := by
  induction l generalizing lo with
  | nil => simp [Tiles, Consecutive]
  | cons c cs ih =>
    rw [Tiles, Consecutive, ih, forall_mem_cons, and_assoc]
    exact and_congr_right fun _ => and_left_comm

lemma tiles_append {mid : Nat} {m : List α} (hl : Tiles start size lo l mid)
    (hm : Tiles start size mid m hi) : Tiles start size lo (l ++ m) hi := by
  rw [tiles_iff] at hl hm ⊢
  exact ⟨hl.1.append hm.1, forall_mem_append.mpr ⟨hl.2, hm.2⟩⟩

lemma Tiles.end_of_append (h : Tiles start size lo (l ++ [c]) hi) : start c + size c = hi := by
  induction l generalizing lo with
  | nil =>
    obtain ⟨hs, -, hend⟩ := h
    have heq : lo + size c = hi := hend
    omega
  | cons d cs ih => exact ih h.2.2

section
variable (h : Tiles start size lo l hi)
include h

lemma Tiles.le : lo ≤ hi := (tiles_iff.mp h).1.le

lemma Tiles.bounds (hc : c ∈ l) : lo ≤ start c ∧ 0 < size c ∧ start c + size c ≤ hi := by
  obtain ⟨hcn, hp⟩ := tiles_iff.mp h
  obtain ⟨hlo, hhi⟩ := hcn.bounds hc
  exact ⟨hlo, hp c hc, hhi⟩

lemma Tiles.pairwise : l.Pairwise (fun c d => start c + size c ≤ start d) := by
  induction l generalizing lo with
  | nil => exact List.Pairwise.nil
  | cons c cs ih =>
    refine List.Pairwise.cons (fun d hd => ?_) (ih h.2.2)
    have := (h.2.2.bounds hd).1
    have := h.1
    omega

lemma Tiles.cover (x : Nat) :
    (∃ c ∈ l, start c ≤ x ∧ x < start c + size c) ↔ lo ≤ x ∧ x < hi := by
  induction l generalizing lo with
  | nil =>
    have heq : lo = hi := h
    constructor
    · rintro ⟨c, hc, _⟩
      simp at hc
    · omega
  | cons c cs ih =>
    obtain ⟨hs, hp, hr⟩ := h
    have hle := hr.le
    constructor
    · rintro ⟨d, hd, hx⟩
      rcases mem_cons.mp hd with rfl | hd
      · omega
      · have := (ih hr).mp ⟨d, hd, hx⟩
        omega
    · intro hx
      by_cases hin : x < lo + size c
      · exact ⟨c, mem_cons_self, by omega, by omega⟩
      · obtain ⟨d, hd, hx'⟩ := (ih hr).mpr ⟨by omega, hx.2⟩
        exact ⟨d, mem_cons_of_mem _ hd, hx'⟩

/-- The first piece that contains a point is the only one. -/
lemma Tiles.find?_eq {x : Nat} (hc : c ∈ l) (hle : start c ≤ x) (hlt : x < start c + size c) :
    l.find? (fun d => decide (start d ≤ x ∧ x < start d + size d)) = some c := by
  induction l generalizing lo with
  | nil => cases hc
  | cons d cs ih =>
    obtain ⟨hs, hp, hr⟩ := h
    rcases mem_cons.mp hc with rfl | hc
    · exact find?_cons_of_pos (by simp [hle, hlt])
    have hb := hr.bounds hc
    rw [find?_cons_of_neg, ih hr hc]
    simp only [decide_eq_true_eq]
    omega

lemma Tiles.ne_nil (hlt : lo < hi) : l ≠ [] := by
  rintro rfl
  have : lo = hi := h
  omega

end

end GunyahVmm.Tiling
