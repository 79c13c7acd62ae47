import GunyahVmm.Lib.Patch
import Mathlib.Algebra.GroupWithZero.Nat

/-! Segments laid end to end, maybe empty. A point is looked up as the last that starts at or
before. -/

namespace GunyahVmm.Segments
open List
variable {α β : Type} {start size : α → Nat} {lo hi x : Nat} {l : List α} {c : α}

def Consecutive (start size : α → Nat) : Nat → List α → Nat → Prop
  | lo, [], hi => lo = hi
  | lo, c :: cs, hi => start c = lo ∧ Consecutive start size (lo + size c) cs hi

def locate (start : α → Nat) (l : List α) (x : Nat) : Option α :=
  (l.filter fun c => start c ≤ x).getLast?

lemma Consecutive.le (h : Consecutive start size lo l hi) : lo ≤ hi := by
  induction l generalizing lo with
  | nil => exact Nat.le_of_eq h
  | cons c cs ih => exact Nat.le_trans (Nat.le_add_right _ _) (ih h.2)

lemma Consecutive.bounds (h : Consecutive start size lo l hi) (hc : c ∈ l) :
    lo ≤ start c ∧ start c + size c ≤ hi := by
  induction l generalizing lo with
  | nil => cases hc
  | cons d cs ih =>
    obtain ⟨hs, hr⟩ := h
    rcases mem_cons.mp hc with rfl | hc
    · exact ⟨Nat.le_of_eq hs.symm, hs ▸ hr.le⟩
    · have hb := ih hr hc
      omega

lemma Consecutive.append {mid : Nat} {m : List α} (hl : Consecutive start size lo l mid)
    (hm : Consecutive start size mid m hi) : Consecutive start size lo (l ++ m) hi := by
  induction l generalizing lo with
  | nil =>
    rw [show lo = mid from hl]
    exact hm
  | cons c cs ih => exact ⟨hl.1, ih hl.2⟩

lemma locate_cons_of_le {cs : List α} (h : start c ≤ x) :
    locate start (c :: cs) x = some ((locate start cs x).getD c) := by
  unfold locate
  rw [filter_cons_of_pos (by simpa using h), getLast?_cons]

/-- **Lookup.** A point of the range lies in the segment found for it, or at the very end. -/
lemma Consecutive.locate_spec (h : Consecutive start size lo l hi) (hne : l ≠ [])
    (hlo : lo ≤ x) (hhi : x ≤ hi) :
    ∃ c ∈ l, locate start l x = some c ∧ start c ≤ x ∧ x ≤ start c + size c ∧
      (x < hi → x < start c + size c) := by
  induction l generalizing lo with
  | nil => contradiction
  | cons c cs ih =>
    obtain ⟨hst, hr⟩ := h
    have hh : start c ≤ x := by omega
    rw [locate_cons_of_le hh]
    by_cases hin : cs ≠ [] ∧ lo + size c ≤ x
    · obtain ⟨d, hd, hl, hs⟩ := ih hr hin.1 hin.2
      exact ⟨d, mem_cons_of_mem _ hd, by rw [hl]; rfl, hs⟩
    · -- No later segment starts at or before the point.
      have hn : locate start cs x = none := by
        unfold locate
        rw [getLast?_eq_none_iff, filter_eq_nil_iff]
        intro d hd
        have hb := hr.bounds hd
        have hcs : cs ≠ [] := ne_nil_of_mem hd
        have hlt : ¬ lo + size c ≤ x := fun hle => hin ⟨hcs, hle⟩
        simp only [decide_eq_true_eq]
        omega
      refine ⟨c, mem_cons_self, by rw [hn]; rfl, hh, ?_⟩
      cases cs with
      | nil =>
        have heq : lo + size c = hi := hr
        omega
      | cons d cs =>
        have hlt : ¬ lo + size c ≤ x := fun hle => hin ⟨by simp, hle⟩
        omega

/-! ## What the segments hold -/

section Content
variable {bytes : α → List β}
section
variable (h : Consecutive start size lo l hi) (hbytes : ∀ c ∈ l, (bytes c).length = size c)
include h hbytes

lemma length_flatMap : lo + (l.flatMap bytes).length = hi := by
  induction l generalizing lo with
  | nil => exact h
  | cons c cs ih =>
    obtain ⟨hc, hcs⟩ := forall_mem_cons.mp hbytes
    have hl := ih h.2 hcs
    rw [flatMap_cons, length_append, hc]
    omega

/-- Up to the end of the segment, what stands at a point of it is what the segment holds. -/
lemma take_drop_flatMap (hc : c ∈ l) (hle : start c ≤ x) {k : Nat}
    (hk : x + k ≤ start c + size c) :
    ((l.flatMap bytes).drop (x - lo)).take k = ((bytes c).drop (x - start c)).take k := by
  induction l generalizing lo with
  | nil => cases hc
  | cons d cs ih =>
    obtain ⟨hs, hr⟩ := h
    obtain ⟨hd, hcs⟩ := forall_mem_cons.mp hbytes
    rw [flatMap_cons]
    rcases mem_cons.mp hc with rfl | hc
    · rw [hs, drop_append_of_le_length (by omega), take_append_of_le_length]
      rw [length_drop]
      omega
    · have hb := hr.bounds hc
      have hsp : x - lo = (bytes d).length + (x - (lo + size d)) := by omega
      rw [hsp, drop_length_add_append]
      exact ih hr hcs hc

/-- What is written from a point on goes to each segment from there on, in order. -/
lemma patch_flatMap (data : List β) :
    patch (l.flatMap bytes) (x - lo) (data.drop (lo - x)) =
      l.flatMap fun c => patch (bytes c) (x - start c) (data.drop (start c - x)) := by
  induction l generalizing lo with
  | nil => rfl
  | cons c cs ih =>
    obtain ⟨hs, hr⟩ := h
    obtain ⟨hc, hcs⟩ := forall_mem_cons.mp hbytes
    have hp : x - lo - size c = x - (lo + size c) := by omega
    have hd : lo - x + (size c - (x - lo)) = lo + size c - x := by omega
    rw [flatMap_cons, flatMap_cons, patch_append, hc, hs, drop_drop, hp, hd,
      ih hr hcs]

end

end Content

end GunyahVmm.Segments
