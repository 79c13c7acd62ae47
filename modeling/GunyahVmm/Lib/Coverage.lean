import Mathlib.Data.List.Basic
import Mathlib.Data.List.Count
import Mathlib.Data.List.Pairwise
import Mathlib.Data.List.Perm.Basic

/-! Conservation of covered points: how often pieces contain a point. Pieces are disjoint exactly if
none is covered twice, so keeping the cover keeps disjointness and union. -/

namespace GunyahVmm.Coverage
open List
variable {α ι : Type}

/-- How often the pieces of `l` cover the point `x`. -/
def cover (mem : α → ι → Bool) (l : List α) (x : ι) : Nat := l.countP (fun a => mem a x)

def Apart (mem : α → ι → Bool) (a b : α) : Prop := ∀ x, ¬ (mem a x = true ∧ mem b x = true)

variable {mem : α → ι → Bool} {l : List α}

section
variable (mem : α → ι → Bool)

@[simp] lemma cover_nil (x : ι) : cover mem [] x = 0 := rfl

@[simp] lemma cover_cons (a : α) (l : List α) (x : ι) :
    cover mem (a :: l) x = (if mem a x then 1 else 0) + cover mem l x := by
  simp only [cover, countP_cons]
  omega

@[simp] lemma cover_append (l m : List α) (x : ι) :
    cover mem (l ++ m) x = cover mem l x + cover mem m x := by
  simp [cover, countP_append]

lemma cover_perm {m : List α} (h : l.Perm m) (x : ι) : cover mem l x = cover mem m x :=
  h.countP_eq _

lemma cover_pos_iff (l : List α) (x : ι) : 0 < cover mem l x ↔ ∃ a ∈ l, mem a x = true := by
  simp [cover, countP_pos_iff]

lemma cover_eq_zero_iff (l : List α) (x : ι) : cover mem l x = 0 ↔ ∀ a ∈ l, mem a x = false := by
  simp [cover, countP_eq_zero]

lemma cover_filter (p : α → Bool) (l : List α)
    (hp : ∀ a ∈ l, p a = false → ∀ x, mem a x = false) (x : ι) :
    cover mem (l.filter p) x = cover mem l x := by
  induction l with
  | nil => rfl
  | cons a l ih =>
    have hl := ih (forall_mem_cons.mp hp).2
    cases h : p a with
    | true => rw [filter_cons_of_pos h, cover_cons, cover_cons, hl]
    | false =>
      rw [filter_cons_of_neg (by simp [h]), cover_cons, hl,
        hp a mem_cons_self h x]
      simp

end

lemma cover_le_one (h : l.Pairwise (Apart mem)) (x : ι) : cover mem l x ≤ 1 := by
  induction h with
  | nil => simp
  | @cons a l ha _ ih =>
    rw [cover_cons]
    cases hx : mem a x with
    | false => simpa using ih
    | true =>
      have hz : cover mem l x = 0 := by
        rw [cover_eq_zero_iff]
        intro b hb
        have hab := ha b hb x
        simpa [hx] using hab
      simp [hz]

lemma pairwise_of_cover_le_one (h : ∀ x, cover mem l x ≤ 1) : l.Pairwise (Apart mem) := by
  induction l with
  | nil => exact List.Pairwise.nil
  | cons a l ih =>
    refine List.Pairwise.cons ?_ (ih fun x => ?_)
    · intro b hb x hx
      have hbx : 0 < cover mem l x := (cover_pos_iff mem l x).mpr ⟨b, hb, hx.2⟩
      have hle := h x
      rw [cover_cons, hx.1] at hle
      simp only [↓reduceIte] at hle
      omega
    · have hle := h x
      rw [cover_cons] at hle
      omega

/-- Pieces of two lists that together cover no point twice are disjoint. -/
lemma apart_of_cover_add_le_one {m : List α} (h : ∀ x, cover mem l x + cover mem m x ≤ 1)
    {a b : α} (ha : a ∈ l) (hb : b ∈ m) : Apart mem a b := by
  intro x hx
  have hl := (cover_pos_iff mem l x).mpr ⟨a, ha, hx.1⟩
  have hm := (cover_pos_iff mem m x).mpr ⟨b, hb, hx.2⟩
  have := h x
  omega

end GunyahVmm.Coverage
