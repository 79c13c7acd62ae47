import Mathlib.Data.Fintype.Pigeonhole

/-! A loop as a partial function of its state. Over a finite type it ends unless it comes back. -/

namespace GunyahVmm.Iterate
variable {α : Type} {step : α → Option α} {a b : α} {m n : Nat}

/-- The state after `n` rounds; `none` if the loop has ended by then. -/
def after (step : α → Option α) : Nat → α → Option α
  | 0, a => some a
  | n + 1, a => (step a).bind (after step n)

def Recurs (step : α → Option α) (a : α) : Prop :=
  ∃ i j b, i < j ∧ after step i a = some b ∧ after step j a = some b

lemma after_add (m n : Nat) (a : α) :
    after step (m + n) a = (after step m a).bind (after step n) := by
  induction m generalizing a with
  | zero => rw [Nat.zero_add, after, Option.bind_some]
  | succ m ih =>
    rw [Nat.succ_add, after, after, Option.bind_assoc]
    exact congrArg _ (funext ih)

lemma after_eq_none_mono (h : after step m a = none) (hmn : m ≤ n) : after step n a = none := by
  obtain ⟨k, rfl⟩ := Nat.exists_eq_add_of_le hmn
  rw [after_add, h, Option.bind_none]

/-- A loop that returns to a state goes around for ever. -/
lemma after_mul_of_return (h : after step n a = some a) (k : Nat) :
    after step (n * k) a = some a := by
  induction k with
  | zero => rfl
  | succ k ih => rw [Nat.mul_succ, after_add, ih, Option.bind_some, h]

lemma not_stops_of_recurs (h : Recurs step a) (n : Nat) : after step n a ≠ none := by
  obtain ⟨i, j, b, hij, hi, hj⟩ := h
  intro hn
  obtain ⟨k, rfl⟩ := Nat.exists_eq_add_of_lt hij
  rw [Nat.add_assoc, after_add, hi, Option.bind_some] at hj
  have ha := after_mul_of_return hj n
  have hp : n ≤ i + (k + 1) * n := by
    have hr : n ≤ (k + 1) * n := Nat.le_mul_of_pos_left n (Nat.succ_pos k)
    omega
  have hl := after_eq_none_mono hn hp
  rw [after_add, hi, Option.bind_some, ha] at hl
  cases hl

lemma recurs_of_not_stops [Finite α] (h : ∀ n, after step n a ≠ none) : Recurs step a := by
  have hs : ∀ n, ∃ b, after step n a = some b := fun n => Option.ne_none_iff_exists'.mp (h n)
  choose f hf using hs
  -- the states of infinitely many rounds are not all different
  obtain ⟨i, j, hne, heq⟩ := Finite.exists_ne_map_eq_of_infinite f
  rcases Nat.lt_or_gt_of_ne hne with hlt | hgt
  · exact ⟨i, j, f i, hlt, hf i, heq ▸ hf j⟩
  · exact ⟨j, i, f j, hgt, hf j, heq ▸ hf i⟩

lemma stops_iff [Finite α] : (∃ n, after step n a = none) ↔ ¬ Recurs step a := by
  constructor
  · rintro ⟨n, hn⟩ hr
    exact not_stops_of_recurs hr n hn
  · intro hr
    by_contra hgo
    exact hr (recurs_of_not_stops fun n hn => hgo ⟨n, hn⟩)

end GunyahVmm.Iterate
