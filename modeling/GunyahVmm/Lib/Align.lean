import Mathlib.Data.Nat.Bitwise
import Mathlib.Order.Bounds.Defs

/-! Multiples of an alignment above and below a number. -/

namespace GunyahVmm.Align
open Nat
variable {n m q a : Nat}

/-- The first multiple of `a` from `n` on. -/
def alignUp (n a : Nat) : Nat := if n % a = 0 then n else n + a - n % a

/-- The last multiple of `a` up to `n`. -/
def alignDown (n a : Nat) : Nat := n - n % a

lemma alignDown_le (n a : Nat) : alignDown n a ≤ n := sub_le _ _

lemma dvd_alignDown (n a : Nat) : a ∣ alignDown n a := dvd_sub_mod n

lemma le_alignDown (hq : a ∣ q) (hle : q ≤ n) : q ≤ alignDown n a := by
  obtain ⟨c, rfl⟩ := hq
  have hd : a * (n / a) = alignDown n a := by
    have := div_add_mod n a
    rw [alignDown]
    omega
  rw [← hd]
  rcases Nat.eq_zero_or_pos a with rfl | ha
  · simp
  · exact mul_le_mul_left a ((le_div_iff_mul_le ha).mpr (by rwa [mul_comm]))

lemma le_alignUp (ha : 0 < a) (n : Nat) : n ≤ alignUp n a := by
  have := mod_lt n ha
  rw [alignUp]
  split_ifs
  · exact le_rfl
  · omega

lemma dvd_alignUp (n : Nat) : a ∣ alignUp n a := by
  rw [alignUp]
  split_ifs with h
  · exact dvd_of_mod_eq_zero h
  · have hm := mod_le n a
    rw [Nat.add_comm, Nat.add_sub_assoc hm]
    exact (Nat.dvd_add_right (dvd_refl a)).mpr (Nat.dvd_sub_mod n)

lemma alignUp_le (ha : 0 < a) (hq : a ∣ q) (hle : n ≤ q) : alignUp n a ≤ q := by
  rw [alignUp]
  split_ifs with h
  · exact hle
  · -- `q` is above the multiple below `n`, so it is at least the next one
    obtain ⟨c, rfl⟩ := hq
    have hd := div_add_mod n a
    have hlt : n / a < c := by
      by_contra hge
      have := Nat.mul_le_mul_left a (Nat.le_of_not_lt hge)
      omega
    have := mul_le_mul_left a (succ_le_of_lt hlt)
    rw [mul_succ] at this
    omega

lemma alignUp_mono (ha : 0 < a) (h : n ≤ m) : alignUp n a ≤ alignUp m a :=
  alignUp_le ha (dvd_alignUp m) (h.trans (le_alignUp ha m))

/-- Where the alignment divides `m`, the padding reaches `m` only if the aligned number does. -/
lemma add_lt_of_alignUp_lt (ha : 0 < a) (ham : a ∣ m) (h : alignUp n a < m) (hn : n % a ≠ 0) :
    n + a < m := by
  have hup : alignUp n a = n + a - n % a := if_neg hn
  have hm := mod_lt n ha
  -- both are multiples, so there is a whole alignment between them
  obtain ⟨c, hc⟩ := dvd_alignUp (a := a) n
  obtain ⟨d, rfl⟩ := ham
  rw [hc] at h hup
  have := Nat.mul_le_mul_left a (Nat.succ_le_of_lt (Nat.lt_of_mul_lt_mul_left h))
  rw [mul_succ] at this
  omega

/-- Clearing the low bits of a number of `w` bits. -/
lemma and_mask_eq_alignDown {w k : Nat} (hk : k ≤ w) (hn : n < 2 ^ w) :
    n &&& (2 ^ w - 1 - (2 ^ k - 1)) = alignDown n (2 ^ k) := by
  have hp : 2 ^ k - 1 < 2 ^ w := by
    have := Nat.pow_le_pow_right (by decide : 0 < 2) hk
    have := Nat.two_pow_pos k
    omega
  have hd : alignDown n (2 ^ k) = (n >>> k) <<< k := by
    rw [shiftRight_eq_div_pow, shiftLeft_eq, alignDown, mul_comm]
    have := div_add_mod n (2 ^ k)
    omega
  rw [hd, Nat.sub_sub, Nat.add_comm 1]
  refine eq_of_testBit_eq fun i => ?_
  rw [testBit_and, testBit_two_pow_sub_succ hp, testBit_two_pow_sub_one, testBit_shiftLeft]
  by_cases hik : i < k
  · simp [hik, not_le.mpr hik]
  rw [Nat.testBit_shiftRight, Nat.add_sub_cancel' (Nat.le_of_not_lt hik)]
  by_cases hiw : i < w
  · simp [hik, hiw, Nat.le_of_not_lt hik]
  have hz : n.testBit i = false := testBit_lt_two_pow
    (hn.trans_le (Nat.pow_le_pow_right (by decide) (Nat.le_of_not_lt hiw)))
  simp [hz]

end GunyahVmm.Align
