import Mathlib.Data.BitVec
import Mathlib.Data.List.Basic
import Mathlib.Tactic.Ring

/-! Windows of a wrapping counter. Membership compares two distances, unless it goes all round. -/

namespace GunyahVmm
open BitVec

def window {w : Nat} (a : BitVec w) (n : Nat) : List (BitVec w) :=
  (List.range n).map fun k => a + BitVec.ofNat w k

namespace Window
variable {w : Nat} {a e : BitVec w} {n : Nat}

@[simp] lemma length_window : (window a n).length = n := by simp [window]

lemma window_succ : window a (n + 1) = window a n ++ [a + BitVec.ofNat w n] := by
  simp [window, List.range_succ]

lemma mem_window : e ∈ window a n ↔ (e - a).toNat < n := by
  simp only [window, List.mem_map, List.mem_range]
  constructor
  · rintro ⟨k, hk, rfl⟩
    rw [add_comm, add_sub_cancel, toNat_ofNat]
    exact lt_of_le_of_lt (Nat.mod_le _ _) hk
  · intro h
    refine ⟨(e - a).toNat, h, ?_⟩
    rw [ofNat_toNat, setWidth_eq, add_comm, sub_add_cancel]

/-- The distance from `d` up to the last of `n` values, around the end of the counter. -/
lemma toNat_sub_sub_one {d : BitVec w} (hn : n < 2 ^ w) :
    (BitVec.ofNat w n - d - 1#w).toNat < n ↔ d.toNat < n := by
  have hd := d.isLt
  rcases Nat.eq_zero_or_pos n with rfl | hp
  · simp
  have ho : (1#w).toNat = 1 := by
    rw [toNat_ofNat]
    exact Nat.mod_eq_of_lt (by omega)
  have hof : (BitVec.ofNat w n).toNat = n := by
    rw [toNat_ofNat]
    exact Nat.mod_eq_of_lt hn
  rw [BitVec.sub_sub, BitVec.toNat_sub, hof]
  have hs : (d + 1#w).toNat = if d.toNat + 1 = 2 ^ w then 0 else d.toNat + 1 := by
    rw [toNat_add, ho]
    split
    · rename_i heq
      rw [heq, Nat.mod_self]
    · exact Nat.mod_eq_of_lt (by omega)
  rw [hs]
  split
  · rw [Nat.sub_zero, Nat.add_mod_left, Nat.mod_eq_of_lt hn]
    omega
  · by_cases hlt : d.toNat < n
    · have heq : 2 ^ w - (d.toNat + 1) + n = 2 ^ w + (n - (d.toNat + 1)) := by omega
      rw [heq, Nat.add_mod_left, Nat.mod_eq_of_lt (by omega)]
      omega
    · rw [Nat.mod_eq_of_lt (by omega)]
      omega

/-- **The comparison.** `e` is closer than `a` exactly when it is among the `n` values from `a` on.
-/
lemma sub_lt_sub_iff (hn : n < 2 ^ w) :
    a + BitVec.ofNat w n - e - 1#w < a + BitVec.ofNat w n - a ↔ e ∈ window a n := by
  have hr : a + BitVec.ofNat w n - a = BitVec.ofNat w n := by
    rw [BitVec.add_comm, BitVec.add_sub_cancel]
  have hl : a + BitVec.ofNat w n - e - 1#w = BitVec.ofNat w n - (e - a) - 1#w := by
    ring
  have hof : (BitVec.ofNat w n).toNat = n := by
    rw [toNat_ofNat]
    exact Nat.mod_eq_of_lt hn
  rw [mem_window, ← toNat_sub_sub_one hn, hl, hr, lt_def, hof]

end Window

end GunyahVmm
