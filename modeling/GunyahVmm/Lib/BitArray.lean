import Mathlib.Data.List.Basic

/-! Bits packed in bytes, the lowest first, with one lemma for what an operation does to each. -/

namespace GunyahVmm
open BitVec List

abbrev BitArray := List (BitVec 8)

namespace BitArray

/-- The byte in which bit `i` is alone. -/
def mask (i : Nat) : BitVec 8 := 1#8 <<< (i % 8)

def testBit (a : BitArray) (i : Nat) : Bool := a.getD (i / 8) 0#8 &&& mask i != 0#8

def setBit (a : BitArray) (i : Nat) : BitArray := a.modify (i / 8) (· ||| mask i)

def clearBit (a : BitArray) (i : Nat) : BitArray := a.modify (i / 8) (· &&& ~~~ mask i)

def setBits (a : BitArray) (start : Nat) : Nat → BitArray
  | 0 => a
  | n + 1 => setBits (a.setBit start) (start + 1) n

def clearBits (a : BitArray) (start : Nat) : Nat → BitArray
  | 0 => a
  | n + 1 => clearBits (a.clearBit start) (start + 1) n

lemma getLsbD_mask (i k : Nat) : (mask i).getLsbD k = decide (k = i % 8) := by
  have hi : i % 8 < 8 := Nat.mod_lt _ (by decide)
  rw [mask, getLsbD_shiftLeft, getLsbD_one]
  by_cases hk : k = i % 8
  · simp [hk, hi]
  simp only [hk, decide_false]
  by_cases hlt : k < i % 8
  · simp [hlt]
  · have : k - i % 8 ≠ 0 := by omega
    simp [this]

lemma testBit_eq (a : BitArray) (i : Nat) :
    a.testBit i = (a.getD (i / 8) 0#8).getLsbD (i % 8) := by
  rw [testBit, Bool.eq_iff_iff, bne_iff_ne, ne_eq]
  constructor
  · intro h
    by_contra hb
    apply h
    apply eq_of_getLsbD_eq
    intro k _
    rw [getLsbD_and, getLsbD_mask, getLsbD_zero]
    by_cases hk : k = i % 8
    · simpa [hk] using hb
    · simp [hk]
  · intro hb h
    have hk := congrArg (fun b => b.getLsbD (i % 8)) h
    simp only [getLsbD_and, getLsbD_mask, hb, getLsbD_zero] at hk
    simp at hk

/-- Changing one byte changes the bits of this byte only. -/
lemma testBit_modify (a : BitArray) (f : BitVec 8 → BitVec 8) {k : Nat} (hk : k < a.length)
    (j : Nat) :
    testBit (a.modify k f) j =
      if j / 8 = k then (f (a.getD k 0#8)).getLsbD (j % 8) else a.testBit j := by
  rw [testBit_eq, testBit_eq, getD_eq_getElem?_getD, getElem?_modify]
  by_cases h : j / 8 = k
  · subst h
    simp [List.getElem?_eq_getElem hk]
  · have h' : ¬ k = j / 8 := fun e => h e.symm
    simp [h, h']

variable {a : BitArray}

lemma testBit_setBit {i : Nat} (hi : i < 8 * a.length) (j : Nat) :
    (a.setBit i).testBit j = (decide (j = i) || a.testBit j) := by
  rw [setBit, testBit_modify a _ (by omega)]
  by_cases h : j / 8 = i / 8
  · rw [if_pos h, getLsbD_or, getLsbD_mask, ← h, ← testBit_eq, Bool.or_comm]
    congr 1
    have : (j % 8 = i % 8) ↔ j = i := by omega
    simp [this]
  · have : j ≠ i := fun e => h (by rw [e])
    simp [h, this]

lemma testBit_clearBit {i : Nat} (hi : i < 8 * a.length) (j : Nat) :
    (a.clearBit i).testBit j = (decide (j ≠ i) && a.testBit j) := by
  rw [clearBit, testBit_modify a _ (by omega)]
  by_cases h : j / 8 = i / 8
  · have hj : j % 8 < 8 := Nat.mod_lt _ (by decide)
    rw [if_pos h, getLsbD_and, getLsbD_not, getLsbD_mask, ← h, ← testBit_eq, Bool.and_comm]
    congr 1
    have : (j % 8 = i % 8) ↔ j = i := by omega
    simp [this, hj]
  · have : j ≠ i := fun e => h (by rw [e])
    simp [h, this]

@[simp] lemma length_setBit (a : BitArray) (i : Nat) : (a.setBit i).length = a.length :=
  length_modify ..

@[simp] lemma length_clearBit (a : BitArray) (i : Nat) : (a.clearBit i).length = a.length :=
  length_modify ..

@[simp] lemma length_setBits (a : BitArray) (start n : Nat) :
    (a.setBits start n).length = a.length := by
  induction n generalizing a start with
  | zero => rfl
  | succ n ih => rw [setBits, ih, length_setBit]

@[simp] lemma length_clearBits (a : BitArray) (start n : Nat) :
    (a.clearBits start n).length = a.length := by
  induction n generalizing a start with
  | zero => rfl
  | succ n ih => rw [clearBits, ih, length_clearBit]

lemma testBit_setBits {start n : Nat} (h : start + n ≤ 8 * a.length) (j : Nat) :
    (a.setBits start n).testBit j = (decide (start ≤ j ∧ j < start + n) || a.testBit j) := by
  induction n generalizing a start with
  | zero =>
    have hemp : decide (start ≤ j ∧ j < start + 0) = false := decide_eq_false (by omega)
    rw [hemp, Bool.false_or, setBits]
  | succ n ih =>
    rw [setBits, ih (by rw [length_setBit]; omega), testBit_setBit (by omega), ← Bool.or_assoc]
    congr 1
    rw [← Bool.decide_or]
    exact decide_eq_decide.mpr (by omega)

lemma testBit_clearBits {start n : Nat} (h : start + n ≤ 8 * a.length) (j : Nat) :
    (a.clearBits start n).testBit j = (decide (¬ (start ≤ j ∧ j < start + n)) && a.testBit j) := by
  induction n generalizing a start with
  | zero =>
    have hemp : decide (¬ (start ≤ j ∧ j < start + 0)) = true := decide_eq_true (by omega)
    rw [hemp, Bool.true_and, clearBits]
  | succ n ih =>
    rw [clearBits, ih (by rw [length_clearBit]; omega), testBit_clearBit (by omega),
      ← Bool.and_assoc]
    congr 1
    rw [← Bool.decide_and]
    exact decide_eq_decide.mpr (by omega)

lemma testBit_replicate_zero (n i : Nat) : testBit (replicate n 0#8) i = false := by
  rw [testBit_eq, getD_eq_getElem?_getD, getElem?_replicate]
  split <;> simp

end BitArray

end GunyahVmm
