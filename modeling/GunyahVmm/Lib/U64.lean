import Mathlib.Data.Nat.Basic

/-! Unsigned 64-bit arithmetic on natural numbers. -/

namespace GunyahVmm

abbrev u64Size : Nat := 0x10000000000000000

def checkedAdd (a b : Nat) : Option Nat := if a + b < u64Size then some (a + b) else none

def checkedSub (a b : Nat) : Option Nat := if b ≤ a then some (a - b) else none

def wrappingAdd (a b : Nat) : Nat := (a + b) % u64Size

/-- The distance from `b` up to `a`, around the end of the address space. -/
def wrappingSub (a b : Nat) : Nat := (a + (u64Size - b)) % u64Size

def divCeil (a b : Nat) : Nat := (a + b - 1) / b

variable {a b : Nat}

lemma checkedAdd_eq_some {c : Nat} : checkedAdd a b = some c ↔ a + b < u64Size ∧ c = a + b := by
  unfold checkedAdd
  split
  · simp [*, eq_comm]
  · simp [*]

lemma checkedAdd_eq_none : checkedAdd a b = none ↔ u64Size ≤ a + b := by
  unfold checkedAdd
  split <;> simp <;> omega

lemma wrappingAdd_lt (a b : Nat) : wrappingAdd a b < u64Size := Nat.mod_lt _ (by decide)

lemma wrappingAdd_of_lt (h : a + b < u64Size) : wrappingAdd a b = a + b := Nat.mod_eq_of_lt h

variable (ha : a < u64Size) (hb : b < u64Size)
include ha hb

lemma wrappingSub_wrappingAdd : wrappingSub (wrappingAdd a b) a = b := by
  simp only [wrappingSub, wrappingAdd, u64Size] at ha hb ⊢
  omega

lemma wrappingAdd_wrappingSub : wrappingAdd b (wrappingSub a b) = a := by
  simp only [wrappingSub, wrappingAdd, u64Size] at ha hb ⊢
  omega

lemma wrappingAdd_left_cancel {c : Nat} (hc : c < u64Size)
    (h : wrappingAdd a b = wrappingAdd a c) :
    b = c := by
  have hs := congrArg (fun x => wrappingSub x a) h
  simpa only [wrappingSub_wrappingAdd ha hb, wrappingSub_wrappingAdd ha hc] using hs

end GunyahVmm
