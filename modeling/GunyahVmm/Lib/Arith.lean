import GunyahVmm.Lib.Run
import GunyahVmm.Lib.U64
import Mathlib.Algebra.GroupWithZero.Nat

/-! Arithmetic of unsigned integers in builds with overflow checks: a result that does not
fit aborts. -/

namespace GunyahVmm
open Run

def u32Size : Nat := 0x100000000

variable {ε : Type}

/-- The sum of two integers of a type with `size` values. -/
def addIn (size a b : Nat) : Outcome ε Nat := if a + b < size then .ok (a + b) else .panic

def addU64 (a b : Nat) : Outcome ε Nat := addIn u64Size a b

def addU32 (a b : Nat) : Outcome ε Nat := addIn u32Size a b

def subU64 (a b : Nat) : Outcome ε Nat := if b ≤ a then .ok (a - b) else .panic

def sumU64 (l : List Nat) : Outcome ε Nat := l.foldlM addU64 0

variable {size a b : Nat} {l : List Nat}

lemma addIn_of_lt (h : a + b < size) : (addIn size a b : Outcome ε Nat) = .ok (a + b) := if_pos h

lemma addIn_eq_ok {c : Nat} :
    (addIn size a b : Outcome ε Nat) = .ok c ↔ a + b < size ∧ c = a + b := by
  unfold addIn
  split
  all_goals rename_i hf
  · simp [hf, eq_comm]
  · simp [hf]

lemma addIn_yieldsIf {c : Prop} (h : c → a + b < size) :
    Outcome.YieldsIf c (addIn size a b : Outcome ε Nat) (· = a + b) := by
  unfold addIn
  split
  · exact rfl
  · rename_i ho
    exact fun hc => ho (h hc)

lemma subU64_yieldsIf {c : Prop} (h : c → b ≤ a) :
    Outcome.YieldsIf c (subU64 a b : Outcome ε Nat) (· = a - b) := by
  unfold subU64
  split
  · exact rfl
  · rename_i hu
    exact fun hc => hu (h hc)

lemma addU64_of_lt (h : a + b < u64Size) : (addU64 a b : Outcome ε Nat) = .ok (a + b) :=
  addIn_of_lt h

lemma subU64_of_le (h : b ≤ a) : (subU64 a b : Outcome ε Nat) = .ok (a - b) := if_pos h

lemma subU64_eq_ok {c : Nat} : (subU64 a b : Outcome ε Nat) = .ok c ↔ b ≤ a ∧ c = a - b := by
  unfold subU64
  split
  all_goals rename_i hle
  · simp [hle, eq_comm]
  · simp [hle]

lemma foldlM_addU64_of_lt {acc : Nat} (h : acc + l.sum < u64Size) :
    (l.foldlM addU64 acc : Outcome ε Nat) = .ok (acc + l.sum) := by
  induction l generalizing acc with
  | nil => rfl
  | cons a l ih =>
    rw [List.sum_cons, ← Nat.add_assoc] at h
    rw [List.foldlM_cons, addU64_of_lt (by omega), Outcome.ok_bind, ih h, List.sum_cons,
      Nat.add_assoc]

lemma sumU64_of_lt (h : l.sum < u64Size) : (sumU64 l : Outcome ε Nat) = .ok l.sum := by
  rw [← Nat.zero_add l.sum] at h ⊢
  exact foldlM_addU64_of_lt h

lemma foldlM_addU64_eq_ok {acc sum : Nat} (h : (l.foldlM addU64 acc : Outcome ε Nat) = .ok sum) :
    sum = acc + l.sum := by
  induction l generalizing acc with
  | nil =>
    cases h
    rfl
  | cons a l ih =>
    rw [List.foldlM_cons] at h
    obtain ⟨next, hn, hr⟩ := Outcome.bind_eq_ok.mp h
    rw [ih hr, (addIn_eq_ok.mp hn).2, List.sum_cons, Nat.add_assoc]

lemma sumU64_eq_ok {sum : Nat} (h : (sumU64 l : Outcome ε Nat) = .ok sum) : sum = l.sum := by
  rw [foldlM_addU64_eq_ok h, Nat.zero_add]

end GunyahVmm
