import GunyahVmm.Lib.U64

/-! Byte memory over the circular 64-bit address space, and block copies on it. -/

namespace GunyahVmm

abbrev Memory := Nat → BitVec 8

namespace Memory

def within (start n a : Nat) : Bool := wrappingSub a start < n

def copyMem (m : Memory) (dst src n : Nat) : Memory := fun a =>
  if within dst n a then m (wrappingAdd src (wrappingSub a dst)) else m a

def zeroMem (m : Memory) (dst n : Nat) : Memory := fun a =>
  if within dst n a then 0 else m a

def write (m : Memory) (address : Nat) (v : BitVec 8) : Memory := fun a =>
  if a = address then v else m a

lemma copyMem_outside {m : Memory} {dst src n a : Nat} (h : within dst n a = false) :
    m.copyMem dst src n a = m a := by
  simp [copyMem, h]

lemma zeroMem_outside {m : Memory} {dst n a : Nat} (h : within dst n a = false) :
    m.zeroMem dst n a = m a := by
  simp [zeroMem, h]

lemma within_wrappingAdd {start n k : Nat} (hs : start < u64Size) (hk : k < n)
    (hn : n ≤ u64Size) : within start n (wrappingAdd start k) = true := by
  simp only [within, wrappingSub_wrappingAdd hs (Nat.lt_of_lt_of_le hk hn), hk, decide_true]

/-- A copy puts byte `k` of the source at byte `k` of the destination. -/
lemma copyMem_wrappingAdd (m : Memory) {dst src n k : Nat} (hd : dst < u64Size) (hk : k < n)
    (hn : n ≤ u64Size) : m.copyMem dst src n (wrappingAdd dst k) = m (wrappingAdd src k) := by
  have hin := within_wrappingAdd hd hk hn
  simp [copyMem, hin, wrappingSub_wrappingAdd hd (Nat.lt_of_lt_of_le hk hn)]

lemma within_mono {start n n' a : Nat} (hn : n ≤ n') (h : within start n a = true) :
    within start n' a = true := by
  simp only [within, decide_eq_true_eq] at h ⊢
  omega

end Memory

end GunyahVmm
