import GunyahVmm.Lib.Align
import GunyahVmm.Lib.Arith

/-! `VolatileSlice::is_all_zero` reads blocks of 16 bytes between the rounded ends. Those of a slice
inside one block are outside of the slice. -/

namespace GunyahVmm.VolatileMemory
open List GunyahVmm.Run Outcome Align

structure VolatileSlice where
  addr : Nat
  bytes : List (BitVec 8)

/-- A read of a byte that is not in the slice. -/
inductive Fault where
  | outside (addr : Nat)

namespace VolatileSlice
variable (s : VolatileSlice)

def size : Nat := s.bytes.length

def readByte (addr : Nat) : Outcome Fault (BitVec 8) :=
  match s.bytes[addr - s.addr]? with
  | some b => if s.addr ≤ addr then ok b else err (.outside addr)
  | none => err (.outside addr)

/-- Whether the 16-byte integer at an address is not zero. -/
def readNonzero (addr : Nat) : Outcome Fault Bool :=
  (range' addr 16).foldlM (fun found a => do
    let b ← s.readByte a
    ok (found || b != 0)) false

def isAllZeroNaive (headAddr tailAddr : Nat) : Outcome Fault Bool :=
  (range' headAddr (tailAddr - headAddr)).allM fun addr => do
    let b ← s.readByte addr
    ok (b == 0)

def isAllZero : Outcome Fault Bool := do
  let rounded ← addU64 s.addr 0xF
  let alignedHead := rounded &&& 0xFFFFFFFFFFFFFFF0
  let tail ← addU64 s.addr s.size
  let alignedTail := tail &&& 0xFFFFFFFFFFFFFFF0
  let found ← (range' alignedHead ((alignedTail - alignedHead + 15) / 16) 16).anyM s.readNonzero
  if found then ok false
  else if s.addr = alignedHead ∧ tail = alignedTail then ok true
  else do
    let head ← s.isAllZeroNaive s.addr alignedHead
    if head then s.isAllZeroNaive alignedTail tail else ok false

/-! ## What the reads find -/

def byteAt (addr : Nat) : BitVec 8 := s.bytes.getD (addr - s.addr) 0

/-- The bytes from one address up to another are zero. -/
def Zero (lo hi : Nat) : Prop := ∀ a, lo ≤ a → a < hi → s.byteAt a = 0

variable {s} {α ε : Type} {lo hi : Nat}

lemma anyM_ok {f : α → Outcome ε Bool} {p : α → Bool} {l : List α}
    (h : ∀ a ∈ l, f a = ok (p a)) : l.anyM f = ok (l.any p) := by
  induction l with
  | nil => rfl
  | cons a l ih =>
    rw [anyM, h a mem_cons_self, ok_bind, ih (forall_mem_cons.mp h).2]
    cases hp : p a <;> simp [hp]

lemma allM_append_ok {f : α → Outcome ε Bool} {p : α → Bool} {l m : List α}
    (h : ∀ a ∈ l, f a = ok (p a)) :
    (l ++ m).allM f = if l.all p then m.allM f else ok false := by
  induction l with
  | nil => rfl
  | cons a l ih =>
    rw [cons_append, allM, h a mem_cons_self, ok_bind, ih (forall_mem_cons.mp h).2, all_cons]
    cases p a <;> simp

lemma readByte_inside {a : Nat} (hlo : s.addr ≤ a) (hhi : a < s.addr + s.size) :
    s.readByte a = ok (s.byteAt a) := by
  have hlt : a - s.addr < s.bytes.length := by
    simp only [size] at hhi
    omega
  simp [readByte, byteAt, hlt, hlo]

/-- Whether a byte of the block at an address is not zero. -/
def nonzeroAt (s : VolatileSlice) (addr : Nat) : Bool :=
  (range' addr 16).any fun a => s.byteAt a != 0

lemma nonzeroAt_eq_false {a : Nat} : s.nonzeroAt a = false ↔ s.Zero a (a + 16) := by
  simp [nonzeroAt, Zero, mem_range'_1]

lemma readNonzero_inside {a : Nat} (hlo : s.addr ≤ a) (hhi : a + 16 ≤ s.addr + s.size) :
    s.readNonzero a = ok (s.nonzeroAt a) := by
  have hfold (l : List Nat) (hl : ∀ b ∈ l, s.addr ≤ b ∧ b < s.addr + s.size) (acc : Bool) :
      (l.foldlM (fun found a => do let b ← s.readByte a; ok (found || b != 0)) acc) =
        (ok (acc || l.any fun b => s.byteAt b != 0) : Outcome Fault Bool) := by
    induction l generalizing acc with
    | nil => simp
    | cons b l ih =>
      obtain ⟨hb, hl⟩ := forall_mem_cons.mp hl
      rw [foldlM_cons, readByte_inside hb.1 hb.2, ok_bind, ok_bind, ih hl, any_cons, Bool.or_assoc]
  refine hfold _ (fun b hb => ?_) false
  rw [mem_range'_1] at hb
  omega

lemma isAllZeroNaive_inside (hlo : s.addr ≤ lo) (hhi : hi ≤ s.addr + s.size) :
    ∃ b, s.isAllZeroNaive lo hi = ok b ∧ (b = true ↔ s.Zero lo hi) := by
  have hr := allM_append_ok (l := range' lo (hi - lo)) (m := []) (p := fun a => s.byteAt a == 0)
    (f := fun a => do let b ← s.readByte a; ok (b == 0)) fun a ha => by
      rw [mem_range'_1] at ha
      rw [readByte_inside (by omega) (by omega), ok_bind]
  refine ⟨(range' lo (hi - lo)).all fun a => s.byteAt a == 0, ?_, ?_⟩
  · rw [append_nil] at hr
    rw [isAllZeroNaive, hr]
    cases (range' lo (hi - lo)).all fun a => s.byteAt a == 0 <;> rfl
  · simp only [all_eq_true, mem_range'_1, beq_iff_eq, Zero]
    exact ⟨fun h a h₁ h₂ => h a (by omega), fun h a ha => h a ha.1 (by omega)⟩

/-- The blocks between two multiples of 16. -/
lemma anyM_readNonzero (hlo : s.addr ≤ lo) (hhi : hi ≤ s.addr + s.size) (hle : lo ≤ hi)
    (hl : 16 ∣ lo) (hh : 16 ∣ hi) :
    ∃ b, (range' lo ((hi - lo + 15) / 16) 16).anyM s.readNonzero = ok b ∧
      (b = false ↔ s.Zero lo hi) := by
  obtain ⟨c, rfl⟩ := hl
  obtain ⟨d, rfl⟩ := hh
  refine ⟨_, anyM_ok (p := s.nonzeroAt) fun a ha => ?_, ?_⟩
  · obtain ⟨i, hi', rfl⟩ := mem_range'.mp ha
    exact readNonzero_inside (by omega) (by omega)
  · simp only [any_eq_false, Bool.not_eq_true, nonzeroAt_eq_false, mem_range']
    constructor
    · intro h a h₁ h₂
      exact h (16 * (a / 16)) ⟨a / 16 - c, by omega, by omega⟩ a (by omega) (by omega)
    · rintro h a ⟨i, hi', rfl⟩ b h₁ h₂
      exact h b (by omega) (by omega)

lemma all_eq_true_iff_zero : s.bytes.all (· == 0) = true ↔ s.Zero s.addr (s.addr + s.size) := by
  simp only [all_eq_true, beq_iff_eq, Zero, byteAt, size, mem_iff_getElem]
  constructor
  · intro h a h₁ h₂
    have hlt : a - s.addr < s.bytes.length := by omega
    simpa [hlt] using h _ ⟨_, hlt, rfl⟩
  · rintro h b ⟨i, hlt, rfl⟩
    simpa [hlt] using h (s.addr + i) (by omega) (by omega)

lemma Zero.append {mid : Nat} (h₁ : lo ≤ mid) (h₂ : mid ≤ hi) :
    s.Zero lo hi ↔ s.Zero lo mid ∧ s.Zero mid hi := by
  constructor
  · exact fun h => ⟨fun a h₁ _ => h a h₁ (by omega), fun a _ h₂ => h a (by omega) h₂⟩
  · rintro ⟨hl, hr⟩ a ha hb
    by_cases hm : a < mid
    · exact hl a ha hm
    · exact hr a (by omega) hb

lemma and_mask {n : Nat} (h : n < u64Size) : n &&& 0xFFFFFFFFFFFFFFF0 = alignDown n 16 :=
  and_mask_eq_alignDown (w := 64) (k := 4) (by decide) h

lemma alignDown_add (n : Nat) : alignDown (n + 15) 16 = alignUp n 16 := by
  unfold alignDown alignUp
  split_ifs <;> omega

/-- A slice that reaches a multiple of 16. -/
lemma isAllZero_of_alignUp_le (hup : alignUp s.addr 16 ≤ s.addr + s.size)
    (ha : s.addr + 15 < u64Size) (hs : s.addr + s.size < u64Size) :
    s.isAllZero = ok (s.bytes.all (· == 0)) := by
  have hh : s.addr ≤ alignUp s.addr 16 := le_alignUp (by decide) _
  have ht := alignDown_le (s.addr + s.size) 16
  have hle : alignUp s.addr 16 ≤ alignDown (s.addr + s.size) 16 := le_alignDown (dvd_alignUp _) hup
  obtain ⟨found, hf, hfz⟩ := anyM_readNonzero (s := s) hh ht hle (dvd_alignUp _) (dvd_alignDown _ _)
  obtain ⟨head, hhd, hhz⟩ := isAllZeroNaive_inside (s := s) le_rfl hup
  obtain ⟨tail, htl, htz⟩ :=
    isAllZeroNaive_inside (s := s) (hh.trans hle) (le_refl (s.addr + s.size))
  have hall : s.bytes.all (· == 0) = (head && (!found && tail)) := by
    rw [Bool.eq_iff_iff, all_eq_true_iff_zero, Bool.and_eq_true, Bool.and_eq_true,
      Bool.not_eq_true', hhz, hfz, htz, Zero.append hh hup, Zero.append hle ht]
  rw [isAllZero, addU64_of_lt ha, ok_bind, addU64_of_lt hs, ok_bind, and_mask ha, and_mask hs,
    alignDown_add]
  dsimp only
  rw [hf, ok_bind, hall]
  split_ifs with hfound hends
  · simp [hfound]
  · -- both ends are multiples of 16, and there is nothing before or behind the blocks
    have hz (a : Nat) : s.Zero a a := fun _ h₁ h₂ => absurd h₂ (by omega)
    rw [hhz.mpr (hends.1 ▸ hz _), htz.mpr (hends.2 ▸ hz _)]
    simp [hfound]
  · rw [hhd, ok_bind, htl]
    cases head <;> simp [hfound]

/-- The bytes of a slice that ends before an address: behind zeros, the next one is read as well. -/
lemma isAllZeroNaive_beyond (h : s.addr + s.size < hi) :
    s.isAllZeroNaive s.addr hi =
      if s.bytes.all (· == 0) then err (.outside (s.addr + s.size)) else ok false := by
  obtain ⟨k, rfl⟩ := Nat.exists_eq_add_of_lt h
  have hout : s.readByte (s.addr + s.size) = err (.outside (s.addr + s.size)) := by
    simp [readByte, size]
  have hz : ((range' s.addr s.size).all fun a => s.byteAt a == 0) = s.bytes.all (· == 0) := by
    rw [Bool.eq_iff_iff, all_eq_true_iff_zero]
    simp [Zero, mem_range'_1]
  rw [isAllZeroNaive, show s.addr + s.size + k + 1 - s.addr = s.size + (k + 1) by omega,
    ← range'_append_1, allM_append_ok (p := fun a => s.byteAt a == 0), hz]
  · rw [range'_succ, allM, hout]
    rfl
  · intro a ha
    rw [mem_range'_1] at ha
    rw [readByte_inside ha.1 ha.2, ok_bind]

/-- A slice inside one block, in which no multiple of 16 is reached. -/
lemma isAllZero_of_lt_alignUp (hup : s.addr + s.size < alignUp s.addr 16)
    (ha : s.addr + 15 < u64Size) (hs : s.addr + s.size < u64Size) :
    s.isAllZero = if s.bytes.all (· == 0) then err (.outside (s.addr + s.size)) else ok false := by
  have hle : alignDown (s.addr + s.size) 16 ≤ s.addr := by
    unfold alignUp at hup
    unfold alignDown
    split_ifs at hup <;> omega
  rw [isAllZero, addU64_of_lt ha, ok_bind, addU64_of_lt hs, ok_bind, and_mask ha, and_mask hs,
    alignDown_add]
  dsimp only
  rw [show (alignDown (s.addr + s.size) 16 - alignUp s.addr 16 + 15) / 16 = 0 by omega, range'_zero,
    anyM, pure_eq_ok, ok_bind, if_neg Bool.false_ne_true, if_neg (by omega),
    isAllZeroNaive_beyond hup]
  split_ifs <;> rfl

/-- **Exactness.** Only bytes of the slice are read and the answer is whether they are zero, exactly
if the slice reaches a multiple of 16, or a byte of it that is not zero ends the search. -/
theorem isAllZero_exact_iff :
    s.isAllZero = ok (s.bytes.all (· == 0)) ↔ s.addr + 15 < u64Size ∧
      s.addr + s.size < u64Size ∧ (alignUp s.addr 16 ≤ s.addr + s.size ∨ ∃ b ∈ s.bytes, b ≠ 0) := by
  by_cases ha : s.addr + 15 < u64Size
  · by_cases hs : s.addr + s.size < u64Size
    · by_cases hup : alignUp s.addr 16 ≤ s.addr + s.size
      · exact iff_of_true (isAllZero_of_alignUp_le hup ha hs) ⟨ha, hs, .inl hup⟩
      · rw [isAllZero_of_lt_alignUp (not_le.mp hup) ha hs]
        cases hz : s.bytes.all (· == 0) with
        | true => exact iff_of_false nofun (by simpa [hup, ha, hs, all_eq_true] using hz)
        | false => exact iff_of_true rfl ⟨ha, hs, .inr (by simpa [all_eq_false] using hz)⟩
    · simp [isAllZero, addU64, addIn, ha, hs]
  · simp [isAllZero, addU64, addIn, ha]

/-- A slice inside one block: the bytes behind it are read. -/
theorem isAllZero_reads_outside : isAllZero ⟨17, [0, 0, 0, 0]⟩ = err (.outside 21) := rfl

end VolatileSlice

end GunyahVmm.VolatileMemory
