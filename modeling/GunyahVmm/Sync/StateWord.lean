import Mathlib.Data.BitVec

/-! The state word of the lock, `cros_async/src/sync/mu.rs`: six flags and the number of readers. -/

namespace GunyahVmm.Sync
open BitVec

abbrev Word := BitVec 64

def locked : Word := 0x1

def hasWaiters : Word := 0x2

def designatedWaker : Word := 0x4

def spinlock : Word := 0x8

def writerWaiting : Word := 0x10

def longWait : Word := 0x20

def readLock : Word := 0x100

def readMask : Word := ~~~0xff

inductive Kind where
  | shared
  | exclusive
  deriving DecidableEq

namespace Kind

/-- The bits that must be zero to acquire the lock. -/
def zeroToAcquire : Kind → Word
  | shared => locked ||| writerWaiting ||| longWait
  | exclusive => locked ||| readMask ||| longWait

def addToAcquire : Kind → Word
  | shared => readLock
  | exclusive => locked

def setWhenWaiting : Kind → Word
  | shared => 0
  | exclusive => writerWaiting

def clearOnAcquire : Kind → Word
  | shared => 0
  | exclusive => writerWaiting

end Kind

/-! ## The parts of the word -/

structure Bits where
  locked : Bool
  hasWaiters : Bool
  designatedWaker : Bool
  spinlock : Bool
  writerWaiting : Bool
  longWait : Bool
  readers : Nat
  deriving DecidableEq

def bits (w : Word) : Bits where
  locked := w.getLsbD 0
  hasWaiters := w.getLsbD 1
  designatedWaker := w.getLsbD 2
  spinlock := w.getLsbD 3
  writerWaiting := w.getLsbD 4
  longWait := w.getLsbD 5
  readers := w.toNat / 256

def Bits.Free (b : Bits) : Prop := b.locked = false ∧ b.readers = 0

variable (w : Word)

lemma readers_testBit (i : Nat) : (w.toNat / 256).testBit i = w.getLsbD (i + 8) := by
  rw [show (256 : Nat) = 2 ^ 8 from rfl, Nat.testBit_div_two_pow]
  rfl

lemma getLsbD_of_flags {m : Word} (hm : m.toNat < 256) (i : Nat) : m.getLsbD (i + 8) = false := by
  refine Nat.testBit_lt_two_pow (Nat.lt_of_lt_of_le hm ?_)
  exact Nat.pow_le_pow_right Nat.two_pos (Nat.le_add_left 8 i)

lemma bits_or (w m : Word) (hm : m.toNat < 256) :
    bits (w ||| m) = {
      locked := (bits w).locked || (bits m).locked
      hasWaiters := (bits w).hasWaiters || (bits m).hasWaiters
      designatedWaker := (bits w).designatedWaker || (bits m).designatedWaker
      spinlock := (bits w).spinlock || (bits m).spinlock
      writerWaiting := (bits w).writerWaiting || (bits m).writerWaiting
      longWait := (bits w).longWait || (bits m).longWait
      readers := (bits w).readers } := by
  have hr : (w ||| m).toNat / 256 = w.toNat / 256 := by
    refine Nat.eq_of_testBit_eq fun i => ?_
    rw [readers_testBit, readers_testBit, getLsbD_or, getLsbD_of_flags hm, Bool.or_false]
  simp only [bits, getLsbD_or, hr]

lemma bits_and_not (w m : Word) (hm : m.toNat < 256) :
    bits (w &&& ~~~m) = {
      locked := (bits w).locked && !(bits m).locked
      hasWaiters := (bits w).hasWaiters && !(bits m).hasWaiters
      designatedWaker := (bits w).designatedWaker && !(bits m).designatedWaker
      spinlock := (bits w).spinlock && !(bits m).spinlock
      writerWaiting := (bits w).writerWaiting && !(bits m).writerWaiting
      longWait := (bits w).longWait && !(bits m).longWait
      readers := (bits w).readers } := by
  have hr : (w &&& ~~~m).toNat / 256 = w.toNat / 256 := by
    refine Nat.eq_of_testBit_eq fun i => ?_
    rw [readers_testBit, readers_testBit, getLsbD_and]
    by_cases hi : i + 8 < 64
    · rw [getLsbD_not, getLsbD_of_flags hm]
      simp [hi]
    · rw [getLsbD_of_ge w _ (Nat.le_of_not_lt hi), Bool.false_and]
  simp only [bits, getLsbD_and, getLsbD_not, hr, Nat.reduceLT, decide_true, Bool.true_and]

lemma getLsbD_eq_decide (i : Nat) : w.getLsbD i = decide (w.toNat / 2 ^ i % 2 = 1) :=
  Nat.testBit_eq_decide_div_mod_eq

@[simp] lemma bits_zero : bits 0#64 = ⟨false, false, false, false, false, false, 0⟩ := by decide

@[simp] lemma bits_hasWaiters :
    bits hasWaiters = ⟨false, true, false, false, false, false, 0⟩ := by decide

@[simp] lemma bits_designatedWaker :
    bits designatedWaker = ⟨false, false, true, false, false, false, 0⟩ := by decide

@[simp] lemma bits_spinlock :
    bits spinlock = ⟨false, false, false, true, false, false, 0⟩ := by decide

@[simp] lemma bits_writerWaiting :
    bits writerWaiting = ⟨false, false, false, false, true, false, 0⟩ := by decide

@[simp] lemma bits_longWait :
    bits longWait = ⟨false, false, false, false, false, true, 0⟩ := by decide

@[simp] lemma bits_designatedWaker_or_longWait :
    bits (designatedWaker ||| longWait) = ⟨false, false, true, false, false, true, 0⟩ := by decide

lemma bits_or_spinlock : bits (w ||| spinlock) = { bits w with spinlock := true } := by
  rw [bits_or _ _ (by decide)]
  simp

lemma bits_or_spinlock_or_designatedWaker :
    bits (w ||| spinlock ||| designatedWaker) =
      { bits w with designatedWaker := true, spinlock := true } := by
  rw [bits_or _ _ (by decide), bits_or_spinlock]
  simp

/-! ## Tests of the word -/

lemma and_flag_eq_zero_iff {i : Nat} (hi : i < 64) :
    w &&& twoPow 64 i = 0 ↔ w.getLsbD i = false := by
  have hne : twoPow 64 i ≠ 0 := by
    intro h
    have hb : (twoPow 64 i).getLsbD i = (0 : Word).getLsbD i := by rw [h]
    simp [hi] at hb
  rw [and_twoPow]
  cases w.getLsbD i with
  | false => simp
  | true => simpa using hne

lemma and_locked : w &&& locked = 0 ↔ (bits w).locked = false :=
  and_flag_eq_zero_iff w (by decide : 0 < 64)

lemma and_hasWaiters : w &&& hasWaiters = 0 ↔ (bits w).hasWaiters = false :=
  and_flag_eq_zero_iff w (by decide : 1 < 64)

lemma and_designatedWaker : w &&& designatedWaker = 0 ↔ (bits w).designatedWaker = false :=
  and_flag_eq_zero_iff w (by decide : 2 < 64)

lemma and_spinlock : w &&& spinlock = 0 ↔ (bits w).spinlock = false :=
  and_flag_eq_zero_iff w (by decide : 3 < 64)

lemma and_writerWaiting : w &&& writerWaiting = 0 ↔ (bits w).writerWaiting = false :=
  and_flag_eq_zero_iff w (by decide : 4 < 64)

lemma and_longWait : w &&& longWait = 0 ↔ (bits w).longWait = false :=
  and_flag_eq_zero_iff w (by decide : 5 < 64)

lemma getLsbD_low : ∀ i < 8, (0xff : Word).getLsbD i = true := by decide

lemma toNat_and_readMask : (w &&& readMask).toNat = 256 * (bits w).readers := by
  have hm : w &&& readMask = (w >>> 8) <<< 8 := by
    refine eq_of_getLsbD_eq fun i hi => ?_
    simp only [readMask, getLsbD_and, getLsbD_not, getLsbD_shiftLeft,
      getLsbD_ushiftRight, hi, decide_true, Bool.true_and]
    by_cases hl : i < 8
    · rw [getLsbD_low i hl, decide_eq_true hl, Bool.not_true, Bool.and_false, Bool.false_and]
    have hb : (0xff : Word).getLsbD i = false := by
      have hf := getLsbD_of_flags (show (0xff : Word).toNat < 256 by decide) (i - 8)
      rwa [Nat.sub_add_cancel (Nat.le_of_not_lt hl)] at hf
    rw [hb, decide_eq_false hl, Nat.add_sub_cancel' (Nat.le_of_not_lt hl), Bool.not_false,
      Bool.and_true, Bool.true_and]
  have hlt := w.isLt
  rw [hm, toNat_shiftLeft, toNat_ushiftRight, Nat.shiftLeft_eq, Nat.shiftRight_eq_div_pow]
  simp only [bits]
  omega

lemma and_readMask : w &&& readMask = 0 ↔ (bits w).readers = 0 := by
  rw [← toNat_inj, toNat_and_readMask, show (0 : Word).toNat = 0 from rfl]
  omega

lemma and_readMask_eq_readLock : w &&& readMask = readLock ↔ (bits w).readers = 1 := by
  rw [← toNat_inj, toNat_and_readMask, show readLock.toNat = 256 from rfl]
  omega

lemma and_or_eq_zero (w m m' : Word) : w &&& (m ||| m') = 0 ↔ w &&& m = 0 ∧ w &&& m' = 0 := by
  rw [and_or_distrib_left]
  exact or_eq_zero_iff

/-! ## Counting holders -/

lemma toNat_locked : locked.toNat = 1 := rfl

lemma toNat_readLock : readLock.toNat = 256 := rfl

lemma bits_add_readLock (h : w.toNat + 256 < 2 ^ 64) :
    bits (w + readLock) = { bits w with readers := (bits w).readers + 1 } := by
  have hs : (w + readLock).toNat = w.toNat + 256 := by
    rw [toNat_add, toNat_readLock]
    exact Nat.mod_eq_of_lt h
  simp only [bits, getLsbD_eq_decide, hs, Bits.mk.injEq, decide_eq_decide]
  omega

lemma bits_sub_readLock (h : 0 < (bits w).readers) :
    bits (w - readLock) = { bits w with readers := (bits w).readers - 1 } := by
  have hp : 0 < w.toNat / 256 := h
  have hd : (w - readLock).toNat = w.toNat - 256 := by
    rw [toNat_sub_of_le (le_def.mpr (by rw [toNat_readLock]; omega)), toNat_readLock]
  simp only [bits, getLsbD_eq_decide, hd, Bits.mk.injEq, decide_eq_decide]
  omega

lemma bits_add_locked (h : (bits w).locked = false) :
    bits (w + locked) = { bits w with locked := true } := by
  have hev : w.toNat / 2 ^ 0 % 2 ≠ 1 := by
    have hb : w.getLsbD 0 = false := h
    rw [getLsbD_eq_decide] at hb
    exact of_decide_eq_false hb
  have hlt := w.isLt
  have hs : (w + locked).toNat = w.toNat + 1 := by
    rw [toNat_add, toNat_locked]
    exact Nat.mod_eq_of_lt (by omega)
  simp only [bits, getLsbD_eq_decide, hs, Bits.mk.injEq, decide_eq_true_eq, decide_eq_decide]
  omega

lemma bits_sub_locked (h : (bits w).locked = true) :
    bits (w - locked) = { bits w with locked := false } := by
  have ho : w.toNat / 2 ^ 0 % 2 = 1 := by
    have hb : w.getLsbD 0 = true := h
    rw [getLsbD_eq_decide] at hb
    exact of_decide_eq_true hb
  have hd : (w - locked).toNat = w.toNat - 1 := by
    rw [toNat_sub_of_le (le_def.mpr (by rw [toNat_locked]; omega)), toNat_locked]
  simp only [bits, getLsbD_eq_decide, hd, Bits.mk.injEq, decide_eq_false_iff_not,
    decide_eq_decide]
  omega

end GunyahVmm.Sync
