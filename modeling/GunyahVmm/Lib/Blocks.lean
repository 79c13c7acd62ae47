import GunyahVmm.Lib.Memory
import Mathlib.Data.List.Nodup
import Mathlib.Data.List.Range

/-! A byte memory cut into blocks of one size. -/

namespace GunyahVmm.Memory
open List Nat
variable {m : Memory} {size j k start : Nat} {data : List (BitVec 8)} {ks : List Nat}

def store (m : Memory) (start : Nat) (data : List (BitVec 8)) : Memory := fun a =>
  if start ≤ a then (data[a - start]?).getD (m a) else m a

def block (m : Memory) (size k : Nat) : List (BitVec 8) :=
  (List.range size).map fun i => m (k * size + i)

/-- The bytes for the `i`-th of the blocks that the data goes to. -/
def chunk (size : Nat) (data : List (BitVec 8)) (i : Nat) : List (BitVec 8) :=
  (data.drop (i * size)).take size

def storeBlocks (m : Memory) (size : Nat) : List Nat → List (BitVec 8) → Memory
  | [], _ => m
  | k :: ks, data => storeBlocks (m.store (k * size) (data.take size)) size ks (data.drop size)

lemma store_of_lt {a : Nat} (h : a < start) : m.store start data a = m a := if_neg (not_le.mpr h)

lemma store_of_le {a : Nat} (h : start + data.length ≤ a) : m.store start data a = m a := by
  rw [store, if_pos (by omega), getElem?_eq_none (by omega), Option.getD_none]

lemma store_add {i : Nat} (h : i < data.length) : m.store start data (start + i) = data[i] := by
  rw [store, if_pos (Nat.le_add_right _ _), Nat.add_sub_cancel_left, getElem?_eq_getElem h,
    Option.getD_some]

@[simp] lemma store_nil : m.store start [] = m := by
  funext a
  simp [store]

lemma store_append (start : Nat) (d e : List (BitVec 8)) :
    (m.store start d).store (start + d.length) e = m.store start (d ++ e) := by
  funext a
  rcases lt_or_ge a (start + d.length) with hlt | hge
  · rw [store_of_lt hlt]
    rcases lt_or_ge a start with hp | hin
    · rw [store_of_lt hp, store_of_lt hp]
    · simp only [store, if_pos hin]
      rw [getElem?_append_left (by omega)]
  · have hin : start ≤ a := by omega
    simp only [store, if_pos hin, if_pos hge]
    rw [getElem?_append_right (by omega),
      getElem?_eq_none (by omega : d.length ≤ a - start), Option.getD_none, sub_add_eq]

@[simp] lemma length_block : (m.block size k).length = size := by
  simp [block]

lemma block_store_self (h : data.length = size) :
    (m.store (k * size) data).block size k = data := by
  refine ext_getElem (by simp [h]) fun i hi hi' => ?_
  simp only [block, getElem_map, getElem_range]
  exact store_add hi'

lemma block_store_of_ne (hjk : j ≠ k) (h : data.length ≤ size) :
    (m.store (k * size) data).block size j = m.block size j := by
  refine map_congr_left fun i hi => ?_
  rw [mem_range] at hi
  rcases lt_or_gt_of_ne hjk with hlt | hgt
  · have hm := mul_le_mul_right size (succ_le_of_lt hlt)
    rw [succ_mul] at hm
    exact store_of_lt (by omega)
  · have hm := mul_le_mul_right size (succ_le_of_lt hgt)
    rw [succ_mul] at hm
    exact store_of_le (by omega)

lemma block_storeBlocks_of_notMem (hj : j ∉ ks) :
    (m.storeBlocks size ks data).block size j = m.block size j := by
  induction ks generalizing m data with
  | nil => rfl
  | cons k ks ih =>
    rw [mem_cons, not_or] at hj
    rw [storeBlocks, ih hj.2, block_store_of_ne hj.1 (length_take_le _ _)]

lemma chunk_succ (i : Nat) : chunk size data (i + 1) = chunk size (data.drop size) i := by
  rw [chunk, chunk, drop_drop, Nat.succ_mul, Nat.add_comm]

lemma block_storeBlocks {i : Nat} (hnd : ks.Nodup) (hl : data.length = ks.length * size)
    (hk : ks[i]? = some k) : (m.storeBlocks size ks data).block size k = chunk size data i := by
  induction ks generalizing m data i with
  | nil => simp at hk
  | cons j ks ih =>
    rw [nodup_cons] at hnd
    rw [length_cons, succ_mul] at hl
    rw [storeBlocks]
    cases i with
    | zero =>
      cases hk
      rw [block_storeBlocks_of_notMem hnd.1, block_store_self (by rw [length_take]; omega)]
      simp [chunk]
    | succ i =>
      rw [chunk_succ]
      exact ih hnd.2 (by rw [length_drop]; omega) (by simpa using hk)

lemma storeBlocks_append (ks ls : List Nat) :
    m.storeBlocks size (ks ++ ls) data =
      (m.storeBlocks size ks (data.take (ks.length * size))).storeBlocks size ls
        (data.drop (ks.length * size)) := by
  induction ks generalizing m data with
  | nil => simp [storeBlocks]
  | cons k ks ih =>
    have ht : (data.take ((ks.length + 1) * size)).take size = data.take size := by
      rw [take_take, succ_mul, min_eq_left (le_add_left _ _)]
    have hd : (data.take ((ks.length + 1) * size)).drop size =
        (data.drop size).take (ks.length * size) := by
      rw [drop_take, Nat.succ_mul, Nat.add_sub_cancel]
    rw [cons_append, storeBlocks, ih, length_cons, storeBlocks, ht, hd,
      drop_drop, Nat.succ_mul, Nat.add_comm size]

lemma storeBlocks_range' {n : Nat} (h : data.length = n * size) :
    m.storeBlocks size (range' k n) data = m.store (k * size) data := by
  induction n generalizing m k data with
  | zero =>
    rw [Nat.zero_mul] at h
    rw [length_eq_zero_iff.mp h, store_nil]
    rfl
  | succ n ih =>
    rw [succ_mul] at h
    have hl : (data.take size).length = size := by
      rw [length_take]
      omega
    have hb := store_append (m := m) (k * size) (data.take size) (data.drop size)
    rw [hl, take_append_drop] at hb
    rw [range'_succ, storeBlocks, ih (by rw [length_drop]; omega), succ_mul, hb]

end GunyahVmm.Memory
