import GunyahVmm.Lib.Arith
import Mathlib.Data.BitVec
import Mathlib.Algebra.GroupWithZero.Nat

/-! Lists of memory regions for a disk access. The iterator skips bytes at its front, is cut off
after a number of bytes and yields no empty region. -/

namespace GunyahVmm.Disk
open Run List

structure MemRegion where
  offset : Nat
  len : Nat
  deriving DecidableEq

def MemRegion.Within (q r : MemRegion) : Prop :=
  r.offset ≤ q.offset ∧ q.offset + q.len ≤ r.offset + r.len

def MemRegion.Apart (r q : MemRegion) : Prop :=
  r.offset + r.len ≤ q.offset ∨ q.offset + q.len ≤ r.offset

structure MemRegionIter where
  regions : List MemRegion
  skipBytes : Nat
  remainingBytes : Nat

namespace MemRegionIter

def new (regions : List MemRegion) : MemRegionIter := ⟨regions, 0, u64Size - 1⟩

def skip (it : MemRegionIter) (offset : Nat) : MemRegionIter :=
  { it with
    skipBytes := min (it.skipBytes + offset) (u64Size - 1)
    remainingBytes := it.remainingBytes - offset }

def takeBytes (it : MemRegionIter) (max : Nat) : MemRegionIter :=
  { it with remainingBytes := min it.remainingBytes max }

variable {ε : Type}

def nextFrom : List MemRegion → Nat → Nat → Outcome ε (Option (MemRegion × MemRegionIter))
  | [], _, _ => .ok none
  | first :: regions, skipBytes, remainingBytes =>
    -- Regions that are skipped whole, and empty ones, are not returned.
    if first.len ≤ skipBytes then nextFrom regions (skipBytes - first.len) remainingBytes
    else do
      let offset ← addU64 first.offset skipBytes
      let len := first.len - skipBytes
      if remainingBytes ≤ len then .ok (some (⟨offset, remainingBytes⟩, ⟨[], 0, 0⟩))
      else .ok (some (⟨offset, len⟩, ⟨regions, 0, remainingBytes - len⟩))

def next (it : MemRegionIter) : Outcome ε (Option (MemRegion × MemRegionIter)) :=
  if it.remainingBytes = 0 then .ok none
  else nextFrom it.regions it.skipBytes it.remainingBytes

def collectUpTo : Nat → MemRegionIter → Outcome ε (List MemRegion)
  | 0, _ => .ok []
  | n + 1, it => do
    let got ← it.next
    match got with
    | none => .ok []
    | some (region, it) => do
      let rest ← collectUpTo n it
      .ok (region :: rest)

def collect (it : MemRegionIter) : Outcome ε (List MemRegion) := collectUpTo it.regions.length it

end MemRegionIter

def totalLen (regions : List MemRegion) : Nat := (regions.map (·.len)).sum

@[simp] lemma totalLen_nil : totalLen [] = 0 := rfl

@[simp] lemma totalLen_cons (r : MemRegion) (regions : List MemRegion) :
    totalLen (r :: regions) = r.len + totalLen regions := by
  simp [totalLen]

structure BackingMemory where
  size : Nat
  bytes : Nat → BitVec 8
  size_lt : size < u64Size

namespace BackingMemory

def holds (mem : BackingMemory) (r : MemRegion) : Bool := r.offset + r.len ≤ mem.size

def write (mem : BackingMemory) (offset : Nat) (data : List (BitVec 8)) : BackingMemory :=
  { mem with
    bytes := fun a =>
      if offset ≤ a then (data[a - offset]?).getD (mem.bytes a) else mem.bytes a }

/-- Distribute the bytes over the regions, in order. A region outside the memory ends it. -/
def scatter (mem : BackingMemory) : List MemRegion → List (BitVec 8) →
    Except MemRegion BackingMemory
  | [], _ => .ok mem
  | r :: regions, data =>
    if mem.holds r then
      scatter (mem.write r.offset (data.take r.len)) regions (data.drop r.len)
    else .error r

def gather (mem : BackingMemory) (regions : List MemRegion) : List (BitVec 8) :=
  regions.flatMap fun r => (List.range r.len).map fun i => mem.bytes (r.offset + i)

end BackingMemory

/-! ## What an iterator yields -/

namespace MemRegionIter
variable {ε : Type} {it : MemRegionIter} {regions : List MemRegion} {skipBytes : Nat}
  (remaining : Nat)

def cut : List MemRegion → Nat → Nat → List MemRegion
  | [], _, _ => []
  | r :: regions, skipBytes, remaining =>
    if remaining = 0 then []
    else if r.len ≤ skipBytes then cut regions (skipBytes - r.len) remaining
    else if remaining ≤ r.len - skipBytes then [⟨r.offset + skipBytes, remaining⟩]
    else ⟨r.offset + skipBytes, r.len - skipBytes⟩ ::
      cut regions 0 (remaining - (r.len - skipBytes))

/-- The address at which a region is entered, after at most `skip` bytes of it, exists. -/
def Enterable (regions : List MemRegion) (skipBytes : Nat) : Prop :=
  ∀ r ∈ regions, ∀ s, s ≤ skipBytes → s < r.len → r.offset + s < u64Size

lemma collectUpTo_nil (n skipBytes remaining : Nat) :
    (collectUpTo n ⟨[], skipBytes, remaining⟩ : Outcome ε _) = .ok [] := by
  cases n with
  | zero => rfl
  | succ n =>
    unfold collectUpTo next
    split <;> rfl

lemma collectUpTo_eq (h : Enterable regions skipBytes) {n : Nat} (hn : regions.length ≤ n) :
    (collectUpTo n ⟨regions, skipBytes, remaining⟩ : Outcome ε _) =
      .ok (cut regions skipBytes remaining) := by
  induction regions generalizing skipBytes remaining n with
  | nil => exact collectUpTo_nil n skipBytes remaining
  | cons r regions ih =>
    obtain ⟨hr, hrg⟩ := forall_mem_cons.mp h
    obtain ⟨n, rfl⟩ : ∃ m, n = m + 1 := ⟨n - 1, by rw [length_cons] at hn; omega⟩
    rw [length_cons] at hn
    unfold cut
    by_cases hz : remaining = 0
    · rw [if_pos hz, collectUpTo, next, if_pos hz]
      rfl
    rw [if_neg hz]
    by_cases hsk : r.len ≤ skipBytes
    · have hnx : (next ⟨r :: regions, skipBytes, remaining⟩ : Outcome ε _) =
          next ⟨regions, skipBytes - r.len, remaining⟩ := by
        simp only [next, nextFrom, if_pos hsk]
      have hrs : (collectUpTo (n + 1) ⟨regions, skipBytes - r.len, remaining⟩ : Outcome ε _) =
          .ok (cut regions (skipBytes - r.len) remaining) :=
        ih remaining (fun q hq s hs => hrg q hq s (by omega)) (by omega)
      rw [if_pos hsk, ← hrs, collectUpTo, collectUpTo, hnx]
    · have ho := hr skipBytes (Nat.le_refl _) (Nat.lt_of_not_le hsk)
      rw [if_neg hsk, collectUpTo, next]
      rw [if_neg hz, nextFrom, if_neg hsk, addU64_of_lt ho, Outcome.ok_bind]
      by_cases hl : remaining ≤ r.len - skipBytes
      · simp [if_pos hl, collectUpTo_nil]
      have hrs : (collectUpTo n ⟨regions, 0, remaining - (r.len - skipBytes)⟩ : Outcome ε _) =
          .ok (cut regions 0 (remaining - (r.len - skipBytes))) :=
        ih _ (fun q hq s hs => hrg q hq s (by omega)) (by omega)
      simp [if_neg hl, hrs]

lemma collect_eq (it : MemRegionIter) (h : Enterable it.regions it.skipBytes) :
    (it.collect : Outcome ε _) = .ok (cut it.regions it.skipBytes it.remainingBytes) :=
  collectUpTo_eq it.remainingBytes h (Nat.le_refl _)

lemma enterable_zero (h : ∀ r ∈ regions, r.offset < u64Size) : Enterable regions 0 := by
  intro r hr s hs _
  have hlt := h r hr
  omega

lemma totalLen_cut (regions : List MemRegion) (skipBytes remaining : Nat) :
    totalLen (cut regions skipBytes remaining) = min (totalLen regions - skipBytes) remaining := by
  induction regions generalizing skipBytes remaining with
  | nil => simp [cut]
  | cons r regions ih =>
    unfold cut
    split
    · subst_vars
      simp
    split
    · rw [ih, totalLen_cons]
      omega
    split
    · rw [totalLen_cons, totalLen_cons, totalLen_nil]
      dsimp only
      omega
    · rw [totalLen_cons, ih, totalLen_cons]
      dsimp only
      omega

lemma cut_of_totalLen_le (h : totalLen regions ≤ skipBytes) :
    cut regions skipBytes remaining = [] := by
  induction regions generalizing skipBytes with
  | nil => rfl
  | cons r regions ih =>
    rw [totalLen_cons] at h
    unfold cut
    split
    · rfl
    · rw [if_pos (by omega)]
      exact ih (by omega)

lemma cut_min (regions : List MemRegion) (skipBytes remaining : Nat) :
    cut regions skipBytes (min (totalLen regions - skipBytes) remaining) =
      cut regions skipBytes remaining := by
  induction regions generalizing skipBytes remaining with
  | nil => rfl
  | cons r regions ih =>
    by_cases ha : totalLen (r :: regions) ≤ skipBytes
    · rw [cut_of_totalLen_le _ ha, cut_of_totalLen_le _ ha]
    rw [totalLen_cons] at ha ⊢
    unfold cut
    by_cases hz : remaining = 0
    · rw [if_pos hz, if_pos (by omega)]
    rw [if_neg hz, if_neg (by omega)]
    by_cases hs : r.len ≤ skipBytes
    · have hr : r.len + totalLen regions - skipBytes =
          totalLen regions - (skipBytes - r.len) := by omega
      rw [if_pos hs, if_pos hs, hr, ih]
    rw [if_neg hs, if_neg hs]
    by_cases hl : remaining ≤ r.len - skipBytes
    · rw [if_pos hl, if_pos (by omega), Nat.min_eq_right (by omega)]
    rw [if_neg hl]
    by_cases hn : totalLen regions = 0
    · -- The cut ends with this region, which is the last one that has bytes.
      rw [if_pos (by omega), cut_of_totalLen_le _ (by omega), Nat.min_eq_left (by omega),
        show r.len + totalLen regions - skipBytes = r.len - skipBytes by omega]
    · have hr : min (r.len + totalLen regions - skipBytes) remaining - (r.len - skipBytes) =
          min (totalLen regions - 0) (remaining - (r.len - skipBytes)) := by omega
      rw [if_neg (by omega), hr, ih]

lemma exists_within_of_mem_cut {remaining : Nat} {q : MemRegion}
    (hq : q ∈ cut regions skipBytes remaining) : ∃ r ∈ regions, q.Within r := by
  induction regions generalizing skipBytes remaining with
  | nil => cases hq
  | cons r regions ih =>
    unfold cut at hq
    split at hq
    · cases hq
    split at hq
    · obtain ⟨r', hr', hw⟩ := ih hq
      exact ⟨r', mem_cons_of_mem _ hr', hw⟩
    split at hq
    · rw [mem_singleton.mp hq]
      refine ⟨r, mem_cons_self, ?_⟩
      constructor <;> dsimp only <;> omega
    · rcases mem_cons.mp hq with rfl | hq
      · refine ⟨r, mem_cons_self, ?_⟩
        constructor <;> dsimp only <;> omega
      · obtain ⟨r', hr', hw⟩ := ih hq
        exact ⟨r', mem_cons_of_mem _ hr', hw⟩

lemma apart_cut (h : regions.Pairwise MemRegion.Apart) (skipBytes remaining : Nat) :
    (cut regions skipBytes remaining).Pairwise MemRegion.Apart := by
  induction regions generalizing skipBytes remaining with
  | nil => exact .nil
  | cons r regions ih =>
    obtain ⟨hr, hrg⟩ := pairwise_cons.mp h
    unfold cut
    split
    · exact .nil
    split
    · exact ih hrg _ _
    split
    · exact pairwise_singleton _ _
    refine .cons (fun q hq => ?_) (ih hrg _ _)
    obtain ⟨r', hr', hw⟩ := exists_within_of_mem_cut hq
    have ha := hr r' hr'
    unfold MemRegion.Apart MemRegion.Within at *
    dsimp only
    omega

end MemRegionIter

/-! ## The addresses of regions -/

def addresses (regions : List MemRegion) : List Nat :=
  regions.flatMap fun r => List.range' r.offset r.len

lemma addresses_cons (r : MemRegion) (regions : List MemRegion) :
    addresses (r :: regions) = range' r.offset r.len ++ addresses regions :=
  flatMap_cons

@[simp] lemma length_addresses (regions : List MemRegion) :
    (addresses regions).length = totalLen regions := by
  induction regions with
  | nil => rfl
  | cons r regions ih => rw [addresses_cons, length_append, length_range', ih, totalLen_cons]

lemma addresses_cut (regions : List MemRegion) (skipBytes remaining : Nat) :
    addresses (MemRegionIter.cut regions skipBytes remaining) =
      ((addresses regions).drop skipBytes).take remaining := by
  induction regions generalizing skipBytes remaining with
  | nil => simp [MemRegionIter.cut, addresses]
  | cons r regions ih =>
    unfold MemRegionIter.cut
    by_cases hz : remaining = 0
    · simp [hz, addresses]
    rw [if_neg hz, addresses_cons, drop_append, length_range', drop_range']
    by_cases hs : r.len ≤ skipBytes
    · simp [hs, ih, Nat.sub_eq_zero_of_le]
    have hn : skipBytes - r.len = 0 := by omega
    rw [if_neg hs, hn, drop_zero, take_append, length_range']
    by_cases hl : remaining ≤ r.len - skipBytes
    · have hr : remaining - (r.len - skipBytes) = 0 := by omega
      rw [if_pos hl, hr, take_zero, append_nil, take_range'_of_length_ge hl]
      simp [addresses]
    · rw [if_neg hl, addresses_cons, ih, drop_zero,
        take_range'_of_length_le (by omega), Nat.mul_one]

/-! ## Bytes in regions -/

namespace BackingMemory
variable {mem mem' : BackingMemory} {regions : List MemRegion} {data : List (BitVec 8)} {α β : Type}

def Holds (mem : BackingMemory) (regions : List MemRegion) : Prop := ∀ r ∈ regions, mem.holds r

lemma Holds.cut (h : mem.Holds regions) (skipBytes remaining : Nat) :
    mem.Holds (MemRegionIter.cut regions skipBytes remaining) := by
  intro q hq
  obtain ⟨r, hr, hw⟩ := MemRegionIter.exists_within_of_mem_cut hq
  have hh := h r hr
  unfold MemRegion.Within at hw
  simp only [holds, decide_eq_true_eq] at hh ⊢
  omega

lemma Holds.offset_lt (h : mem.Holds regions) : ∀ r ∈ regions, r.offset < u64Size := by
  intro r hr
  have hh := h r hr
  have hs := mem.size_lt
  simp only [holds, decide_eq_true_eq] at hh
  omega

lemma gather_eq (mem : BackingMemory) (regions : List MemRegion) :
    mem.gather regions = (addresses regions).map mem.bytes := by
  unfold gather addresses
  rw [map_flatMap]
  congr 1
  funext r
  rw [range'_eq_map_range, map_map]
  rfl

/-- Single bytes written one after the other. -/
def put (bytes : Nat → BitVec 8) (l : List (Nat × BitVec 8)) : Nat → BitVec 8 :=
  l.foldl (fun b e => Function.update b e.1 e.2) bytes

lemma put_append (bytes : Nat → BitVec 8) (l m : List (Nat × BitVec 8)) :
    put bytes (l ++ m) = put (put bytes l) m :=
  foldl_append

def withBytes (mem : BackingMemory) (bytes : Nat → BitVec 8) : BackingMemory := { mem with bytes }

lemma write_eq_put (mem : BackingMemory) (offset : Nat) (data : List (BitVec 8)) :
    mem.write offset data =
      mem.withBytes (put mem.bytes ((range' offset data.length).zip data)) := by
  induction data generalizing mem offset with
  | nil =>
    unfold write withBytes put
    simp
  | cons x data ih =>
    have hh : mem.write offset (x :: data) =
        (mem.withBytes (Function.update mem.bytes offset x)).write (offset + 1) data := by
      unfold write withBytes
      dsimp only
      congr 1
      funext a
      by_cases ha : a = offset
      · subst ha
        simp
      · by_cases hle : offset ≤ a
        · rw [if_pos hle, if_pos (by omega), Function.update_of_ne ha,
            show a - offset = a - (offset + 1) + 1 by omega, getElem?_cons_succ]
        · rw [if_neg hle, if_neg (by omega), Function.update_of_ne ha]
    rw [hh, ih]
    rfl

lemma zip_append_split (a b : List α) (d : List β) :
    (a ++ b).zip d = a.zip (d.take a.length) ++ b.zip (d.drop a.length) := by
  induction a generalizing d with
  | nil => simp
  | cons x a ih =>
    cases d with
    | nil => simp
    | cons y d => simp [ih]

lemma zip_append_of_length (a : List α) (d e : List β) :
    a.zip (d ++ e) = a.zip d ++ (a.drop d.length).zip e := by
  induction d generalizing a with
  | nil => simp
  | cons y d ih =>
    cases a with
    | nil => simp
    | cons x a => simp [ih]

lemma zip_take_of_length_le {a : List α} {d : List β} {n : Nat} (h : d.length ≤ n) :
    (a.take n).zip d = a.zip d := by
  induction a generalizing d n with
  | nil => rw [take_nil]
  | cons x a ih =>
    cases d with
    | nil => rw [zip_nil_right, zip_nil_right]
    | cons y d =>
      obtain ⟨n, rfl⟩ : ∃ m, n = m + 1 := ⟨n - 1, by rw [length_cons] at h; omega⟩
      rw [take_succ_cons, zip_cons_cons, zip_cons_cons, ih (by rw [length_cons] at h; omega)]

lemma scatter_eq (h : mem.Holds regions) (data : List (BitVec 8)) :
    mem.scatter regions data =
      .ok (mem.withBytes (put mem.bytes ((addresses regions).zip data))) := by
  induction regions generalizing mem data with
  | nil => rfl
  | cons r regions ih =>
    obtain ⟨hr, hrg⟩ := forall_mem_cons.mp h
    have hrs : (mem.write r.offset (data.take r.len)).Holds regions := hrg
    have hz : (range' r.offset (data.take r.len).length).zip (data.take r.len) =
        (range' r.offset r.len).zip (data.take r.len) := by
      have hle : (data.take r.len).length ≤ r.len := length_take_le _ _
      conv_rhs => rw [zip_eq_zip_take_min, length_range', Nat.min_eq_right hle,
        take_range'_of_length_ge hle, take_length]
    rw [scatter, if_pos hr, ih hrs, addresses_cons, zip_append_split, length_range',
      put_append, write_eq_put, hz]
    rfl

lemma exists_scatter (h : mem.Holds regions) (data : List (BitVec 8)) :
    ∃ mem', mem.scatter regions data = .ok mem' ∧ mem'.size = mem.size :=
  ⟨_, scatter_eq h data, rfl⟩

lemma bytes_scatter_of_not_mem (h : mem.scatter regions data = .ok mem') {a : Nat}
    (ha : ∀ r ∈ regions, ¬ (r.offset ≤ a ∧ a < r.offset + r.len)) : mem'.bytes a = mem.bytes a := by
  induction regions generalizing mem data with
  | nil =>
    cases h
    rfl
  | cons r regions ih =>
    obtain ⟨hr, hrg⟩ := forall_mem_cons.mp ha
    unfold scatter at h
    split at h
    · rw [ih h hrg]
      unfold write
      dsimp only
      split
      · rw [getElem?_eq_none, Option.getD_none]
        rw [length_take]
        omega
      · rfl
    · cases h

lemma gather_scatter (ha : regions.Pairwise MemRegion.Apart)
    (hl : data.length = totalLen regions) (h : mem.scatter regions data = .ok mem') :
    mem'.gather regions = data := by
  induction regions generalizing mem data with
  | nil => exact (eq_nil_of_length_eq_zero hl).symm
  | cons r regions ih =>
    obtain ⟨hr, hrg⟩ := pairwise_cons.mp ha
    rw [totalLen_cons] at hl
    unfold scatter at h
    split at h
    · have hrs := ih hrg (by rw [length_drop]; omega) h
      have hh : (range r.len).map (fun i => mem'.bytes (r.offset + i)) = data.take r.len := by
        refine ext_getElem (by simp; omega) fun i hi hi' => ?_
        rw [length_map, length_range] at hi
        rw [getElem_map, getElem_range, bytes_scatter_of_not_mem h]
        · simp only [write, Nat.le_add_right, if_true, Nat.add_sub_cancel_left]
          rw [getElem?_eq_getElem hi', Option.getD_some]
        · intro q hq
          have hqr := hr q hq
          unfold MemRegion.Apart at hqr
          omega
      unfold gather at hrs ⊢
      rw [flatMap_cons, hh, hrs, take_append_drop]
    · cases h

end BackingMemory

end GunyahVmm.Disk
