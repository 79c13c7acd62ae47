import GunyahVmm.Lib.BTreeSet
import GunyahVmm.Lib.Coverage
import GunyahVmm.Lib.U64

/-! Inclusive ranges of 64-bit addresses (`resources/src/address_range.rs`).
The range is empty when its last address is below its first one. -/

namespace GunyahVmm.Resources
open Coverage

/-- The addresses from `start` to `stop`, the latter (`end` in the source) included. -/
structure AddressRange where
  start : Nat
  stop : Nat
  deriving DecidableEq

namespace AddressRange

def empty : AddressRange := ⟨1, 0⟩

def isEmpty (r : AddressRange) : Bool := r.stop < r.start

def contains (r : AddressRange) (address : Nat) : Bool := r.start ≤ address && address ≤ r.stop

section
variable (r other : AddressRange)

def containsRange : Bool := !other.isEmpty && r.start ≤ other.start && other.stop ≤ r.stop

def intersect : AddressRange := ⟨max r.start other.start, min r.stop other.stop⟩

def overlaps : Bool := !(r.intersect other).isEmpty

/-- The addresses of `r` below `other`, and those above it. -/
def nonOverlappingRanges : AddressRange × AddressRange :=
  let before :=
    if r.start ≥ other.start then empty
    else ⟨min r.start other.start, min (max r.start other.start - 1) r.stop⟩
  let after :=
    if r.stop ≤ other.stop then empty
    else ⟨max (min r.stop other.stop + 1) r.start, max r.stop other.stop⟩
  (before, after)

/-- All empty ranges are equal and below every other range; the others are
ordered by their start, then by their end. -/
def cmp : Ordering :=
  match r.isEmpty, other.isEmpty with
  | true, true => .eq
  | true, false => .lt
  | false, true => .gt
  | false, false => (compare r.start other.start).then (compare r.stop other.stop)

end

instance : Ord AddressRange := ⟨cmp⟩

/-- The order of `cmp` is the one of these keys: `none` first, then pairs. -/
def key (r : AddressRange) : Option (Nat × Nat) :=
  if r.isEmpty then none else some (r.start, r.stop)

section Order

attribute [local instance] lexOrd

lemma compare_eq_compare_key (a b : AddressRange) : compare a b = compare a.key b.key := by
  change cmp a b = _
  cases ha : a.isEmpty <;> cases hb : b.isEmpty <;> simp only [cmp, key, ha, hb] <;> rfl

instance : Std.TransOrd AddressRange where
  eq_swap {a b} := by
    rw [compare_eq_compare_key, compare_eq_compare_key b a]
    exact Std.OrientedCmp.eq_swap
  isLE_trans {a b c} hab hbc := by
    rw [compare_eq_compare_key] at hab hbc ⊢
    exact Std.TransCmp.isLE_trans hab hbc

end Order

variable {a b : AddressRange}
section
variable (ha : a.isEmpty = false) (hb : b.isEmpty = false)
include ha hb

lemma eq_of_compare_eq (h : compare a b = .eq) : a = b := by
  change cmp a b = .eq at h
  simp only [cmp, ha, hb, Ordering.then_eq_eq, Nat.compare_eq_eq] at h
  cases a
  cases b
  simp_all

lemma start_le_of_compare_le (h : (compare a b).isLE) : a.start ≤ b.start := by
  change (cmp a b).isLE at h
  simp only [cmp, ha, hb] at h
  rcases Nat.lt_trichotomy a.start b.start with hlt | heq | hgt
  · omega
  · omega
  · have hc : compare a.start b.start = .gt := Nat.compare_eq_gt.mpr hgt
    simp [hc] at h

lemma start_le_of_compare_gt (h : compare a b = .gt) : b.start ≤ a.start := by
  have hlt : compare b a = .lt := Std.OrientedCmp.lt_of_gt h
  exact start_le_of_compare_le hb ha (by simp [hlt])

end

/-! ## Membership -/

@[simp] lemma contains_iff (r : AddressRange) (x : Nat) :
    r.contains x = true ↔ r.start ≤ x ∧ x ≤ r.stop := by
  simp [contains]

@[simp] lemma isEmpty_iff (r : AddressRange) : r.isEmpty = true ↔ r.stop < r.start := by
  simp [isEmpty]

@[simp] lemma isEmpty_eq_false_iff (r : AddressRange) : r.isEmpty = false ↔ r.start ≤ r.stop := by
  simp [isEmpty]

lemma contains_of_isEmpty {r : AddressRange} (h : r.isEmpty = true) (x : Nat) :
    r.contains x = false := by
  rw [isEmpty_iff] at h
  rw [Bool.eq_false_iff, ne_eq, contains_iff]
  omega

@[simp] lemma containsRange_iff (r other : AddressRange) :
    r.containsRange other = true ↔
      other.start ≤ other.stop ∧ r.start ≤ other.start ∧ other.stop ≤ r.stop := by
  simp [containsRange, and_assoc]

lemma overlaps_iff (r other : AddressRange) :
    r.overlaps other = true ↔ ∃ x, r.contains x = true ∧ other.contains x = true := by
  simp only [overlaps, intersect, Bool.not_eq_true', isEmpty_eq_false_iff, contains_iff]
  constructor
  · intro h
    exact ⟨max r.start other.start, by omega, by omega⟩
  · rintro ⟨x, h1, h2⟩
    omega

abbrev Disjoint (a b : AddressRange) : Prop := Apart contains a b

lemma lt_or_lt_of_disjoint (ha : a.isEmpty = false) (hb : b.isEmpty = false) (h : Disjoint a b) :
    a.stop < b.start ∨ b.stop < a.start := by
  have hm := h (max a.start b.start)
  simp only [contains_iff] at hm
  simp only [isEmpty_eq_false_iff] at ha hb
  omega

lemma nonOverlappingRanges_cover {slot range : AddressRange}
    (h : slot.containsRange range = true) (x : Nat) :
    cover contains [slot] x =
      cover contains [(slot.nonOverlappingRanges range).1, range,
        (slot.nonOverlappingRanges range).2] x := by
  rw [containsRange_iff] at h
  have hb : (slot.nonOverlappingRanges range).1.contains x = true ↔
      slot.start ≤ x ∧ x < range.start := by
    simp only [nonOverlappingRanges]
    split <;> simp only [contains_iff, empty] <;> omega
  have ha : (slot.nonOverlappingRanges range).2.contains x = true ↔
      range.stop < x ∧ x ≤ slot.stop := by
    simp only [nonOverlappingRanges]
    split <;> simp only [contains_iff, empty] <;> omega
  simp only [cover_cons, cover_nil, contains_iff, hb, ha]
  split_ifs <;> omega

end AddressRange

end GunyahVmm.Resources
