import Mathlib.Order.Bounds.Basic
import GunyahVmm.Lib.Align
import GunyahVmm.Resources.Conservation

/-! Which address an aligned allocation gets, and which sums leave 64 bits. Regions are ordered and
apart, so the first or last that fits is the best. -/

namespace GunyahVmm.Resources
open Run Align BTreeSet AddressRange

/-! ## Searching in order -/

section Search
variable {α : Type} {R : α → α → Prop} {q : α → Bool} {l : List α} {x y : α}

lemma findM?_eq_find? {p : α → Option Bool} (h : ∀ x ∈ l, p x = some (q x)) :
    l.findM? p = some (l.find? q) := by
  induction l with
  | nil => rfl
  | cons x l ih =>
    rw [List.findM?, h x List.mem_cons_self, List.find?_cons]
    cases q x with
    | true => rfl
    | false => exact ih (List.forall_mem_cons.mp h).2

lemma mem_of_findM?_eq_some {p : α → Option Bool} (h : l.findM? p = some (some x)) : x ∈ l := by
  induction l with
  | nil => cases h
  | cons y l ih =>
    rw [List.findM?] at h
    obtain ⟨_ | _, -, h⟩ := Option.bind_eq_some_iff.mp h
    · exact List.mem_cons_of_mem y (ih h)
    · cases h
      exact List.mem_cons_self

/-- What is found comes before everything else that passes the test. -/
lemma eq_or_of_find? (hf : l.find? q = some x) (hs : l.Pairwise R) (hy : y ∈ l)
    (hq : q y = true) : y = x ∨ R x y := by
  obtain ⟨-, before, after, rfl, hp⟩ := List.find?_eq_some_iff_append.mp hf
  rw [List.mem_append, List.mem_cons] at hy
  rcases hy with hy | rfl | hy
  · exact absurd hq (by simpa using hp y hy)
  · exact .inl rfl
  · exact .inr ((List.pairwise_cons.mp (List.pairwise_append.mp hs).2.1).1 y hy)

end Search

/-! ## Room for an allocation -/

def Room (regions : List AddressRange) (size alignment addr : Nat) : Prop :=
  alignment ∣ addr ∧ ∃ r ∈ regions, r.start ≤ addr ∧ addr + (size - 1) ≤ r.stop

variable {size alignment : Nat} {r : AddressRange}
section
variable (size alignment : Nat) (r : AddressRange)

def lowRoom : Bool := alignUp r.start alignment + (size - 1) ≤ r.stop

/-- The aligned addresses from the end of the region on leave room. -/
def highRoom : Bool := size - 1 ≤ r.stop && r.start ≤ alignDown (r.stop - (size - 1)) alignment

/-- No sum of the search from below leaves 64 bits, the padding before the guard included. -/
def LowSumsFit : Prop :=
  (r.start % alignment ≠ 0 → size - 1 + alignment < u64Size) ∧
    (lowRoom size alignment r = true → alignUp r.start alignment + size < u64Size)

/-- The end of the allocation from above does not leave 64 bits. -/
def HighSumsFit : Prop :=
  highRoom size alignment r = true → alignDown (r.stop - (size - 1)) alignment + size < u64Size

end

instance : Decidable (LowSumsFit size alignment r) := inferInstanceAs (Decidable (_ ∧ _))

instance : Decidable (HighSumsFit size alignment r) := inferInstanceAs (Decidable (_ → _))

namespace AddressAllocator
variable {s : BTreeSet AddressRange} {slot : AddressRange} {reverse : Bool}
  {res : Outcome Error Nat}

lemma exists_of_isPowerOfTwo {n : Nat} (h : isPowerOfTwo n = true) : ∃ k, n = 2 ^ k := by
  simp only [isPowerOfTwo, Bool.and_eq_true, bne_iff_ne, beq_iff_eq] at h
  exact (Nat.and_sub_one_eq_zero_iff_isPowerOfTwo h.1).mp h.2

lemma dvd_u64Size (h : isPowerOfTwo alignment = true) (hlt : alignment < u64Size) :
    alignment ∣ u64Size := by
  obtain ⟨k, rfl⟩ := exists_of_isPowerOfTwo h
  have hk : k < 64 := (Nat.pow_lt_pow_iff_right (by decide : 1 < 2)).mp hlt
  exact Nat.pow_dvd_pow 2 hk.le

lemma fits_eq (ha : 0 < alignment) (hst : r.stop < u64Size)
    (hs : r.start % alignment ≠ 0 → size - 1 + alignment < u64Size) :
    fits size alignment r = some (lowRoom size alignment r) := by
  have hmod := Nat.mod_lt r.start ha
  have hany : ∀ n, (checkedAdd r.start n).any (· ≤ r.stop) = decide (r.start + n ≤ r.stop) := by
    intro n
    rw [checkedAdd]
    split_ifs with hlt
    · rfl
    · simp only [Option.any_none]
      exact (decide_eq_false (by omega)).symm
  rw [fits, lowRoom, alignUp]
  by_cases hr : r.start % alignment = 0
  · simp only [hr, if_true, hany]
  have hp := hs hr
  simp only [hr, if_false, hp, if_true, hany]
  congr 2
  simp only [eq_iff_iff]
  omega

section
variable (hal : isPowerOfTwo alignment = true) (hlt : alignment < u64Size)
include hal hlt

lemma alignMask_eq {n : Nat} (hn : n < u64Size) :
    n &&& alignMask alignment = alignDown n alignment := by
  obtain ⟨k, rfl⟩ := exists_of_isPowerOfTwo hal
  have hk : k < 64 := (Nat.pow_lt_pow_iff_right (by decide : 1 < 2)).mp hlt
  exact and_mask_eq_alignDown hk.le hn

lemma fitsReverse_eq (hs : r.stop < u64Size) :
    fitsReverse size alignment r = some (highRoom size alignment r) := by
  rw [fitsReverse, highRoom, checkedSub]
  split_ifs with hle
  · simp only [Option.any_some, hle, decide_true, Bool.true_and]
    rw [alignMask_eq hal hlt (by omega)]
  · simp [hle]

/-- The address that a region gives to an allocation from below. -/
lemma slotStart_low (hs : alignUp r.start alignment + size < u64Size) :
    slotStart r size alignment false = some (alignUp r.start alignment) := by
  have ha := pos_of_isPowerOfTwo hal
  rw [slotStart, alignUp]
  by_cases hr : r.start % alignment = 0
  · simp [hr]
  have := add_lt_of_alignUp_lt ha (dvd_u64Size hal hlt)
    (by omega : alignUp r.start alignment < u64Size) hr
  simp [hr, this]

lemma slotStart_high (hs : r.stop < u64Size) :
    slotStart r size alignment true = some (alignDown (r.stop - (size - 1)) alignment) := by
  rw [slotStart, if_pos rfl, alignMask_eq hal hlt (by omega)]

end

/-! ## What every allocator keeps -/

/-- The regions and the allocations end in the address space, and the least alignment is one. -/
structure InSpace (a : AddressAllocator) : Prop where
  minAlign : isPowerOfTwo a.minAlign = true
  minAlign_lt : a.minAlign < u64Size
  regions : ∀ r ∈ a.regions.toList, r.stop < u64Size
  ranges : ∀ r ∈ a.ranges, r.stop < u64Size

variable {a : AddressAllocator} {alloc : Alloc} {pools : List AddressRange}
  {minAlign preferredAlign : Option Nat}

lemma stop_insertNonempty (hs : ∀ r ∈ s.toList, r.stop < u64Size) (hsl : slot.stop < u64Size) :
    ∀ r ∈ (if slot.isEmpty then s else s.insert slot).toList, r.stop < u64Size := by
  intro r hr
  split_ifs at hr
  · exact hs r hr
  · rcases mem_of_mem_insert hr with rfl | hr
    · exact hsl
    · exact hs r hr

lemma internalAllocateFromSlot_inSpace (h : a.InSpace) {range : AddressRange} (tag : String)
    (hs : slot ∈ a.regions.toList) (hin : slot.containsRange range = true)
    (hn : alloc ∉ a.allocs) : (a.internalAllocateFromSlot slot range alloc tag).2.InSpace := by
  have hst := h.regions slot hs
  rw [AddressRange.containsRange_iff] at hin
  simp only [internalAllocateFromSlot, contains_of_mem hs, Bool.not_true,
    Bool.false_eq_true, if_false]
  refine ⟨h.minAlign, h.minAlign_lt, ?_, ?_⟩
  · refine stop_insertNonempty (stop_insertNonempty ?_ ?_) ?_
    · intro r hr
      exact h.regions r (mem_remove.mp hr).1
    · simp only [AddressRange.nonOverlappingRanges, AddressRange.empty]
      split_ifs <;> dsimp only <;> omega
    · simp only [AddressRange.nonOverlappingRanges, AddressRange.empty]
      split_ifs <;> dsimp only <;> omega
  · intro r hr
    simp only [ranges, AList.entries_insert_of_notMem hn, List.map_cons, List.mem_cons] at hr
    rcases hr with rfl | hr
    · omega
    · exact h.ranges r hr

section
variable (s : BTreeSet AddressRange) (slot : AddressRange)

lemma smallerMerge_yields : (smallerMerge s slot).Yields fun _ => True := by
  rw [smallerMerge]
  split
  · trivial
  split
  · trivial
  · split <;> trivial

lemma largerMerge_yields :
    (largerMerge s slot).Yields fun larger => ∀ l ∈ larger, l ∈ s.toList := by
  rw [largerMerge]
  split
  · simp [Outcome.Yields]
  rename_i larger hl
  split
  · trivial
  split
  · simp [Outcome.Yields]
  · rintro l ⟨⟩
    exact (mem_of_minGt hl).1
  · trivial

end

/-- A region of the merged set was one, or it ends where the slot or the region above it ends. -/
lemma stop_of_mem_coalesce {smaller larger : Option AddressRange}
    (h : r ∈ (coalesce s slot smaller larger).toList) :
    r ∈ s.toList ∨ r.stop = slot.stop ∨ ∃ l, larger = some l ∧ r.stop = l.stop := by
  rcases smaller with _ | sm <;> rcases larger with _ | lg <;>
    rcases mem_of_mem_insert h with rfl | hr
  · exact .inr (.inl rfl)
  · exact .inl hr
  · exact .inr (.inr ⟨lg, rfl, rfl⟩)
  · exact .inl (mem_remove.mp hr).1
  · exact .inr (.inl rfl)
  · exact .inl (mem_remove.mp hr).1
  · exact .inr (.inr ⟨lg, rfl, rfl⟩)
  · exact .inl (mem_remove.mp (mem_remove.mp hr).1).1

section
variable (h : a.InSpace)
include h

lemma insertAt_inSpace (hsl : slot.stop < u64Size) :
    (a.insertAt slot).1 ≠ .panic ∧ (a.insertAt slot).2.InSpace := by
  have hsml := smallerMerge_yields a.regions slot
  have hl := largerMerge_yields a.regions slot
  rw [insertAt]
  split_ifs with hemp
  · exact ⟨by simp, h⟩
  · cases hsm : smallerMerge a.regions slot with
    | panic => exact (hsm ▸ hsml).elim
    | err e => exact ⟨by simp, h⟩
    | ok smaller =>
      cases hlg : largerMerge a.regions slot with
      | panic => exact (hlg ▸ hl).elim
      | err e => exact ⟨by simp, h⟩
      | ok larger =>
        rw [hlg] at hl
        refine ⟨by simp, h.minAlign, h.minAlign_lt, fun r hr => ?_, h.ranges⟩
        rcases stop_of_mem_coalesce hr with ho | hs | ⟨l, rfl, hs⟩
        · exact h.regions r ho
        · rw [hs]
          exact hsl
        · rw [hs]
          exact h.regions l (hl l rfl)

lemma release_inSpace (alloc : Alloc) :
    (a.release alloc).1 ≠ .panic ∧ (a.release alloc).2.InSpace := by
  rw [release]
  cases hl : a.allocs.lookup alloc with
  | none => exact ⟨by simp, h⟩
  | some entry =>
    obtain ⟨range, tag⟩ := entry
    have hp := ranges_erase hl
    have hs := h.ranges range (hp.mem_iff.mpr List.mem_cons_self)
    have her : { a with allocs := a.allocs.erase alloc }.InSpace :=
      ⟨h.minAlign, h.minAlign_lt, h.regions, fun r hr =>
        h.ranges r (hp.mem_iff.mpr (List.mem_cons_of_mem _ hr))⟩
    have hi := insertAt_inSpace her hs
    dsimp only
    generalize { a with allocs := a.allocs.erase alloc }.insertAt range = res at hi
    obtain ⟨outcome, a'⟩ := res
    cases outcome with
    | ok | err => exact ⟨by simp, hi.2⟩
    | panic => exact absurd rfl hi.1

end

section
variable {α : Type} {res : Outcome Error α × AddressAllocator}

lemma Carves.inSpace (hc : a.Carves res) (h : a.InSpace) : res.2.InSpace := by
  cases hc with
  | err | panic => exact h
  | carve _ tag hs hin hn => exact internalAllocateFromSlot_inSpace h tag hs hin hn

lemma outcome_inSpace (h : res.2.InSpace) : (outcome res).2.InSpace := by
  obtain ⟨_ | _ | _, _⟩ := res <;> exact h

end

lemma call_inSpace (h : a.InSpace) (order : HashOrder) (op : Op) :
    (a.call order op).2.InSpace := by
  obtain hc | ⟨alloc, hr⟩ := a.call_cases order op
  · exact hc.inSpace h
  · rw [hr]
    exact outcome_inSpace (release_inSpace h alloc).2

lemma step_inSpace {a' : AddressAllocator} {op : HashOrder × Op} (h : a.InSpace)
    (hs : a.step op = some a') : a'.InSpace := by
  have hc := call_inSpace h op.1 op.2
  rw [step] at hs
  split at hs
  · cases hs
  rename_i heq
  rw [heq] at hc
  cases hs
  exact hc

lemma mem_of_mem_foldl_insert {l : List AddressRange}
    (h : r ∈ (l.foldl BTreeSet.insert s).toList) : r ∈ l ∨ r ∈ s.toList := by
  induction l generalizing s with
  | nil => exact .inr h
  | cons p l ih =>
    rcases ih h with hl | hs
    · exact .inl (List.mem_cons_of_mem p hl)
    rcases mem_of_mem_insert hs with rfl | hs
    · exact .inl List.mem_cons_self
    · exact .inr hs

section
variable (hb : ∀ p ∈ pools, p.stop < u64Size) (hm : ∀ m ∈ minAlign, m < u64Size)
include hb hm

lemma newFromList_inSpace (h : newFromList pools minAlign preferredAlign = .ok a) :
    a.InSpace := by
  have hmin : minAlign.getD 4 < u64Size := by
    cases minAlign with
    | none => decide
    | some m => exact hm m rfl
  simp only [newFromList] at h
  split_ifs at h with hbad
  cases h
  simp only [Bool.or_eq_true, Bool.not_eq_true', not_or, Bool.not_eq_false] at hbad
  refine ⟨hbad.1, hmin, fun r hr => ?_, by simp [ranges]⟩
  rcases mem_of_mem_foldl_insert hr with hr | hr
  · exact hb r (List.mem_filter.mp hr).1
  · simp [BTreeSet.empty] at hr

lemma run_inSpace {ops : List (HashOrder × Op)} {a₀ : AddressAllocator}
    (hn : newFromList pools minAlign preferredAlign = .ok a₀) (hr : run step ops a₀ = some a) :
    a.InSpace :=
  run_invariant InSpace (fun _ _ _ h hs => step_inSpace h hs) ops a₀ a
    (newFromList_inSpace hb hm hn) hr

end

/-! ## Allocations from below and from above -/

def pick (a : AddressAllocator) (size alignment : Nat) (reverse : Bool) : Option AddressRange :=
  if reverse then a.regions.toList.reverse.find? (highRoom size alignment)
  else a.regions.toList.find? (lowRoom size alignment)

section
variable (size alignment : Nat) (reverse : Bool) (r : AddressRange)

def placed : Nat :=
  if reverse then alignDown (r.stop - (size - 1)) alignment else alignUp r.start alignment

def SumsFit : Prop := if reverse then HighSumsFit size alignment r else LowSumsFit size alignment r

end

lemma search_eq (h : a.InSpace) (hal : isPowerOfTwo alignment = true)
    (hlt : alignment < u64Size) (hsm : ∀ r ∈ a.regions.toList, SumsFit size alignment reverse r) :
    (if reverse then a.regions.toList.reverse.findM? (fitsReverse size alignment)
      else a.regions.toList.findM? (fits size alignment)) = some (a.pick size alignment reverse) ∧
      ∀ slot, a.pick size alignment reverse = some slot → slot ∈ a.regions.toList ∧
        slotStart slot size alignment reverse = some (placed size alignment reverse slot) ∧
        placed size alignment reverse slot + size < u64Size := by
  have ha := pos_of_isPowerOfTwo hal
  cases reverse with
  | false =>
    refine ⟨findM?_eq_find? fun r hr => fits_eq ha (h.regions r hr) (hsm r hr).1, ?_⟩
    intro slot hs
    have hmem := List.mem_of_find?_eq_some hs
    have hrm : lowRoom size alignment slot = true := List.find?_some hs
    have hend := (hsm slot hmem).2 hrm
    exact ⟨hmem, slotStart_low hal hlt hend, hend⟩
  | true =>
    refine ⟨findM?_eq_find? fun r hr =>
      fitsReverse_eq hal hlt (h.regions r (List.mem_reverse.mp hr)), ?_⟩
    intro slot hs
    have hmem := List.mem_reverse.mp (List.mem_of_find?_eq_some hs)
    exact ⟨hmem, slotStart_high hal hlt (h.regions slot hmem),
      hsm slot hmem (List.find?_some hs)⟩

/-- With sums in 64 bits, an allocation of a new tag takes the region that is picked. -/
lemma internalAllocateWithAlign_eq (h : a.InSpace) (tag : String) (hn : alloc ∉ a.allocs)
    (hs : 0 < size) (hal : isPowerOfTwo (max a.minAlign alignment) = true)
    (hlt : max a.minAlign alignment < u64Size)
    (hsm : ∀ r ∈ a.regions.toList, SumsFit size (max a.minAlign alignment) reverse r) :
    (a.internalAllocateWithAlign size alloc tag alignment reverse).1 =
      match a.pick size (max a.minAlign alignment) reverse with
      | none => .err .outOfSpace
      | some slot => .ok (placed size (max a.minAlign alignment) reverse slot) := by
  obtain ⟨hf, hp⟩ := search_eq h hal hlt hsm
  rw [internalAllocateWithAlign]
  simp only [if_neg hn, if_neg (Nat.ne_of_gt hs), hal, Bool.not_true, Bool.false_eq_true,
    if_false, hf]
  cases hsl : a.pick size (max a.minAlign alignment) reverse with
  | none => rfl
  | some slot =>
    obtain ⟨hmem, hst, hend⟩ := hp slot hsl
    simp only [hst, if_pos hend]
    rw [internalAllocateFromSlot_eq hmem]

section
variable (size alignment : Nat)

/-- The sums of a search from below fit 64 bits, up to the first region with room: the padding of
each region that is not aligned, and the end of the allocation. -/
def LowSearchFits : List AddressRange → Prop
  | [] => True
  | r :: rs => (r.start % alignment ≠ 0 → size - 1 + alignment < u64Size) ∧
    if lowRoom size alignment r then alignUp r.start alignment + size < u64Size
    else LowSearchFits rs

/-- The end of the allocation in the last region with room fits 64 bits. -/
def HighSearchFits (regions : List AddressRange) : Prop :=
  ∀ slot ∈ regions.reverse.find? (highRoom size alignment),
    alignDown (slot.stop - (size - 1)) alignment + size < u64Size

end

instance decidableLowSearchFits : (l : List AddressRange) →
    Decidable (LowSearchFits size alignment l)
  | [] => .isTrue trivial
  | _ :: rs =>
    have := decidableLowSearchFits rs
    inferInstanceAs (Decidable (_ ∧ _))

/-- A search ends, and what it finds has a place in 64 bits. -/
def SearchPlaces (size alignment : Nat) (reverse : Bool) (region : Option (Option AddressRange)) :
    Prop :=
  ∃ found, region = some found ∧ ∀ slot ∈ found, ∃ start,
    slotStart slot size alignment reverse = some start ∧ start + size < u64Size

section
variable (hal : isPowerOfTwo alignment = true) (hlt : alignment < u64Size) {l : List AddressRange}
  (hl : ∀ r ∈ l, r.stop < u64Size)
include hal hlt

lemma slotStart_low_iff : (∃ start, slotStart r size alignment false = some start ∧
    start + size < u64Size) ↔ alignUp r.start alignment + size < u64Size := by
  constructor
  · rintro ⟨start, hs, hend⟩
    simp only [slotStart, Bool.false_eq_true, if_false] at hs
    unfold alignUp
    by_cases hr : r.start % alignment = 0
    · rw [if_pos hr] at hs ⊢
      cases hs
      exact hend
    · rw [if_neg hr] at hs ⊢
      split_ifs at hs
      cases hs
      exact hend
  · exact fun hend => ⟨_, slotStart_low hal hlt hend, hend⟩

include hl

lemma searchPlaces_low : SearchPlaces size alignment false (l.findM? (fits size alignment)) ↔
    LowSearchFits size alignment l := by
  induction l with
  | nil => exact iff_of_true ⟨none, rfl, nofun⟩ trivial
  | cons r l ih =>
    obtain ⟨hr, hl⟩ := List.forall_mem_cons.mp hl
    rw [LowSearchFits, List.findM?]
    by_cases hpad : r.start % alignment ≠ 0 → size - 1 + alignment < u64Size
    · rw [fits_eq (pos_of_isPowerOfTwo hal) hr hpad, and_iff_right hpad]
      cases lowRoom size alignment r with
      | true =>
        rw [if_pos rfl, ← slotStart_low_iff hal hlt]
        simp [SearchPlaces]
      | false => exact ih hl
    · obtain ⟨hr, hs⟩ := Classical.not_imp.mp hpad
      rw [fits, if_neg hr, if_neg hs]
      exact iff_of_false (by simp [SearchPlaces]) fun h => hpad h.1

lemma searchPlaces_high :
    SearchPlaces size alignment true (l.reverse.findM? (fitsReverse size alignment)) ↔
      HighSearchFits size alignment l := by
  rw [findM?_eq_find? fun r hr => fitsReverse_eq hal hlt (hl r (List.mem_reverse.mp hr))]
  unfold SearchPlaces HighSearchFits
  simp only [Option.some.injEq, exists_eq_left']
  refine forall_congr' fun slot => forall_congr' fun hs => ?_
  rw [slotStart_high hal hlt (hl slot (List.mem_reverse.mp (List.mem_of_find?_eq_some hs)))]
  simp

end

/-- What the search needs if the call comes as far as that. -/
def SumsFitIn (a : AddressAllocator) (size : Nat) (alloc : Alloc) (alignment : Nat)
    (searchFits : Nat → Nat → List AddressRange → Prop) : Prop :=
  alloc ∉ a.allocs → 0 < size → isPowerOfTwo (max a.minAlign alignment) = true →
    searchFits size (max a.minAlign alignment) a.regions.toList

instance (searchFits : Nat → Nat → List AddressRange → Prop)
    [Decidable (searchFits size (max a.minAlign alignment) a.regions.toList)] :
    Decidable (a.SumsFitIn size alloc alignment searchFits) := inferInstanceAs (Decidable (_ → _))

lemma internalAllocateWithAlign_ne_panic (h : a.InSpace) (alloc : Alloc) (tag : String)
    (hlt : alignment < u64Size) :
    (a.internalAllocateWithAlign size alloc tag alignment reverse).1 ≠ .panic ↔
      a.SumsFitIn size alloc alignment (if reverse then HighSearchFits else LowSearchFits) := by
  unfold SumsFitIn
  by_cases hn : alloc ∈ a.allocs
  · simp [internalAllocateWithAlign, hn]
  rcases Nat.eq_zero_or_pos size with rfl | hs
  · simp [internalAllocateWithAlign, hn]
  cases hal : isPowerOfTwo (max a.minAlign alignment) with
  | false => simp [internalAllocateWithAlign, hn, Nat.ne_of_gt hs, hal]
  | true =>
    have hmx := max_lt h.minAlign_lt hlt
    have hsearch : SearchPlaces size (max a.minAlign alignment) reverse
        (if reverse then a.regions.toList.reverse.findM?
          (fitsReverse size (max a.minAlign alignment))
          else a.regions.toList.findM? (fits size (max a.minAlign alignment))) ↔
        (if reverse then HighSearchFits else LowSearchFits) size (max a.minAlign alignment)
          a.regions.toList := by
      cases reverse with
      | false => exact searchPlaces_low hal hmx h.regions
      | true => exact searchPlaces_high hal hmx h.regions
    simp only [hn, hs, not_false_eq_true, forall_const, ← hsearch]
    rw [internalAllocateWithAlign]
    simp only [if_neg hn, if_neg (Nat.ne_of_gt hs), hal, Bool.not_true, Bool.false_eq_true,
      if_false]
    split
    · rename_i hf
      simp [SearchPlaces, hf]
    · rename_i hf
      simp [SearchPlaces, hf]
    · rename_i slot hf
      have hmem : slot ∈ a.regions.toList := by
        split_ifs at hf
        · exact List.mem_reverse.mp (mem_of_findM?_eq_some hf)
        · exact mem_of_findM?_eq_some hf
      rw [hf]
      cases hst : slotStart slot size (max a.minAlign alignment) reverse with
      | none => simp [SearchPlaces, hst]
      | some start =>
        by_cases hend : start + size < u64Size
        · dsimp only
          rw [if_pos hend, internalAllocateFromSlot_eq hmem]
          refine iff_of_true (by simp) ⟨_, rfl, fun _ hs => ?_⟩
          exact ⟨start, Option.mem_some.mp hs ▸ hst, hend⟩
        · simp [SearchPlaces, hst, hend]

/-- A call on a reachable allocator aborts exactly if a sum of an aligned search leaves 64 bits. -/
theorem calls_return_iff (pools : List AddressRange) (minAlign preferredAlign : Option Nat)
    (ops : List (HashOrder × Op)) {a₀ a : AddressAllocator} (hb : ∀ p ∈ pools, p.stop < u64Size)
    (hm : ∀ m ∈ minAlign, m < u64Size) (hnew : newFromList pools minAlign preferredAlign = .ok a₀)
    (hrun : run step ops a₀ = some a) (order : HashOrder) (size alignment value : Nat)
    (range : AddressRange) (alloc : Alloc) (tag : String) (hlt : alignment < u64Size) :
    ((a.allocateWithAlign size alloc tag alignment).1 ≠ .panic ↔
        a.SumsFitIn size alloc alignment LowSearchFits) ∧
      ((a.reverseAllocateWithAlign size alloc tag alignment).1 ≠ .panic ↔
        a.SumsFitIn size alloc alignment HighSearchFits) ∧
      (a.allocateAt order range alloc tag).1 ≠ .panic ∧
      (a.releaseContaining order value).1 ≠ .panic := by
  have h := run_inSpace hb hm hnew hrun
  refine ⟨internalAllocateWithAlign_ne_panic h alloc tag hlt,
    internalAllocateWithAlign_ne_panic h alloc tag hlt,
    (a.allocateAt_carves order range alloc tag).2, ?_⟩
  rw [releaseContaining]
  split
  · exact (release_inSpace h _).1
  · simp

/-- The last region ends at the last address, and the first one has room. -/
theorem calls_return_iff_two_pools :
    ∃ a, newFromList [⟨0x1000, 0x1fff⟩, ⟨u64Size - 0x1000, u64Size - 1⟩] none none = .ok a ∧
      (a.allocateWithAlign 0x1000 (.anon 1) "" 4).1 ≠ .panic :=
  ⟨_, rfl, (calls_return_iff [⟨0x1000, 0x1fff⟩, ⟨u64Size - 0x1000, u64Size - 1⟩] none none []
    (by decide) (by simp) rfl rfl entryOrder 0x1000 4 0 ⟨0, 0⟩ (.anon 1) "" (by decide)).1.mpr
    (by decide)⟩

/-- An allocation that ends at the last address aborts: its end is computed from the address behind
it. So does one whose size with the padding leaves 64 bits. -/
theorem last_address_aborts :
    ∃ a b, newFromList [⟨0, 0xffffffffffffffff⟩] none none = .ok a ∧
      (a.reverseAllocateWithAlign 4 (.anon 1) "" 4).1 = .panic ∧
      newFromList [⟨1, 0xffff⟩] none none = .ok b ∧
      (b.allocateWithAlign 0xffffffffffffffff (.anon 1) "" 4).1 = .panic :=
  ⟨_, _, rfl, by decide, rfl, by decide⟩

/-! ## The best address -/

/-- The result is the best address with room, and out of space if there is none. -/
def Finds (best : Set Nat → Nat → Prop) (rooms : Set Nat) (res : Outcome Error Nat) : Prop :=
  (∀ addr, res = .ok addr ↔ best rooms addr) ∧ (res = .err .outOfSpace ↔ rooms = ∅)

lemma outOfSpace_of_pick {rooms : Set Nat} {found : Option AddressRange}
    {place : AddressRange → Nat}
    (hr : res = match found with | none => .err .outOfSpace | some slot => .ok (place slot))
    (hn : found = none → rooms = ∅) (hs : ∀ slot, found = some slot → place slot ∈ rooms) :
    res = .err .outOfSpace ↔ rooms = ∅ := by
  cases found with
  | none => simp [hr, hn rfl]
  | some slot =>
    simp only [hr, reduceCtorEq, false_iff]
    exact Set.Nonempty.ne_empty ⟨_, hs slot rfl⟩

lemma finds_of_pick {best : Set Nat → Nat → Prop} {rooms : Set Nat}
    {found : Option AddressRange} {place : AddressRange → Nat}
    (hr : res = match found with | none => .err .outOfSpace | some slot => .ok (place slot))
    (hn : found = none → rooms = ∅) (hs : ∀ slot, found = some slot → best rooms (place slot))
    (hmem : ∀ addr, best rooms addr → addr ∈ rooms)
    (hu : ∀ addr addr', best rooms addr → best rooms addr' → addr = addr') :
    Finds best rooms res := by
  refine ⟨fun addr => ?_, outOfSpace_of_pick hr hn fun slot h => hmem _ (hs slot h)⟩
  cases found with
  | none =>
    simp only [hr, reduceCtorEq, false_iff]
    intro hbs
    have hin := hmem addr hbs
    rw [hn rfl] at hin
    exact hin
  | some slot =>
    have hbs := hs slot rfl
    rw [hr, Outcome.ok.injEq]
    constructor
    · rintro rfl
      exact hbs
    · exact hu _ addr hbs

lemma finds_lowest (ha : 0 < alignment)
    (hres : res = match a.pick size alignment false with
      | none => .err .outOfSpace
      | some slot => .ok (placed size alignment false slot)) :
    Finds IsLeast {addr | Room a.regions.toList size alignment addr} res := by
  have hlow : ∀ addr r, alignment ∣ addr → r.start ≤ addr → addr + (size - 1) ≤ r.stop →
      alignUp r.start alignment ≤ addr ∧ lowRoom size alignment r = true := by
    intro addr r hd hst hs
    have hup := alignUp_le ha hd hst
    rw [lowRoom, decide_eq_true_eq]
    omega
  refine finds_of_pick hres ?_ ?_ (fun _ hls => hls.1) fun _ _ => IsLeast.unique
  · intro hn
    refine Set.eq_empty_of_forall_notMem ?_
    rintro addr ⟨hd, r, hr, hst, hs⟩
    exact absurd (hlow addr r hd hst hs).2 (List.find?_eq_none.mp hn r hr)
  · intro slot hsl
    have hmem := List.mem_of_find?_eq_some hsl
    have hrm : lowRoom size alignment slot = true := List.find?_some hsl
    constructor
    · rw [lowRoom, decide_eq_true_eq] at hrm
      exact ⟨dvd_alignUp _, slot, hmem, le_alignUp ha _, hrm⟩
    · rintro addr ⟨hd, r, hr, hst, hs⟩
      obtain ⟨hup, hl⟩ := hlow addr r hd hst hs
      rcases eq_or_of_find? hsl a.regions.sorted hr hl with rfl | hlt
      · exact hup
      -- neither region is empty, so the one picked does not start behind the other
      have hup' := le_alignUp ha slot.start
      rw [lowRoom, decide_eq_true_eq] at hrm
      have hle := start_le_of_compare_le ((isEmpty_eq_false_iff _).mpr (by omega))
        ((isEmpty_eq_false_iff _).mpr (by omega)) (by simp [hlt] : (compare slot r).isLE)
      exact (alignUp_mono ha hle).trans hup

/-! A reverse search finds a place if there is one, though not always the highest. -/

section
variable (hres : res = match a.pick size alignment true with
    | none => .err .outOfSpace
    | some slot => .ok (placed size alignment true slot))

lemma highRoom_of_room {addr : Nat} {r : AddressRange} (hdvd : alignment ∣ addr)
    (hst : r.start ≤ addr) (hs : addr + (size - 1) ≤ r.stop) :
    addr ≤ alignDown (r.stop - (size - 1)) alignment ∧ highRoom size alignment r = true := by
  have hd := le_alignDown hdvd (by omega : addr ≤ r.stop - (size - 1))
  rw [highRoom, Bool.and_eq_true, decide_eq_true_eq, decide_eq_true_eq]
  omega

lemma rooms_of_pick_none (hn : a.pick size alignment true = none) :
    {addr | Room a.regions.toList size alignment addr} = ∅ := by
  refine Set.eq_empty_of_forall_notMem ?_
  rintro addr ⟨hdvd, r, hr, hst, hs⟩
  exact absurd (highRoom_of_room hdvd hst hs).2
    (List.find?_eq_none.mp hn r (List.mem_reverse.mpr hr))

lemma room_of_pick {slot : AddressRange} (hsl : a.pick size alignment true = some slot) :
    Room a.regions.toList size alignment (placed size alignment true slot) := by
  have hmem := List.mem_reverse.mp (List.mem_of_find?_eq_some hsl)
  have hrm : highRoom size alignment slot = true := List.find?_some hsl
  rw [highRoom, Bool.and_eq_true, decide_eq_true_eq, decide_eq_true_eq] at hrm
  have hd := alignDown_le (slot.stop - (size - 1)) alignment
  refine ⟨dvd_alignDown _ _, slot, hmem, hrm.2, ?_⟩
  change alignDown (slot.stop - (size - 1)) alignment + (size - 1) ≤ slot.stop
  omega

include hres

lemma reverse_outOfSpace : res = .err .outOfSpace ↔
    {addr | Room a.regions.toList size alignment addr} = ∅ :=
  outOfSpace_of_pick hres rooms_of_pick_none fun _ => room_of_pick

lemma finds_highest (hsr : a.regions.toList.Pairwise fun r s => r.stop < s.start) :
    Finds IsGreatest {addr | Room a.regions.toList size alignment addr} res := by
  refine finds_of_pick hres rooms_of_pick_none ?_ (fun _ hg => hg.1) fun _ _ => IsGreatest.unique
  intro slot hsl
  have hrm : highRoom size alignment slot = true := List.find?_some hsl
  rw [highRoom, Bool.and_eq_true, decide_eq_true_eq, decide_eq_true_eq] at hrm
  refine ⟨room_of_pick hsl, ?_⟩
  rintro addr ⟨hdvd, r, hr, hst, hs⟩
  obtain ⟨hup, hhg⟩ := highRoom_of_room hdvd hst hs
  have hbc := List.pairwise_reverse.mpr hsr
  rcases eq_or_of_find? hsl hbc (List.mem_reverse.mpr hr) hhg with rfl | hlt
  · exact hup
  -- the other region ends below the one picked
  change addr ≤ alignDown (slot.stop - (size - 1)) alignment
  omega

end

lemma Conserved.sorted_regions (h : a.Conserved) :
    a.regions.toList.Pairwise fun r s => r.stop < s.start := by
  have ha : a.regions.toList.Pairwise AddressRange.Disjoint :=
    Coverage.pairwise_of_cover_le_one fun x => by
      have := h.cover_le_one x
      omega
  refine (ha.and a.regions.sorted).imp_of_mem ?_
  rintro r s hr hs ⟨hd, hlt⟩
  have hr' := h.regions r hr
  have hs' := h.regions s hs
  have hle := start_le_of_compare_le hr' hs' (by simp [hlt])
  rcases lt_or_lt_of_disjoint hr' hs' hd with hlt | hlt
  · exact hlt
  · rw [isEmpty_eq_false_iff] at hs'
    omega

/-- **Allocations at the best address.** After any operations, an allocation under a new tag gets
the lowest aligned address with room. A reverse allocation gets an address if there is room, and the
highest one if the pools are disjoint. -/
theorem allocations_take_the_best (pools : List AddressRange) (minAlign preferredAlign : Option Nat)
    (ops : List (HashOrder × Op)) {a₀ a : AddressAllocator} (hb : ∀ p ∈ pools, p.stop < u64Size)
    (hm : ∀ m ∈ minAlign, m < u64Size) (hnew : newFromList pools minAlign preferredAlign = .ok a₀)
    (hrun : run step ops a₀ = some a) (size alignment : Nat) (alloc : Alloc) (tag : String)
    (hsize : 0 < size) (hal : isPowerOfTwo alignment = true) (hlt : alignment < u64Size)
    (hfree : alloc ∉ a.allocs) :
    ((∀ r ∈ a.regions.toList, LowSumsFit size (max a.minAlign alignment) r) →
        Finds IsLeast {addr | Room a.regions.toList size (max a.minAlign alignment) addr}
          (a.allocateWithAlign size alloc tag alignment).1) ∧
      ((∀ r ∈ a.regions.toList, HighSumsFit size (max a.minAlign alignment) r) →
        ((a.reverseAllocateWithAlign size alloc tag alignment).1 = .err .outOfSpace ↔
          {addr | Room a.regions.toList size (max a.minAlign alignment) addr} = ∅) ∧
        (pools.Pairwise AddressRange.Disjoint →
          Finds IsGreatest {addr | Room a.regions.toList size (max a.minAlign alignment) addr}
            (a.reverseAllocateWithAlign size alloc tag alignment).1)) := by
  have h := run_inSpace hb hm hnew hrun
  have hmax : isPowerOfTwo (max a.minAlign alignment) = true := by
    rcases le_total a.minAlign alignment with hle | hle
    · rwa [max_eq_right hle]
    · rw [max_eq_left hle]
      exact h.minAlign
  have hmx := max_lt h.minAlign_lt hlt
  refine ⟨fun hl => ?_, fun hh => ?_⟩
  · exact finds_lowest (pos_of_isPowerOfTwo hmax)
      (internalAllocateWithAlign_eq h tag hfree hsize hmax hmx hl)
  have hsm : ∀ r ∈ a.regions.toList, SumsFit size (max a.minAlign alignment) true r := hh
  have hres := internalAllocateWithAlign_eq h tag hfree hsize hmax hmx hsm
  refine ⟨reverse_outOfSpace hres, fun hp => finds_highest hres ?_⟩
  have hcn : a.Conserved := run_invariant Conserved
    (fun _ _ _ hc hst => (step_conserved hc hst).1) ops a₀ a
    (newFromList_conserved hp hb hnew).1 hrun
  exact hcn.sorted_regions

/-- The allocator of one page. -/
theorem allocations_take_the_best_one_page : ∃ a, newFromList [⟨0x1001, 0x1fff⟩] none none = .ok a ∧
    Finds IsLeast {addr | Room a.regions.toList 0x100 0x100 addr}
      (a.allocateWithAlign 0x100 (.anon 1) "" 0x100).1 ∧
    Finds IsGreatest {addr | Room a.regions.toList 0x100 0x100 addr}
      (a.reverseAllocateWithAlign 0x100 (.anon 1) "" 0x100).1 := by
  have hbs := allocations_take_the_best [⟨0x1001, 0x1fff⟩] none none []
    (by decide) (by simp) rfl rfl 0x100 0x100 (.anon 1) ""
    (by decide) (by decide) (by decide) (by decide)
  exact ⟨_, rfl, hbs.1 (by decide), (hbs.2 (by decide)).2 (List.pairwise_singleton _ _)⟩

/-- From two pools that overlap, a reverse allocation takes the region that starts last, though
there is room at a higher address. And a tag in use gets nothing. -/
theorem overlapping_pools_miss_the_highest :
    ∃ a, newFromList [⟨0, 0xff⟩, ⟨0x10, 0x1f⟩] none none = .ok a ∧
      (∀ r ∈ a.regions.toList, HighSumsFit 4 (max a.minAlign 4) r) ∧
      (a.reverseAllocateWithAlign 4 (.anon 1) "" 4).1 = .ok 0x1c ∧
      Room a.regions.toList 4 (max a.minAlign 4) 0xfc ∧
      ∃ a', a.allocateWithAlign 4 (.anon 1) "" 4 = (.ok 0, a') ∧
        (∀ r ∈ a'.regions.toList, LowSumsFit 4 (max a'.minAlign 4) r) ∧
        (a'.allocateWithAlign 4 (.anon 1) "" 4).1 = .err (.existingAlloc (.anon 1)) ∧
        Room a'.regions.toList 4 (max a'.minAlign 4) 4 := by
  refine ⟨_, rfl, by decide, by decide, ?_, _, rfl, by decide, by decide, ?_⟩
  · exact ⟨by decide, ⟨0, 0xff⟩, by decide, by decide, by decide⟩
  · exact ⟨by decide, ⟨4, 0xff⟩, by decide, by decide, by decide⟩

end AddressAllocator

end GunyahVmm.Resources
