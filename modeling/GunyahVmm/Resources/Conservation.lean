import GunyahVmm.Lib.AssocList
import GunyahVmm.Resources.AddressAllocator

/-! Every address of the pools is free or allocated, once, after every history. -/

namespace GunyahVmm.Resources
open Run Coverage AddressRange BTreeSet
namespace AddressAllocator

def ranges (a : AddressAllocator) : List AddressRange := a.allocs.entries.map (fun e => e.2.1)

structure Conserved (a : AddressAllocator) : Prop where
  bounded : ∀ p ∈ a.pools, p.stop < u64Size
  pools : a.pools.Pairwise AddressRange.Disjoint
  regions : ∀ r ∈ a.regions.toList, r.isEmpty = false
  ranges : ∀ r ∈ a.ranges, r.isEmpty = false
  cover : ∀ x, cover contains a.regions.toList x +
    cover contains a.ranges x = cover contains a.pools x

/-- What an operation does to a conserved state: an error changes nothing, a
success conserves. -/
def Sound {α : Type} (a : AddressAllocator) : Outcome Error α × AddressAllocator → Prop
  | (.ok _, a') => a'.Conserved ∧ a'.pools = a.pools
  | (.err _, a') => a' = a
  | (.panic, _) => True

variable {a : AddressAllocator} {s : BTreeSet AddressRange} {slot range r : AddressRange}
  {alloc : Alloc} {alignment : Nat} {pools : List AddressRange}

lemma Conserved.cover_le_one (h : a.Conserved) (x : Nat) :
    Coverage.cover contains a.regions.toList x +
      Coverage.cover contains a.ranges x ≤ 1 := by
  rw [h.cover x]
  exact Coverage.cover_le_one h.pools x

/-- An allocated range ends inside the address space, as the pool that holds its end does. -/
lemma Conserved.stop_lt (h : a.Conserved) (hr : r ∈ a.ranges) : r.stop < u64Size := by
  have hne := (isEmpty_eq_false_iff r).mp (h.ranges r hr)
  have hpos : 0 < Coverage.cover contains a.pools r.stop := by
    rw [← h.cover]
    have := (cover_pos_iff contains a.ranges r.stop).mpr ⟨r, hr, by simpa using hne⟩
    omega
  obtain ⟨p, hp, hst⟩ := (cover_pos_iff _ _ _).mp hpos
  have := h.bounded p hp
  rw [contains_iff] at hst
  omega

/-! ## Free regions -/

lemma cover_insert (hs : ∀ r ∈ s.toList, r.isEmpty = false) (hslot : slot.isEmpty = false)
    (hd : ∀ r ∈ s.toList, AddressRange.Disjoint slot r) (x : Nat) :
    cover contains (s.insert slot).toList x =
      cover contains [slot] x + cover contains s.toList x := by
  have hne : ∀ r ∈ s.toList, compare slot r ≠ .eq := by
    intro r hr he
    have heq := eq_of_compare_eq hslot (hs r hr) he
    rw [isEmpty_eq_false_iff] at hslot
    refine hd r hr slot.start ?_
    rw [← heq, contains_iff]
    omega
  rw [cover_perm _ (insert_perm hne), cover_cons, cover_cons, cover_nil, Nat.add_zero]

lemma cover_remove (h : slot ∈ s.toList) (x : Nat) :
    cover contains s.toList x =
      cover contains [slot] x + cover contains (s.remove slot).toList x := by
  rw [cover_perm _ (remove_perm h), cover_cons, cover_cons, cover_nil, Nat.add_zero]

/-- `insert` skipped for an empty range, as the carving of a slot does it. -/
lemma cover_insertNonempty (hs : ∀ r ∈ s.toList, r.isEmpty = false)
    (hd : ∀ r ∈ s.toList, AddressRange.Disjoint slot r) (x : Nat) :
    cover contains (if slot.isEmpty then s else s.insert slot).toList x =
      cover contains [slot] x + cover contains s.toList x := by
  cases h : slot.isEmpty with
  | false => exact cover_insert hs h hd x
  | true => simp [contains_of_isEmpty h x]

lemma nonempty_insertNonempty (hs : ∀ r ∈ s.toList, r.isEmpty = false) (slot : AddressRange) :
    ∀ r ∈ (if slot.isEmpty then s else s.insert slot).toList, r.isEmpty = false := by
  intro r hr
  cases h : slot.isEmpty with
  | false =>
    rw [h] at hr
    rcases mem_of_mem_insert hr with rfl | hr
    · exact h
    · exact hs r hr
  | true => exact hs r (by simpa [h] using hr)

/-! ## Carving an allocation out of a free region -/

lemma internalAllocateFromSlot_eq {tag : String} (hslot : slot ∈ a.regions.toList) :
    a.internalAllocateFromSlot slot range alloc tag =
      (.ok range.start, (a.internalAllocateFromSlot slot range alloc tag).2) := by
  simp [internalAllocateFromSlot, contains_of_mem hslot]

/-- An allocation fails and changes nothing, or carves a range out of a free region. -/
inductive Carves {α : Type} (a : AddressAllocator) : Outcome Error α × AddressAllocator → Prop
  | err (e : Error) : Carves a (.err e, a)
  | panic : Carves a (.panic, a)
  | carve (value : α) {slot range : AddressRange} {alloc : Alloc} (tag : String) :
    slot ∈ a.regions.toList → slot.containsRange range = true → alloc ∉ a.allocs →
    Carves a (.ok value, (a.internalAllocateFromSlot slot range alloc tag).2)

lemma internalAllocateFromSlot_conserved (h : a.Conserved) (tag : String)
    (hslot : slot ∈ a.regions.toList) (hin : slot.containsRange range = true)
    (hn : alloc ∉ a.allocs) :
    (a.internalAllocateFromSlot slot range alloc tag).2.Conserved ∧
      (a.internalAllocateFromSlot slot range alloc tag).2.pools = a.pools := by
  have hp := nonOverlappingRanges_cover hin
  rcases hpr : slot.nonOverlappingRanges range with ⟨before, after⟩
  simp only [hpr] at hp
  have hrem : ∀ r ∈ (a.regions.remove slot).toList, r.isEmpty = false :=
    fun r hr => h.regions r (mem_remove.mp hr).1
  -- Nothing that stays free shares an address with the slot.
  have ho : ∀ x, cover contains [slot] x +
      cover contains (a.regions.remove slot).toList x ≤ 1 := by
    intro x
    have hle := h.cover_le_one x
    rw [cover_remove hslot] at hle
    omega
  have hpre : ∀ r ∈ (a.regions.remove slot).toList, AddressRange.Disjoint before r := by
    intro r hr
    refine apart_of_cover_add_le_one (l := [before, range, after]) (fun x => ?_)
      List.mem_cons_self hr
    rw [← hp]
    exact ho x
  have hc1 := cover_insertNonempty hrem hpre
  have hne1 := nonempty_insertNonempty hrem before
  have ha : ∀ r ∈ (if before.isEmpty then a.regions.remove slot
      else (a.regions.remove slot).insert before).toList, AddressRange.Disjoint after r := by
    intro r hr
    refine apart_of_cover_add_le_one (l := [after]) (fun x => ?_) List.mem_cons_self hr
    have hx := ho x
    rw [hp] at hx
    rw [hc1]
    simp only [cover_cons, cover_nil] at hx ⊢
    omega
  have hc2 := cover_insertNonempty hne1 ha
  have hne2 := nonempty_insertNonempty hne1 after
  simp only [internalAllocateFromSlot, contains_of_mem hslot, hpr, Bool.not_true,
    Bool.false_eq_true, ↓reduceIte]
  refine ⟨⟨h.bounded, h.pools, hne2, ?_, ?_⟩, trivial⟩
  · intro r hr
    simp only [ranges, AList.entries_insert_of_notMem hn, List.map_cons, List.mem_cons] at hr
    rcases hr with rfl | hr
    · rw [containsRange_iff] at hin
      rw [isEmpty_eq_false_iff]
      exact hin.1
    · exact h.ranges r hr
  · intro x
    have hl := h.cover x
    have hx := hp x
    rw [cover_remove hslot] at hl
    simp only [ranges, AList.entries_insert_of_notMem hn, List.map_cons, hc2, hc1]
    simp only [cover_cons, cover_nil, ranges] at hl hx ⊢
    omega

lemma mem_of_findM? {α : Type} {p : α → Option Bool} {l : List α} {x : α}
    (h : l.findM? p = some (some x)) : x ∈ l ∧ p x = some true := by
  induction l with
  | nil => simp [List.findM?] at h
  | cons y ys ih =>
    rw [List.findM?, Option.bind_eq_bind, Option.bind_eq_some_iff] at h
    obtain ⟨b, hb, h⟩ := h
    cases b with
    | true =>
      cases h
      exact ⟨List.mem_cons_self, hb⟩
    | false => exact ⟨List.mem_cons_of_mem _ (ih h).1, (ih h).2⟩

lemma pos_of_isPowerOfTwo {n : Nat} (h : isPowerOfTwo n = true) : 0 < n := by
  simp only [isPowerOfTwo, Bool.and_eq_true, bne_iff_ne] at h
  omega

lemma containsRange_of_fits {size start : Nat} (hsz : size ≠ 0) (hal : 0 < alignment)
    (hf : fits size alignment slot = some true)
    (hst : slotStart slot size alignment false = some start) :
    slot.containsRange ⟨start, start + size - 1⟩ = true := by
  have hr := Nat.mod_lt slot.start hal
  rw [containsRange_iff]
  dsimp only
  by_cases h0 : slot.start % alignment = 0
  · simp only [fits, slotStart, h0, checkedAdd, Bool.false_eq_true, ↓reduceIte,
      Option.some.injEq] at hf hst
    split at hf <;> simp at hf
    omega
  · simp only [fits, slotStart, h0, checkedAdd, Bool.false_eq_true, ↓reduceIte] at hf hst
    split at hf <;> simp only [reduceCtorEq, Option.some.injEq] at hf
    split at hf <;> simp at hf
    split at hst <;> simp at hst
    omega

lemma containsRange_of_fitsReverse {size start : Nat} (hsz : size ≠ 0)
    (hf : fitsReverse size alignment slot = some true)
    (hst : slotStart slot size alignment true = some start) :
    slot.containsRange ⟨start, start + size - 1⟩ = true := by
  simp only [fitsReverse, slotStart, checkedSub, ↓reduceIte, Option.some.injEq] at hf hst
  split at hf <;> simp at hf
  have hle : (slot.stop - (size - 1)) &&& alignMask alignment ≤ slot.stop - (size - 1) :=
    Nat.and_le_left
  rw [containsRange_iff]
  dsimp only
  omega

lemma internalAllocateWithAlign_carves (a : AddressAllocator) (size : Nat) (alloc : Alloc)
    (tag : String) (alignment : Nat) (reverse : Bool) :
    a.Carves (a.internalAllocateWithAlign size alloc tag alignment reverse) := by
  simp only [internalAllocateWithAlign]
  split_ifs with hn hsz hp hr
  · exact .err _
  · exact .err _
  · exact .err _
  all_goals
    have hal := pos_of_isPowerOfTwo (by simpa using hp)
    split
    · exact .panic
    · exact .err _
    · rename_i slot hslot
      obtain ⟨hm, hf⟩ := mem_of_findM? hslot
      have hin : slot ∈ a.regions.toList := by simpa using hm
      split
      · exact .panic
      rename_i start hst
      split_ifs with ho
      · rw [internalAllocateFromSlot_eq hin]
        refine .carve _ tag hin ?_ hn
        first
          | exact containsRange_of_fitsReverse hsz hf (by simpa [hr] using hst)
          | exact containsRange_of_fits hsz hal hf (by simpa [hr] using hst)
      · exact .panic

lemma allocatePreferred_carves
    {allocate : AddressAllocator → Nat → Outcome Error Nat × AddressAllocator}
    (hs : ∀ alignment, a.Carves (allocate a alignment)) :
    a.Carves (a.allocatePreferred allocate) := by
  have hp := hs a.preferredAlign
  simp only [allocatePreferred]
  split
  · rename_i e a' heq
    rw [heq] at hp
    cases hp
    exact hs _
  · exact hp

lemma allocateAt_carves (a : AddressAllocator) (order : HashOrder) (range : AddressRange)
    (alloc : Alloc) (tag : String) :
    a.Carves (a.allocateAt order range alloc tag) ∧
      (a.allocateAt order range alloc tag).1 ≠ .panic := by
  simp only [allocateAt]
  split_ifs with hn hemp
  · exact ⟨.err _, by simp⟩
  · exact ⟨.err _, by simp⟩
  · split
    · rename_i slot hslot
      have hm := List.mem_of_find?_eq_some hslot
      have hin := List.find?_some hslot
      rw [internalAllocateFromSlot_eq hm]
      exact ⟨.carve () tag hm hin hn, by simp⟩
    · split <;> exact ⟨.err _, by simp⟩

/-! ## Putting a range back -/

/-- A list of ranges that cover, with the regions, no address twice, can be inserted
one by one. -/
lemma cover_foldl_insert (l : List AddressRange) :
    ∀ s : BTreeSet AddressRange, (∀ r ∈ l, r.isEmpty = false) →
      (∀ r ∈ s.toList, r.isEmpty = false) →
      (∀ x, cover contains l x + cover contains s.toList x ≤ 1) →
      (∀ r ∈ (l.foldl BTreeSet.insert s).toList, r.isEmpty = false) ∧
      ∀ x, cover contains (l.foldl BTreeSet.insert s).toList x =
        cover contains l x + cover contains s.toList x := by
  induction l with
  | nil =>
    intro s _ hs _
    exact ⟨hs, by simp⟩
  | cons p l ih =>
    intro s hl hs ho
    have hp := hl p List.mem_cons_self
    have hc := cover_insert hs hp fun r hr =>
      apart_of_cover_add_le_one ho List.mem_cons_self hr
    have hne : ∀ r ∈ (s.insert p).toList, r.isEmpty = false := by
      intro r hr
      rcases mem_of_mem_insert hr with rfl | hr
      · exact hp
      · exact hs r hr
    obtain ⟨hne', hc'⟩ := ih (s.insert p) (List.forall_mem_cons.mp hl).2 hne
      (by
        intro x
        have hx := ho x
        rw [hc]
        simp only [cover_cons, cover_nil] at hx ⊢
        omega)
    refine ⟨hne', fun x => ?_⟩
    rw [List.foldl_cons, hc', hc]
    simp only [cover_cons, cover_nil]
    omega

lemma cover_absorb (slot : AddressRange) {merged : AddressRange} (hr : r ∈ s.toList)
    (hm : ∀ x, cover contains [merged] x = cover contains [slot] x + cover contains [r] x)
    (x : Nat) :
    cover contains [merged] x +
        cover contains (s.remove r).toList x =
      cover contains [slot] x + cover contains s.toList x := by
  rw [hm, cover_remove hr]
  omega

section Join
variable {a b : AddressRange} (ha : a.isEmpty = false) (hb : b.isEmpty = false)
  (h : a.stop + 1 = b.start)
include ha hb h

lemma isEmpty_join : (⟨a.start, b.stop⟩ : AddressRange).isEmpty = false := by
  rw [isEmpty_eq_false_iff] at ha hb ⊢
  dsimp only
  omega

/-- Two ranges that meet cover what one from start to end does. -/
lemma cover_join (x : Nat) : cover contains [(⟨a.start, b.stop⟩ : AddressRange)] x =
    cover contains [a] x + cover contains [b] x := by
  rw [isEmpty_eq_false_iff] at ha hb
  simp only [cover_cons, cover_nil, contains_iff]
  split_ifs <;> omega

end Join

section InsertAt
variable {s : BTreeSet AddressRange} {slot : AddressRange}
section
variable (hs : ∀ r ∈ s.toList, r.isEmpty = false) (hslot : slot.isEmpty = false)
include hs hslot

lemma smallerMerge_spec (hst : slot.stop < u64Size)
    (hd : ∀ r ∈ s.toList, AddressRange.Disjoint slot r) :
    ∃ smaller, smallerMerge s slot = .ok smaller ∧
      ∀ r ∈ smaller, r ∈ s.toList ∧ r.stop + 1 = slot.start := by
  simp only [smallerMerge]
  cases hmax : s.maxLe slot with
  | none => exact ⟨none, rfl, by simp⟩
  | some smaller =>
    obtain ⟨hm, hle⟩ := mem_of_maxLe hmax
    have hstr := start_le_of_compare_le (hs _ hm) hslot hle
    have hsd := lt_or_lt_of_disjoint hslot (hs _ hm) (hd _ hm)
    rw [isEmpty_eq_false_iff] at hslot
    have hlt : smaller.stop < slot.start := by omega
    have ha : checkedAdd smaller.stop 1 = some (smaller.stop + 1) := by
      rw [checkedAdd, if_pos (by omega)]
    simp only [ha]
    rcases Nat.lt_or_eq_of_le (Nat.succ_le_of_lt hlt) with h | h
    · have hc : compare (smaller.stop + 1) slot.start = .lt := Nat.compare_eq_lt.mpr h
      exact ⟨none, by rw [hc], by simp⟩
    · have hc : compare (smaller.stop + 1) slot.start = .eq := Nat.compare_eq_eq.mpr h
      refine ⟨some smaller, by rw [hc], ?_⟩
      intro r hr
      cases hr
      exact ⟨hm, h⟩

lemma largerMerge_spec (hd : ∀ r ∈ s.toList, AddressRange.Disjoint slot r) :
    ∃ larger, largerMerge s slot = .ok larger ∧
      ∀ r ∈ larger, r ∈ s.toList ∧ slot.stop + 1 = r.start := by
  simp only [largerMerge]
  cases hmin : s.minGt slot with
  | none => exact ⟨none, rfl, by simp⟩
  | some larger =>
    obtain ⟨hm, hgt⟩ := mem_of_minGt hmin
    have hst := start_le_of_compare_gt (hs _ hm) hslot hgt
    have hsd := lt_or_lt_of_disjoint hslot (hs _ hm) (hd _ hm)
    have hne := hs _ hm
    rw [isEmpty_eq_false_iff] at hne
    have hlt : slot.stop < larger.start := by omega
    have hsub : checkedSub larger.start 1 = some (larger.start - 1) := by
      rw [checkedSub, if_pos (by omega)]
    simp only [hsub]
    rcases Nat.lt_or_eq_of_le (Nat.le_sub_one_of_lt hlt) with h | h
    · have hc : compare slot.stop (larger.start - 1) = .lt := Nat.compare_eq_lt.mpr h
      exact ⟨none, by rw [hc], by simp⟩
    · have hc : compare slot.stop (larger.start - 1) = .eq := Nat.compare_eq_eq.mpr h
      refine ⟨some larger, by rw [hc], ?_⟩
      intro r hr
      cases hr
      exact ⟨hm, by omega⟩

section
variable {smaller larger : Option AddressRange}
  (hsm : ∀ r ∈ smaller, r ∈ s.toList ∧ r.stop + 1 = slot.start)
  (hlg : ∀ r ∈ larger, r ∈ s.toList ∧ slot.stop + 1 = r.start)
include hsm hlg

/-- The set and the slot after the two merges, with what they cover together. -/
lemma coalesce_eq : ∃ (s' : BTreeSet AddressRange) (slot' : AddressRange),
    coalesce s slot smaller larger = s'.insert slot' ∧ slot'.isEmpty = false ∧
    (∀ r ∈ s'.toList, r ∈ s.toList) ∧
    ∀ x, cover contains [slot'] x + cover contains s'.toList x =
      cover contains [slot] x + cover contains s.toList x := by
  rcases smaller with _ | sm <;> rcases larger with _ | lg
  · exact ⟨s, slot, rfl, hslot, fun _ hr => hr, fun _ => rfl⟩
  · obtain ⟨hm, ha⟩ := hlg lg rfl
    exact ⟨s.remove lg, _, rfl, isEmpty_join hslot (hs lg hm) ha,
      fun r hr => (mem_remove.mp hr).1, cover_absorb slot hm (cover_join hslot (hs lg hm) ha)⟩
  · obtain ⟨hm, ha⟩ := hsm sm rfl
    refine ⟨s.remove sm, _, rfl, isEmpty_join (hs sm hm) hslot ha,
      fun r hr => (mem_remove.mp hr).1, cover_absorb slot hm fun x => ?_⟩
    rw [cover_join (hs sm hm) hslot ha, Nat.add_comm]
  · obtain ⟨hm, ha⟩ := hsm sm rfl
    obtain ⟨hm', ha'⟩ := hlg lg rfl
    have hj := isEmpty_join (hs sm hm) hslot ha
    have hl : lg ∈ (s.remove sm).toList := by
      refine mem_remove.mpr ⟨hm', fun he => ?_⟩
      have heq := eq_of_compare_eq (hs lg hm') (hs sm hm) he
      have hne := (isEmpty_eq_false_iff sm).mp (hs sm hm)
      rw [isEmpty_eq_false_iff] at hslot
      subst heq
      omega
    refine ⟨(s.remove sm).remove lg, _, rfl, isEmpty_join hj (hs lg hm') ha',
      fun r hr => (mem_remove.mp (mem_remove.mp hr).1).1, fun x => ?_⟩
    rw [cover_absorb _ hl (cover_join hj (hs lg hm') ha'), cover_absorb slot hm fun y => ?_]
    rw [cover_join (hs sm hm) hslot ha, Nat.add_comm]

lemma coalesce_spec (ho : ∀ x, cover contains [slot] x + cover contains s.toList x ≤ 1) :
    (∀ r ∈ (coalesce s slot smaller larger).toList, r.isEmpty = false) ∧
    ∀ x, cover contains (coalesce s slot smaller larger).toList x =
      cover contains [slot] x + cover contains s.toList x := by
  obtain ⟨s', slot', heq, hne, hsub, hc⟩ := coalesce_eq hs hslot hsm hlg
  have hs' : ∀ r ∈ s'.toList, r.isEmpty = false := fun r hr => hs r (hsub r hr)
  refine ⟨fun r hr => ?_, fun x => ?_⟩
  · rw [heq] at hr
    rcases mem_of_mem_insert hr with rfl | hr
    · exact hne
    · exact hs' r hr
  · rw [heq, cover_insert hs' hne (fun r hr => ?_), hc]
    refine apart_of_cover_add_le_one (l := [slot']) (fun y => ?_) List.mem_cons_self hr
    rw [hc]
    exact ho y

end

end

end InsertAt

lemma insertAt_spec (a : AddressAllocator) (hs : ∀ r ∈ a.regions.toList, r.isEmpty = false)
    (hslot : slot.isEmpty = false) (hst : slot.stop < u64Size)
    (ho : ∀ x, cover contains [slot] x + cover contains a.regions.toList x ≤ 1) :
    ∃ regions, a.insertAt slot = (.ok (), { a with regions := regions }) ∧
      (∀ r ∈ regions.toList, r.isEmpty = false) ∧
      ∀ x, cover contains regions.toList x =
        cover contains [slot] x + cover contains a.regions.toList x := by
  have hd : ∀ r ∈ a.regions.toList, AddressRange.Disjoint slot r := fun r hr =>
    apart_of_cover_add_le_one ho List.mem_cons_self hr
  obtain ⟨smaller, hsm, hsm'⟩ := smallerMerge_spec hs hslot hst hd
  obtain ⟨larger, hlg, hlg'⟩ := largerMerge_spec hs hslot hd
  refine ⟨_, ?_, coalesce_spec hs hslot hsm' hlg' ho⟩
  simp [insertAt, hslot, hsm, hlg, Bool.false_eq_true]

lemma ranges_erase {tag : String} (h : a.allocs.lookup alloc = some (range, tag)) :
    a.ranges.Perm (range :: { a with allocs := a.allocs.erase alloc }.ranges) :=
  (AssocList.entries_perm_of_lookup h).map _

lemma release_sound (h : a.Conserved) (alloc : Alloc) : a.Sound (a.release alloc) := by
  simp only [release]
  split
  · trivial
  rename_i range tag hl
  have hp := ranges_erase hl
  have hc := cover_perm contains hp
  have hm : range ∈ a.ranges := hp.mem_iff.mpr List.mem_cons_self
  have hrng := h.ranges range hm
  have ho : ∀ x, cover contains [range] x +
      cover contains a.regions.toList x ≤ 1 := by
    intro x
    have hx := h.cover_le_one x
    rw [hc] at hx
    simp only [cover_cons, cover_nil] at hx ⊢
    omega
  obtain ⟨regions, heq, hne, hrg⟩ := insertAt_spec
    { a with allocs := a.allocs.erase alloc } h.regions hrng (h.stop_lt hm) ho
  rw [heq]
  refine ⟨⟨h.bounded, h.pools, hne, fun r hr => h.ranges r ?_, fun x => ?_⟩, rfl⟩
  · exact hp.mem_iff.mpr (List.mem_cons_of_mem _ hr)
  · have hlaw := h.cover x
    rw [hc] at hlaw
    have hx := hrg x
    simp only [cover_cons, cover_nil, ranges] at hlaw hx ⊢
    omega

/-! ## Histories -/

section
variable {α : Type} {res : Outcome Error α × AddressAllocator}

lemma outcome_sound (h : a.Sound res) : a.Sound (outcome res) := by
  obtain ⟨_ | _ | _, _⟩ := res <;> exact h

lemma Carves.outcome (h : a.Carves res) : a.Carves (outcome res) := by
  cases h with
  | err e => exact .err e
  | panic => exact .panic
  | carve _ tag hslot hin hn => exact .carve () tag hslot hin hn

lemma Carves.sound (hc : a.Carves res) (h : a.Conserved) : a.Sound res := by
  cases hc with
  | err => exact rfl
  | panic => trivial
  | carve _ tag hslot hin hn => exact internalAllocateFromSlot_conserved h tag hslot hin hn

end

lemma call_cases (a : AddressAllocator) (order : HashOrder) (op : Op) :
    a.Carves (a.call order op) ∨ ∃ alloc, a.call order op = outcome (a.release alloc) := by
  cases op with
  | allocate size alloc tag =>
    exact .inl (allocatePreferred_carves fun alignment =>
      a.internalAllocateWithAlign_carves size alloc tag alignment false).outcome
  | allocateWithAlign size alloc tag alignment =>
    exact .inl (a.internalAllocateWithAlign_carves size alloc tag alignment false).outcome
  | reverseAllocate size alloc tag =>
    exact .inl (allocatePreferred_carves fun alignment =>
      a.internalAllocateWithAlign_carves size alloc tag alignment true).outcome
  | reverseAllocateWithAlign size alloc tag alignment =>
    exact .inl (a.internalAllocateWithAlign_carves size alloc tag alignment true).outcome
  | allocateAt range alloc tag => exact .inl (a.allocateAt_carves order range alloc tag).1.outcome
  | release alloc => exact .inr ⟨alloc, rfl⟩
  | releaseContaining value =>
    simp only [call, releaseContaining]
    split
    · exact .inr ⟨_, rfl⟩
    · exact .inl (.err _)

lemma call_sound (h : a.Conserved) (order : HashOrder) (op : Op) : a.Sound (a.call order op) := by
  obtain hc | ⟨alloc, hr⟩ := a.call_cases order op
  · exact hc.sound h
  · rw [hr]
    exact outcome_sound (release_sound h alloc)

lemma step_conserved {a' : AddressAllocator} {op : HashOrder × Op} (h : a.Conserved)
    (hst : a.step op = some a') : a'.Conserved ∧ a'.pools = a.pools := by
  have hsn := call_sound h op.1 op.2
  rcases hc : a.call op.1 op.2 with ⟨_ | _ | _, b⟩ <;>
    simp only [step, hc, Option.some.injEq, reduceCtorEq] at hst <;> subst hst <;>
    rw [hc] at hsn
  · exact hsn
  · have hb : b = a := hsn
    exact ⟨hb ▸ h, by rw [hb]⟩

lemma newFromList_conserved {minAlign preferredAlign : Option Nat}
    (hp : pools.Pairwise AddressRange.Disjoint) (hb : ∀ p ∈ pools, p.stop < u64Size)
    (h : newFromList pools minAlign preferredAlign = .ok a) :
    a.Conserved ∧ a.pools = pools.filter (fun p => !p.isEmpty) := by
  simp only [newFromList] at h
  split_ifs at h
  cases h
  have ho := cover_le_one (hp.filter (fun p => !p.isEmpty))
  obtain ⟨hne, hc⟩ := cover_foldl_insert (pools.filter (fun p => !p.isEmpty)) BTreeSet.empty
    (by simp) (by simp [BTreeSet.empty]) (by simpa [BTreeSet.empty] using ho)
  refine ⟨⟨fun p hm => hb p (List.mem_filter.mp hm).1, hp.filter _, hne, ?_, fun x => ?_⟩, rfl⟩
  · simp [ranges]
  · simpa [ranges, BTreeSet.empty] using hc x

/-- The free regions and the allocated ranges are a partition of the pools. -/
structure Partition (pools : List AddressRange) (a : AddressAllocator) : Prop where
  regions_nonempty : ∀ r ∈ a.regions.toList, r.isEmpty = false
  regions_disjoint : a.regions.toList.Pairwise AddressRange.Disjoint
  ranges_nonempty : ∀ r ∈ a.ranges, r.isEmpty = false
  ranges_disjoint : a.ranges.Pairwise AddressRange.Disjoint
  no_overlap : ∀ r ∈ a.ranges, ∀ s ∈ a.regions.toList, r.overlaps s = false
  union : ∀ x, (∃ r ∈ a.regions.toList ++ a.ranges, r.contains x = true) ↔
    ∃ p ∈ pools, p.contains x = true

lemma Conserved.partition (h : a.Conserved) (hp : a.pools = pools.filter (fun p => !p.isEmpty)) :
    Partition pools a where
  regions_nonempty:= h.regions
  regions_disjoint := pairwise_of_cover_le_one fun x => by
    have := h.cover_le_one x
    omega
  ranges_nonempty := h.ranges
  ranges_disjoint := pairwise_of_cover_le_one fun x => by
    have := h.cover_le_one x
    omega
  no_overlap r hr s hs := by
    have hd := apart_of_cover_add_le_one h.cover_le_one hs hr
    rw [Bool.eq_false_iff, ne_eq, overlaps_iff]
    rintro ⟨x, hrx, hsx⟩
    exact hd x ⟨hsx, hrx⟩
  union x := by
    have hl := h.cover x
    rw [hp, cover_filter _ _ _ (fun p _ hemp => contains_of_isEmpty
      (by simpa using hemp)), ← cover_append] at hl
    rw [← cover_pos_iff, hl, cover_pos_iff]

/-- **Histories of the allocator.** Whatever operations are performed on an
allocator of disjoint pools, the free regions and the allocated ranges are a
partition of the pools, and an operation that returns an error has changed
neither. -/
theorem history_partition (pools : List AddressRange) (minAlign preferredAlign : Option Nat)
    (ops : List (HashOrder × Op)) {a₀ a : AddressAllocator}
    (hp : pools.Pairwise AddressRange.Disjoint) (hb : ∀ p ∈ pools, p.stop < u64Size)
    (hnew : newFromList pools minAlign preferredAlign = .ok a₀) (hrun : run step ops a₀ = some a) :
    Partition pools a ∧ ∀ order op e a', a.call order op = (.err e, a') →
      a'.allocs = a.allocs ∧ a'.regions = a.regions := by
  obtain ⟨h₀, hp₀⟩ := newFromList_conserved hp hb hnew
  obtain ⟨h, hpl⟩ := run_invariant (fun b => b.Conserved ∧ b.pools = a₀.pools)
    (fun b op b' hi hst => by
      obtain ⟨hc, hpl⟩ := step_conserved hi.1 hst
      exact ⟨hc, hpl.trans hi.2⟩) ops a₀ a ⟨h₀, rfl⟩ hrun
  refine ⟨h.partition (hpl.trans hp₀), fun order op e a' hcl => ?_⟩
  have hsn := call_sound h order op
  rw [hcl] at hsn
  have ha : a' = a := hsn
  rw [ha]
  exact ⟨rfl, rfl⟩

/-- A hash map that is iterated in the order of its entries. -/
def entryOrder : HashOrder := ⟨id, List.Perm.refl⟩

/-- Two adjacent pools up to the last address: two ranges are taken, the first is put back. -/
def adjacentPoolsRun : List (HashOrder × Op) :=
  [.allocate 0x10 (.anon 1) "first", .allocateAt ⟨0x80, 0x8f⟩ (.anon 2) "second",
    .release (.anon 1)].map (Prod.mk entryOrder)

theorem history_partition_adjacent_pools : ∃ a₀ a,
    newFromList [⟨0, 0xff⟩, ⟨0x100, 0xffffffffffffffff⟩] none none = .ok a₀ ∧
    run step adjacentPoolsRun a₀ = some a ∧
    Partition [⟨0, 0xff⟩, ⟨0x100, 0xffffffffffffffff⟩] a ∧
    ∀ order op e a', a.call order op = (.err e, a') →
      a'.allocs = a.allocs ∧ a'.regions = a.regions := by
  refine ⟨_, _, rfl, rfl, history_partition _ none none adjacentPoolsRun ?_ (by decide) rfl rfl⟩
  refine List.pairwise_pair.mpr fun x hx => ?_
  simp only [contains_iff] at hx
  omega

end AddressAllocator

end GunyahVmm.Resources
