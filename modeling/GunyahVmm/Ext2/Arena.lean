import GunyahVmm.Lib.Run
import GunyahVmm.Lib.U64
import Mathlib

/-! The arena in which an ext2 image is built. Ranges are reserved once, and stored as one if they
touch. -/

namespace GunyahVmm.Ext2
open Run Outcome

inductive Error where
  | rangeOverlaps
  | memEndOverflow
  | outOfMemoryRegion
  deriving DecidableEq

@[ext]
structure Region where
  start : Nat
  len : Nat
  deriving DecidableEq

namespace Region

@[grind =]
def stop (r : Region) : Nat := r.start + r.len

def bytes (r : Region) : Set Nat := Set.Ico r.start r.stop

instance : LinearOrder Region :=
  LinearOrder.lift' (fun r => toLex (r.start, r.len)) fun r t h => by simpa [Region.ext_iff] using h

end Region

abbrev RegionManager := Finset Region

namespace RegionManager
section
variable (rs : RegionManager) (new : Region)

def lastBefore (x : Region) : Option Region := (rs.filter (· < x)).max

def firstFrom (x : Region) : Option Region := (rs.filter (x ≤ ·)).min

/-- The new region, merged with the one that ends at its start; none if they overlap. -/
def mergeLeft : Option (Region × RegionManager) :=
  match lastBefore rs ⟨new.stop, 0⟩ with
  | none => some (new, rs)
  | some r =>
    if new.start < r.stop then none
    else if new.start = r.stop then some (⟨r.start, r.len + new.len⟩, rs.erase r)
    else some (new, rs)

def mergeRight : RegionManager :=
  match firstFrom rs ⟨new.stop, 0⟩ with
  | none => insert new rs
  | some r =>
    if r.start = new.stop then insert ⟨new.start, new.len + r.len⟩ (rs.erase r) else insert new rs

/-- The sums are ends of ranges in the memory, so that none of them overflows. -/
def allocate (start len : Nat) : Outcome Error Unit × RegionManager :=
  match mergeLeft rs ⟨start, len⟩ with
  | none => (err .rangeOverlaps, rs)
  | some (new, rest) => (ok (), mergeRight rest new)

end

/-! ## Stored regions -/

variable {rs : RegionManager} {n t m r : Region} {x : Nat}

/-- No two regions overlap or touch, and none is empty. -/
def Apart (rs : RegionManager) : Prop :=
  ∀ r ∈ rs, 0 < r.len ∧ ∀ t ∈ rs, r = t ∨ r.stop < t.start ∨ t.stop < r.start

def covered (rs : RegionManager) : Set Nat := {x | ∃ r ∈ rs, x ∈ r.bytes}

lemma covered_insert : covered (insert n rs) = covered rs ∪ n.bytes := by
  ext x
  simp [covered, or_comm]

/-- A region that can be added: the others may touch it. -/
structure Fits (rs : RegionManager) (n : Region) : Prop where
  apart : Apart rs
  pos : 0 < n.len
  clear : ∀ r ∈ rs, r.stop ≤ n.start ∨ n.stop ≤ r.start

lemma lt_iff : r < ⟨x, 0⟩ ↔ r.start < x := Prod.Lex.toLex_lt_toLex.trans (by simp)

lemma start_le (h : r ≤ t) : r.start ≤ t.start := by
  have := Prod.Lex.toLex_le_toLex.mp h
  dsimp only at this
  omega

lemma of_lastBefore (h : lastBefore rs ⟨x, 0⟩ = some t) : t ∈ rs ∧ t.start < x ∧
    ∀ r ∈ rs, r.start < x → r.start ≤ t.start := by
  obtain ⟨ht, hx⟩ := Finset.mem_filter.mp (Finset.mem_of_max h)
  refine ⟨ht, lt_iff.mp hx, fun r hr hx => start_le ?_⟩
  exact Finset.le_max_of_eq (Finset.mem_filter.mpr ⟨hr, lt_iff.mpr hx⟩) h

lemma of_firstFrom (h : firstFrom rs ⟨x, 0⟩ = some t) : t ∈ rs ∧ x ≤ t.start ∧
    ∀ r ∈ rs, x ≤ r.start → t.start ≤ r.start := by
  obtain ⟨ht, hx⟩ := Finset.mem_filter.mp (Finset.mem_of_min h)
  refine ⟨ht, start_le hx, fun r hr hx => start_le ?_⟩
  refine Finset.min_le_of_eq (Finset.mem_filter.mpr ⟨hr, not_lt.mp fun hlt => ?_⟩) h
  exact absurd (lt_iff.mp hlt) (not_lt.mpr hx)

/-- Merging with a region that touches: what is covered together stays the same. -/
lemma Fits.merge (h : Fits rs n) (ht : t ∈ rs)
    (hm : t.stop = n.start ∧ m = ⟨t.start, t.len + n.len⟩ ∨
      t.start = n.stop ∧ m = ⟨n.start, n.len + t.len⟩) :
    Fits (rs.erase t) m ∧ covered (rs.erase t) ∪ m.bytes = covered rs ∪ n.bytes := by
  have hp := h.pos
  refine ⟨⟨fun r hr => ?_, by grind, fun r hr => ?_⟩, ?_⟩
  · obtain ⟨hp, ha⟩ := h.apart r (Finset.mem_of_mem_erase hr)
    exact ⟨hp, fun s hs => ha s (Finset.mem_of_mem_erase hs)⟩
  · obtain ⟨hne, hr⟩ := Finset.mem_erase.mp hr
    have ha := h.apart r hr
    have hc := h.clear r hr
    grind
  · have hu : m.bytes = n.bytes ∪ t.bytes := by
      ext x
      simp only [Region.bytes, Set.mem_union, Set.mem_Ico]
      grind
    rw [hu, Set.union_comm n.bytes, ← Set.union_assoc, ← covered_insert, Finset.insert_erase ht]

lemma Fits.insert (h : Fits rs n) (hn : ∀ r ∈ rs, r.stop ≠ n.start ∧ r.start ≠ n.stop) :
    Apart (insert n rs) := by
  obtain ⟨ha, hp, hc⟩ := h
  intro r hr
  grind [Apart]

/-- The last region that starts below the end is the only one that can reach the new one. -/
lemma mergeLeft_spec (ha : Apart rs) (hp : 0 < n.len) :
    match mergeLeft rs n with
    | none => ¬Fits rs n
    | some (m, rest) => Fits rs n ∧ Fits rest m ∧ (∀ r ∈ rest, r.stop ≠ m.start) ∧
        covered rest ∪ m.bytes = covered rs ∪ n.bytes := by
  rw [mergeLeft]
  cases hb : lastBefore rs ⟨n.stop, 0⟩ with
  | none =>
    have hr (r : Region) (hr : r ∈ rs) : n.stop ≤ r.start :=
      not_lt.mp fun hlt =>
        Finset.filter_eq_empty_iff.mp (Finset.max_eq_bot.mp hb) hr (lt_iff.mpr hlt)
    have hf : Fits rs n := ⟨ha, hp, fun r hm => .inr (hr r hm)⟩
    exact ⟨hf, hf, fun r hm => by grind, rfl⟩
  | some t =>
    obtain ⟨ht, hlt, hmax⟩ := of_lastBefore hb
    -- the others are below it or start behind the new one
    have ho (r : Region) (hr : r ∈ rs) : r = t ∨ r.stop < t.start ∨ n.stop ≤ r.start := by
      have := ha r hr
      grind
    have hf (h : ¬n.start < t.stop) : Fits rs n := ⟨ha, hp, by grind⟩
    dsimp only
    split_ifs with hov heq
    · intro h
      have := h.clear t ht
      grind
    · obtain ⟨hf', hc⟩ := (hf hov).merge ht (.inl ⟨heq.symm, rfl⟩)
      refine ⟨hf hov, hf', fun r hr => ?_, hc⟩
      obtain ⟨hne, hr⟩ := Finset.mem_erase.mp hr
      have := ha r hr
      grind
    · exact ⟨hf hov, hf hov, fun r hr => by have := ha r hr; grind, rfl⟩

lemma Fits.mergeRight (h : Fits rs n) (hn : ∀ r ∈ rs, r.stop ≠ n.start) :
    Apart (mergeRight rs n) ∧ covered (RegionManager.mergeRight rs n) = covered rs ∪ n.bytes := by
  rw [RegionManager.mergeRight]
  cases hb : firstFrom rs ⟨n.stop, 0⟩ with
  | none =>
    refine ⟨h.insert fun r hr => ⟨hn r hr, fun he => ?_⟩, covered_insert⟩
    have := Finset.filter_eq_empty_iff.mp (Finset.min_eq_top.mp hb) hr
    rw [not_le, lt_iff] at this
    omega
  | some t =>
    obtain ⟨ht, hle, hmin⟩ := of_firstFrom hb
    dsimp only
    split_ifs with he
    · obtain ⟨hf, hc⟩ := h.merge ht (.inr ⟨he, rfl⟩)
      refine ⟨hf.insert fun r hr => ?_, covered_insert.trans hc⟩
      obtain ⟨hne, hr⟩ := Finset.mem_erase.mp hr
      have := h.apart r hr
      grind
    · exact ⟨h.insert fun r hr => ⟨hn r hr, by grind⟩, covered_insert⟩

lemma fits_iff (ha : Apart rs) (hp : 0 < n.len) : Fits rs n ↔ Disjoint (covered rs) n.bytes := by
  rw [Set.disjoint_left]
  constructor
  · rintro h x ⟨r, hr, hx⟩ hn
    have := h.clear r hr
    simp only [Region.bytes, Set.mem_Ico] at hx hn
    omega
  · refine fun h => ⟨ha, hp, fun r hr => ?_⟩
    by_contra hc
    have := (ha r hr).1
    refine h (a := max r.start n.start) ⟨r, hr, ?_⟩ ?_ <;>
      simp only [Region.bytes, Set.mem_Ico] <;> grind

end RegionManager

/-! ## Arena -/

open RegionManager

structure Arena where
  size : Nat
  size_lt : size < u64Size
  blockSize : Nat
  regions : RegionManager

namespace Arena
section
variable (a : Arena)

def reserve (memOffset len : Nat) : Outcome Error Unit × Arena :=
  match checkedAdd memOffset len with
  | none => (err .memEndOverflow, a)
  | some memEnd =>
    if a.size < memEnd then (err .outOfMemoryRegion, a)
    else
      let (res, regions) := allocate a.regions memOffset len
      (res, { a with regions })

/-- An offset of more than 64 bits aborts. -/
def allocateSlice (block : BitVec 32) (blockOffset len : Nat) : Outcome Error Region × Arena :=
  let offset := block.toNat * a.blockSize + blockOffset
  if u64Size ≤ offset then (.panic, a)
  else
    let (res, a') := a.reserve offset len
    (res >>= fun _ => ok ⟨offset, len⟩, a')

end

/-- The arena with the ranges that were accepted. -/
def step (s : Arena × List Region) (n : { n : Region // 0 < n.len }) : Arena × List Region :=
  let (res, a) := s.1.reserve n.1.start n.1.len
  (a, if res = .ok () then n :: s.2 else s.2)

variable {a : Arena} {n : Region}

/-- A reservation is accepted or changes nothing. -/
lemma reserve_cases (ha : Apart a.regions) (hp : 0 < n.len) :
    (n.stop ≤ a.size ∧ Fits a.regions n) ∧
      (∃ regions, a.reserve n.start n.len = (ok (), { a with regions }) ∧ Apart regions ∧
        covered regions = covered a.regions ∪ n.bytes) ∨
    ¬(n.stop ≤ a.size ∧ Fits a.regions n) ∧ ∃ e, a.reserve n.start n.len = (err e, a) := by
  have hs := a.size_lt
  rw [reserve, checkedAdd, Region.stop]
  split_ifs with hlt
  · dsimp only
    split_ifs with hsz
    · exact .inr ⟨by omega, _, rfl⟩
    · have hl := mergeLeft_spec ha hp
      rw [allocate]
      cases hm : mergeLeft a.regions n with
      | none =>
        rw [hm] at hl
        exact .inr ⟨fun h => hl h.2, _, rfl⟩
      | some new =>
        rw [hm] at hl
        obtain ⟨hf, hn, hne, hc⟩ := hl
        obtain ⟨ha', hc'⟩ := hn.mergeRight hne
        exact .inl ⟨⟨by omega, hf⟩, _, rfl, ha', hc'.trans hc⟩
  · exact .inr ⟨by omega, _, rfl⟩

/-- The stored regions cover what was accepted, and nothing was accepted twice. -/
structure Sound (s : Arena × List Region) : Prop where
  apart : Apart s.1.regions
  same : covered s.1.regions = covered s.2.toFinset
  granted : s.2.Pairwise fun r t : Region => Disjoint r.bytes t.bytes

lemma disjoint_covered {l : List Region} :
    Disjoint (covered l.toFinset) n.bytes ↔ ∀ r ∈ l, Disjoint r.bytes n.bytes := by
  simp only [Set.disjoint_left, covered, Set.mem_ofPred_eq, List.mem_toFinset]
  grind

lemma Sound.step {s : Arena × List Region} (h : Sound s) (n : { n : Region // 0 < n.len }) :
    Sound (step s n) := by
  rw [Arena.step]
  obtain ⟨⟨-, hf⟩, regions, hr, ha, hc⟩ | ⟨-, e, hr⟩ := reserve_cases h.apart n.2 <;> rw [hr]
  · rw [fits_iff h.apart n.2, h.same, disjoint_covered] at hf
    refine ⟨ha, ?_, List.pairwise_cons.mpr ⟨fun r hr => (hf r hr).symm, h.granted⟩⟩
    change covered regions = covered (n.1 :: s.2).toFinset
    rw [List.toFinset_cons, covered_insert, ← h.same]
    exact hc
  · exact h

/-- **Reservations exclude each other**, after any sequence of them: the regions stored neither
overlap nor touch and cover what was accepted, a reservation is accepted if it is in the memory and
overlaps none before it, and a slice is what its call reserved. -/
theorem reservations_exclusive {a₀ a : Arena} (h₀ : a₀.regions = ∅)
    {ns : List { n : Region // 0 < n.len }} {granted : List Region}
    (h : ns.foldl step (a₀, []) = (a, granted)) :
    Sound (a, granted) ∧
    (∀ n : Region, 0 < n.len →
      ((a.reserve n.start n.len).1 = ok () ↔
        n.stop ≤ a.size ∧ ∀ r ∈ granted, Disjoint r.bytes n.bytes) ∧
      ((a.reserve n.start n.len).1 ≠ ok () → (a.reserve n.start n.len).2 = a)) ∧
    ∀ block blockOffset len slice a', a.allocateSlice block blockOffset len = (ok slice, a') →
      slice.len = len ∧ a.reserve slice.start len = (ok (), a') := by
  have hi : Sound (a₀, []) := by
    constructor <;> simp [h₀, Apart]
  have hs : Sound (a, granted) := by
    rw [← h]
    exact ns.foldlRecOn step hi fun _ hs n _ => hs.step n
  refine ⟨hs, fun n hp => ?_, ?_⟩
  · rw [← disjoint_covered, ← hs.same, ← fits_iff hs.apart hp]
    obtain ⟨hs, regions, hr, -⟩ | ⟨hn, e, hr⟩ := reserve_cases hs.apart hp
    · simp [hr, hs]
    · simp [hr, hn]
  · intro block blockOffset len slice a' hs
    simp only [allocateSlice] at hs
    split_ifs at hs
    · cases hs
    obtain ⟨hv, rfl⟩ := Prod.mk.inj hs
    obtain ⟨⟨⟩, hr, he⟩ := bind_eq_ok.mp hv
    cases he
    exact ⟨rfl, Prod.ext hr rfl⟩

/-- The second range is merged with the first one, and the third one overlaps it. -/
theorem reservations_exclusive_merged : ∃ a,
    [⟨⟨0, 5⟩, by decide⟩, ⟨⟨5, 5⟩, by decide⟩, ⟨⟨8, 5⟩, by decide⟩].foldl step
      (⟨1024, by decide, 256, ∅⟩, []) = (a, [⟨5, 5⟩, ⟨0, 5⟩]) ∧
    a.regions = {⟨0, 10⟩} ∧ covered {⟨0, 10⟩} = covered [⟨5, 5⟩, ⟨0, 5⟩].toFinset :=
  have h : List.foldl step (_, []) _ = (_, _) := rfl
  ⟨_, h, by decide, (reservations_exclusive rfl h).1.same⟩

end Arena

end GunyahVmm.Ext2
