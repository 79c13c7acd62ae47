import GunyahVmm.Dma.DmaPool
import GunyahVmm.Lib.Coverage
import GunyahVmm.Lib.Run

/-! Ownership of the pages: bitmap and live blocks agree, as long as no page starts past the end of
the address space, where a free returns early. -/

namespace GunyahVmm.Dma
open Coverage FirstFit Run DmaPool List

structure Block where
  address : Nat
  pages : Nat
  deriving DecidableEq

namespace Block

def firstPage (base : Nat) (b : Block) : Nat := wrappingSub b.address base / 4096

def hasPage (base : Nat) (b : Block) (p : Nat) : Bool :=
  b.firstPage base ≤ p && p < b.firstPage base + b.pages

lemma firstPage_of_page {base s : Nat} (hb : base < u64Size) (hs : 4096 * s < u64Size)
    (pages : Nat) : firstPage base ⟨wrappingAdd base (4096 * s), pages⟩ = s := by
  rw [firstPage, wrappingSub_wrappingAdd hb hs]
  omega

end Block

namespace DmaPool

/-- Every page of the pool starts inside the address space. -/
def NoWrap (pool : DmaPool) : Prop := pool.base + 4096 * (pool.totalPages - 1) < u64Size

/-! ## The bits after an update -/

variable {s n : Nat}
section
variable (pool : DmaPool)

lemma totalPages_le_bits : pool.totalPages ≤ 8 * pool.bitmap.length := by
  have := pool.bitmap_length
  omega

lemma wrappingAdd_page (h : s + n ≤ pool.totalPages) : wrappingAdd s n = s + n := by
  apply wrappingAdd_of_lt
  have := pool.pages_le
  simp only [u64Size] at this ⊢
  omega

@[simp] lemma base_setPages (s n : Nat) : (pool.setPages s n).base = pool.base := rfl

@[simp] lemma totalPages_setPages (s n : Nat) :
    (pool.setPages s n).totalPages = pool.totalPages :=
  rfl

@[simp] lemma base_clearPages (s n : Nat) : (pool.clearPages s n).base = pool.base := rfl

@[simp] lemma totalPages_clearPages (s n : Nat) :
    (pool.clearPages s n).totalPages = pool.totalPages :=
  rfl

lemma testBit_setPages (h : s + n ≤ pool.totalPages) (p : Nat) :
    (pool.setPages s n).bitmapTestBit p = (decide (s ≤ p ∧ p < s + n) || pool.bitmapTestBit p) := by
  have hl := pool.totalPages_le_bits
  simp only [bitmapTestBit, setPages, withBitmap, pool.wrappingAdd_page h, Nat.add_sub_cancel_left]
  exact BitArray.testBit_setBits (by omega) p

lemma testBit_clearPages (h : s + n ≤ pool.totalPages) (p : Nat) :
    (pool.clearPages s n).bitmapTestBit p =
      (decide (¬ (s ≤ p ∧ p < s + n)) && pool.bitmapTestBit p) := by
  have hl := pool.totalPages_le_bits
  simp only [bitmapTestBit, clearPages, withBitmap, pool.wrappingAdd_page h,
    Nat.add_sub_cancel_left]
  exact BitArray.testBit_clearBits (by omega) p

/-! ## Allocating and freeing -/

lemma page_lt (h : s < pool.totalPages) : 4096 * s < u64Size := by
  have := pool.pages_le
  omega

end

/-- An allocation takes a free run that starts at page `s`, the lowest one. -/
structure Takes (pool : DmaPool) (n s : Nat) : Prop where
  run : FreeRun pool.bitmapTestBit pool.totalPages n s
  lowest : ∀ s' < s, ¬ FreeRun pool.bitmapTestBit pool.totalPages n s'

section
variable {pool : DmaPool} (h : pool.Takes n s)
include h

lemma Takes.lt : s < pool.totalPages := by
  have := h.run.le
  omega

lemma Takes.le : s + n ≤ pool.totalPages := by
  have := h.run.le
  omega

lemma allocatePages_of_takes :
    pool.dmaPoolAllocatePages n = (.ok (wrappingAdd pool.base (4096 * s)), pool.setPages s n) := by
  have hs : efiPagesToSize s = 4096 * s := by
    rw [efiPagesToSize_eq, Nat.mul_comm, Nat.mod_eq_of_lt (pool.page_lt h.lt)]
  simp only [dmaPoolAllocatePages, bitmapFindFreeRun, firstFit_eq_some h.run h.lowest, hs]

end

lemma allocatePages_cases (pool : DmaPool) (n : Nat) :
    (∃ s, pool.Takes n s) ∨ (∀ s, ¬ FreeRun pool.bitmapTestBit pool.totalPages n s) ∧
      pool.dmaPoolAllocatePages n = (.error .outOfResources, pool) := by
  have hf := firstFit_isFirst pool.bitmapTestBit pool.totalPages n
  cases hr : firstFit pool.bitmapTestBit pool.totalPages n with
  | none =>
    rw [hr] at hf
    exact Or.inr ⟨hf, by simp only [dmaPoolAllocatePages, bitmapFindFreeRun, hr]⟩
  | some s =>
    rw [hr] at hf
    exact Or.inl ⟨s, hf.1, hf.2⟩

lemma freePages_of_page {pool : DmaPool} (h : s + n ≤ pool.totalPages) :
    pool.dmaPoolFreePages n (pool.base + 4096 * s) = pool.clearPages s n := by
  have hs : pool.base + 4096 * s - pool.base = 4096 * s := by omega
  have hge : ¬ pool.base + 4096 * s < pool.base := by omega
  have hin : ¬ s + n > pool.totalPages := by omega
  simp only [dmaPoolFreePages, hge, hs, efiSizeToPages_mul, pool.wrappingAdd_page h, hin,
    ↓reduceIte]

lemma freePages_below {pool : DmaPool} {address : Nat} (h : address < pool.base) :
    pool.dmaPoolFreePages n address = pool := by
  rw [dmaPoolFreePages, if_pos h]

lemma freePages_frame (pool : DmaPool) (n address : Nat) :
    (pool.dmaPoolFreePages n address).base = pool.base ∧
    (pool.dmaPoolFreePages n address).totalPages = pool.totalPages := by
  simp only [dmaPoolFreePages]
  split
  · exact ⟨rfl, rfl⟩
  · split <;> exact ⟨rfl, rfl⟩

/-! ## The ownership law -/

/-- The live blocks lie on pages of the pool, and they cover a page exactly when
its bit is set. -/
structure Owned (pool : DmaPool) (live : List Block) : Prop where
  placed : ∀ b ∈ live, ∃ s, b.address = pool.base + 4096 * s ∧ s < pool.totalPages ∧
    s + b.pages ≤ pool.totalPages
  law : ∀ p, cover (Block.hasPage pool.base) live p =
    if p < pool.totalPages ∧ pool.bitmapTestBit p = true then 1 else 0

lemma Owned.cover_le_one {pool : DmaPool} {live : List Block} (h : pool.Owned live) (p : Nat) :
    cover (Block.hasPage pool.base) live p ≤ 1 := by
  rw [h.law]
  split <;> omega

lemma hasPage_of_page (pool : DmaPool) {b : Block} (hs : s < pool.totalPages)
    (hb : b.address = pool.base + 4096 * s) (hlt : b.address < u64Size) (p : Nat) :
    b.hasPage pool.base p = decide (s ≤ p ∧ p < s + b.pages) := by
  have hw : b.address = wrappingAdd pool.base (4096 * s) := by
    rw [wrappingAdd_of_lt (by omega), hb]
  have hf : b.firstPage pool.base = s := by
    obtain ⟨address, pages⟩ := b
    rw [show address = _ from hw]
    exact Block.firstPage_of_page pool.base_lt (pool.page_lt hs) pages
  rw [Block.hasPage, hf, Bool.decide_and]

variable {pool : DmaPool} {live : List Block}

lemma NoWrap.page_lt (h : pool.NoWrap) (hs : s < pool.totalPages) :
    pool.base + 4096 * s < u64Size := by
  unfold NoWrap at h
  omega

lemma NoWrap.wrappingAdd_eq (h : pool.NoWrap) (hs : s < pool.totalPages) :
    wrappingAdd pool.base (4096 * s) = pool.base + 4096 * s :=
  wrappingAdd_of_lt (h.page_lt hs)

lemma Owned.allocate (h : pool.Owned live) (hw : pool.NoWrap) (ht : pool.Takes n s) :
    (pool.setPages s n).Owned (⟨pool.base + 4096 * s, n⟩ :: live) where
  placed := forall_mem_cons.mpr ⟨⟨s, rfl, ht.lt, ht.le⟩, h.placed⟩
  law p := by
    have hn := pool.hasPage_of_page (b := ⟨pool.base + 4096 * s, n⟩) ht.lt rfl
      (hw.page_lt ht.lt) p
    rw [base_setPages, cover_cons, hn, h.law, testBit_setPages pool ht.le, totalPages_setPages]
    by_cases hin : s ≤ p ∧ p < s + n
    · have hf := ht.run.free p hin.1 (by omega)
      have hlt : p < pool.totalPages := by
        have := ht.le
        omega
      simp [hin, hf, hlt]
    · simp [hin]

lemma Owned.free {b : Block} {rest : List Block} (h : pool.Owned live) (hw : pool.NoWrap)
    (hp : live.Perm (b :: rest)) : (pool.dmaPoolFreePages b.pages b.address).Owned rest := by
  have hm : b ∈ live := hp.mem_iff.mpr mem_cons_self
  obtain ⟨s, hs, hlt, hle⟩ := h.placed b hm
  have hpgs := pool.hasPage_of_page hlt hs (by rw [hs]; exact hw.page_lt hlt)
  rw [hs, freePages_of_page hle]
  refine ⟨fun c hc => h.placed c (hp.mem_iff.mpr (mem_cons_of_mem _ hc)), fun p => ?_⟩
  have hl := h.law p
  rw [cover_perm _ hp, cover_cons, hpgs] at hl
  rw [base_clearPages, testBit_clearPages pool hle, totalPages_clearPages]
  by_cases hin : s ≤ p ∧ p < s + b.pages
  · simp only [hin, and_self, decide_true, ↓reduceIte] at hl
    simp only [hin, and_self, not_true_eq_false, decide_false, Bool.false_and,
      Bool.false_eq_true, and_false, ↓reduceIte]
    split at hl <;> omega
  · simpa [hin] using hl

/-! ## Histories -/

end DmaPool

/-- The pool with the blocks that were returned and not freed yet. -/
structure PoolState where
  pool : DmaPool
  live : List Block

namespace PoolState

inductive Op where
  | allocate (numPages : Nat)
  /-- Free the live block at this place of the list, with its own page count. -/
  | free (i : Nat)

/-- One call; `none` is a free of no live block, which no caller makes. -/
def step (s : PoolState) : Op → Option PoolState
  | .allocate numPages =>
    match s.pool.dmaPoolAllocatePages numPages with
    | (.ok address, pool) => some ⟨pool, ⟨address, numPages⟩ :: s.live⟩
    | (.error _, pool) => some ⟨pool, s.live⟩
  | .free i => s.live[i]?.map fun b =>
    ⟨s.pool.dmaPoolFreePages b.pages b.address, s.live.eraseIdx i⟩

/-- The next allocation takes the lowest run of free pages, or there is none and the bitmap stays.
-/
def AllocatesFirstFit (pool : DmaPool) (n : Nat) : Prop :=
  match pool.dmaPoolAllocatePages n with
  | (.ok address, _) => ∃ s, FreeRun pool.bitmapTestBit pool.totalPages n s ∧
      (∀ s' < s, ¬ FreeRun pool.bitmapTestBit pool.totalPages n s') ∧
      address = wrappingAdd pool.base (4096 * s)
  | (.error _, pool') => (∀ s, ¬ FreeRun pool.bitmapTestBit pool.totalPages n s) ∧
      pool'.bitmap = pool.bitmap

/-- Live blocks share no page, a bit is set exactly for their pages, and allocation is first fit. -/
structure Correct (s : PoolState) : Prop where
  disjoint : s.live.Pairwise (Apart (Block.hasPage s.pool.base))
  bit_iff : ∀ p < s.pool.totalPages, s.pool.bitmapTestBit p = true ↔
    ∃ b ∈ s.live, b.hasPage s.pool.base p = true
  first_fit : ∀ n, AllocatesFirstFit s.pool n

variable {s s' : PoolState} {op : Op} {ops : List Op}

lemma allocatesFirstFit (pool : DmaPool) (n : Nat) : AllocatesFirstFit pool n := by
  rcases pool.allocatePages_cases n with ⟨s, ht⟩ | ⟨hn, heq⟩
  · simp only [AllocatesFirstFit, allocatePages_of_takes ht]
    exact ⟨s, ht.run, ht.lowest, rfl⟩
  · simp only [AllocatesFirstFit, heq]
    exact ⟨hn, trivial⟩

lemma correct_of_owned (h : s.pool.Owned s.live) : s.Correct where
  disjoint:= pairwise_of_cover_le_one h.cover_le_one
  bit_iff p hp := by
    rw [← cover_pos_iff, h.law]
    cases s.pool.bitmapTestBit p <;> simp [hp]
  first_fit := allocatesFirstFit s.pool

lemma step_cases (h : s.step op = some s') :
    (∃ n p, op = .allocate n ∧ s.pool.Takes n p ∧
      s' = ⟨s.pool.setPages p n, ⟨wrappingAdd s.pool.base (4096 * p), n⟩ :: s.live⟩) ∨
    s' = s ∨
    ∃ i b, op = .free i ∧ s.live.Perm (b :: s.live.eraseIdx i) ∧
      s' = ⟨s.pool.dmaPoolFreePages b.pages b.address, s.live.eraseIdx i⟩ := by
  cases op with
  | allocate n =>
    rcases s.pool.allocatePages_cases n with ⟨p, ht⟩ | ⟨_, heq⟩
    · simp only [step, allocatePages_of_takes ht, Option.some.injEq] at h
      exact Or.inl ⟨n, p, rfl, ht, h.symm⟩
    · simp only [step, heq, Option.some.injEq] at h
      exact Or.inr (Or.inl h.symm)
  | free i =>
    simp only [step, Option.map_eq_some_iff] at h
    obtain ⟨b, hb, h⟩ := h
    obtain ⟨hi, rfl⟩ := List.getElem?_eq_some_iff.mp hb
    exact Or.inr (Or.inr ⟨i, _, rfl, (getElem_cons_eraseIdx_perm hi).symm, h.symm⟩)

lemma step_frame (h : s.step op = some s') :
    s'.pool.base = s.pool.base ∧ s'.pool.totalPages = s.pool.totalPages := by
  rcases step_cases h with ⟨n, p, _, _, rfl⟩ | rfl | ⟨i, b, _, _, rfl⟩
  · exact ⟨rfl, rfl⟩
  · exact ⟨rfl, rfl⟩
  · exact s.pool.freePages_frame b.pages b.address

lemma run_frame (h : run step ops s = some s') :
    s'.pool.base = s.pool.base ∧ s'.pool.totalPages = s.pool.totalPages := by
  refine run_invariant
    (fun t => t.pool.base = s.pool.base ∧ t.pool.totalPages = s.pool.totalPages) ?_ ops s s'
    ⟨rfl, rfl⟩ h
  intro t op t' ht hs
  obtain ⟨hb, hp⟩ := step_frame hs
  exact ⟨hb.trans ht.1, hp.trans ht.2⟩

lemma step_owned (hs : s.pool.Owned s.live) (hw : s.pool.NoWrap) (h : s.step op = some s') :
    s'.pool.Owned s'.live := by
  rcases step_cases h with ⟨n, p, _, ht, rfl⟩ | rfl | ⟨i, b, _, hp, rfl⟩
  · rw [hw.wrappingAdd_eq ht.lt]
    exact hs.allocate hw ht
  · exact hs
  · exact hs.free hw hp

/-- Every history from an empty pool whose pages do not wrap keeps the ownership law. -/
lemma run_owned {pool : DmaPool} (hemp : pool.Owned []) (hw : pool.NoWrap)
    (h : run step ops ⟨pool, []⟩ = some s) : s.pool.Owned s.live := by
  refine (run_invariant (fun t => t.pool.Owned t.live ∧ t.pool.NoWrap) ?_ ops ⟨pool, []⟩ s
    ⟨hemp, hw⟩ h).1
  intro t op t' ⟨ho, hnw⟩ hs
  obtain ⟨hb, hp⟩ := step_frame hs
  refine ⟨step_owned ho hnw hs, ?_⟩
  rw [DmaPool.NoWrap, hb, hp]
  exact hnw

end PoolState

/-! ## A fresh pool -/

section Fresh
variable {fdt : FdtClient} {allocated : Bool} {pool : DmaPool}
section
variable (h : dmaPoolInit fdt allocated = .ok pool)
include h

/-- What an accepted device tree gives: a pool of at least one page, all clear. -/
lemma dmaPoolInit_spec :
    pool.base = fdt.regBase ∧ pool.totalPages = efiSizeToPages fdt.poolSize ∧
    fdt.poolSize ≠ 0 ∧ ∀ p, pool.bitmapTestBit p = false := by
  simp only [dmaPoolInit] at h
  split_ifs at h with _ _ _ hz
  cases h
  exact ⟨rfl, rfl, fun h0 => hz (Or.inl h0), BitArray.testBit_replicate_zero _⟩

lemma dmaPoolInit_base_pos : 0 < pool.base := by
  simp only [dmaPoolInit] at h
  split_ifs at h with _ _ _ hz
  cases h
  exact Nat.pos_of_ne_zero fun h0 => hz (Or.inr h0)

lemma totalPages_pos : 0 < pool.totalPages := by
  obtain ⟨_, hp, hs, _⟩ := dmaPoolInit_spec h
  have := (size_le_efiSizeToPages fdt.poolSize).1
  omega

end

section
variable (hclear : ∀ p, pool.bitmapTestBit p = false)
include hclear

lemma owned_nil_of_clear : pool.Owned [] := ⟨by simp, fun p => by simp [hclear p]⟩

lemma takes_front {n : Nat} (hn : max n 1 ≤ pool.totalPages) : pool.Takes n 0 :=
  ⟨⟨by omega, fun p _ _ => hclear p⟩, fun s' hs' => absurd hs' (Nat.not_lt_zero s')⟩

lemma takes_last (hp : 0 < pool.totalPages) :
    (pool.setPages 0 (pool.totalPages - 1)).Takes 1 (pool.totalPages - 1) := by
  have hb := fun p => pool.testBit_setPages (s := 0) (n := pool.totalPages - 1) (by omega) p
  refine ⟨⟨?_, fun p h1 h2 => ?_⟩, fun s' hs' hr => ?_⟩
  · rw [totalPages_setPages]
    omega
  · rw [hb, hclear, decide_eq_false (by omega)]
    rfl
  · have hf := hr.free s' (Nat.le_refl _) (by omega)
    rw [hb, decide_eq_true (by omega)] at hf
    simp at hf

end

lemma last_page_below (hw : ¬ pool.NoWrap) :
    wrappingAdd pool.base (4096 * (pool.totalPages - 1)) < pool.base := by
  have hb := pool.base_lt
  have hp := pool.pages_le
  simp only [DmaPool.NoWrap, wrappingAdd, u64Size] at hw hb hp ⊢
  omega

lemma front_fits (hw : ¬ pool.NoWrap) : max (pool.totalPages - 1) 1 ≤ pool.totalPages := by
  have := pool.base_lt
  unfold DmaPool.NoWrap at hw
  omega

/-- The pool after all pages but the last one were taken, and then the last one. -/
def filled (pool : DmaPool) : DmaPool :=
  (pool.setPages 0 (pool.totalPages - 1)).setPages (pool.totalPages - 1) 1

lemma testBit_filled (hp : 0 < pool.totalPages) :
    (filled pool).bitmapTestBit (pool.totalPages - 1) = true := by
  rw [filled, testBit_setPages _ (by rw [totalPages_setPages]; omega)]
  simp

lemma filled_free_last (hw : ¬ pool.NoWrap) :
    (filled pool).dmaPoolFreePages 1 (wrappingAdd pool.base (4096 * (pool.totalPages - 1))) =
      filled pool :=
  freePages_below (last_page_below hw)

lemma run_of_wrap (hclear : ∀ p, pool.bitmapTestBit p = false) (hp : 0 < pool.totalPages)
    (hw : ¬ pool.NoWrap) :
    run PoolState.step [.allocate (pool.totalPages - 1), .allocate 1, .free 0] ⟨pool, []⟩ =
      some ⟨filled pool, [⟨wrappingAdd pool.base (4096 * 0), pool.totalPages - 1⟩]⟩ := by
  have hf := takes_front hclear (front_fits hw)
  have hl := takes_last hclear hp
  simp only [run_cons, PoolState.step, allocatePages_of_takes hf,
    allocatePages_of_takes hl, Option.bind_some, getElem?_cons_zero,
    Option.map_some, base_setPages, run_nil, eraseIdx_cons_zero]
  rw [← filled, filled_free_last hw]

/-- **Histories of the pool.** Every history of allocations and frees is correct
exactly when every page of the pool starts inside the address space. -/
theorem pool_correct_iff (fdt : FdtClient) (allocated : Bool)
    (h : dmaPoolInit fdt allocated = .ok pool) :
    (∀ ops s, run PoolState.step ops ⟨pool, []⟩ = some s → s.Correct) ↔
      fdt.regBase + 4096 * (efiSizeToPages fdt.poolSize - 1) < u64Size := by
  obtain ⟨hbs, hpgs, _, hclear⟩ := dmaPoolInit_spec h
  have hpos := totalPages_pos h
  rw [← hbs, ← hpgs]
  constructor
  · intro ha
    by_contra hw
    have hbit := ((ha _ _ (run_of_wrap hclear hpos hw)).bit_iff (pool.totalPages - 1)
      (by simp only [filled, totalPages_setPages]; omega)).mp (testBit_filled hpos)
    obtain ⟨b, hb, hp⟩ := hbit
    have hb := mem_singleton.mp hb
    rw [hb, Block.hasPage, filled, base_setPages, base_setPages,
      Block.firstPage_of_page pool.base_lt (by simp)] at hp
    simp at hp
  · intro hw ops s hr
    exact PoolState.correct_of_owned (PoolState.run_owned (owned_nil_of_clear hclear) hw hr)

/-- A device tree with this `reg` property, stored big endian. -/
def fdtWithReg (base size : BitVec 64) : FdtClient :=
  ⟨.success, .success, .success, 16, swapBytes64 base, swapBytes64 size⟩

theorem pool_correct_iff_two_pages : ∃ pool,
    dmaPoolInit (fdtWithReg 0x80000000 0x2000) true = .ok pool ∧
    ((∀ ops s, run PoolState.step ops ⟨pool, []⟩ = some s → s.Correct) ↔
      (fdtWithReg 0x80000000 0x2000).regBase +
        4096 * (efiSizeToPages (fdtWithReg 0x80000000 0x2000).poolSize - 1) < u64Size) :=
  ⟨_, rfl, pool_correct_iff _ true rfl⟩

/-- Two pages at the end of the address space. The second one is at address 0,
and it stays allocated after it was freed. -/
theorem wrapped_page_leaks : ∃ pool s,
    dmaPoolInit (fdtWithReg 0xfffffffffffff000 0x2000) true = .ok pool ∧
    run PoolState.step [.allocate 1, .allocate 1, .free 0] ⟨pool, []⟩ = some s ∧
    s.pool.bitmapTestBit 1 = true ∧ s.live = [⟨0xfffffffffffff000, 1⟩] ∧
    ∀ b ∈ s.live, b.hasPage s.pool.base 1 = false :=
  ⟨_, _, rfl, rfl, by decide, by decide, by decide⟩

/-- **Placement.** All bytes of all blocks lie in the memory the device tree
declares exactly when it declares whole pages that end inside the address space. -/
theorem blocks_inside_iff (fdt : FdtClient) (allocated : Bool)
    (h : dmaPoolInit fdt allocated = .ok pool) :
    (∀ ops s n address pool', run PoolState.step ops ⟨pool, []⟩ = some s →
      s.pool.dmaPoolAllocatePages n = (.ok address, pool') →
      ∀ k < 4096 * n, address + k < u64Size ∧ fdt.regBase ≤ address + k ∧
        address + k < fdt.regBase + fdt.poolSize) ↔
      fdt.poolSize % 4096 = 0 ∧ fdt.regBase + fdt.poolSize ≤ u64Size := by
  obtain ⟨hb, hpgs, hs, hclear⟩ := dmaPoolInit_spec h
  have hr := size_le_efiSizeToPages fdt.poolSize
  constructor
  · intro hall
    -- The whole pool as one block.
    have hw := hall [] _ pool.totalPages _ _ rfl
      (allocatePages_of_takes (takes_front hclear (by omega)))
    have ha : wrappingAdd pool.base (4096 * 0) = fdt.regBase := by
      rw [wrappingAdd_of_lt (by have := pool.base_lt; omega), hb]
      rfl
    obtain ⟨hl, _, hend⟩ := hw (4096 * pool.totalPages - 1) (by omega)
    rw [ha] at hl hend
    omega
  · rintro ⟨hm, hle⟩ ops s n address pool' hrun hal k hk
    obtain ⟨hsb, hsp⟩ := PoolState.run_frame hrun
    rcases s.pool.allocatePages_cases n with ⟨p, ht⟩ | ⟨_, heq⟩
    · rw [allocatePages_of_takes ht] at hal
      have hp := ht.le
      dsimp only at hsb hsp
      have hsum : s.pool.base + 4096 * p < u64Size := by omega
      simp only [wrappingAdd_of_lt hsum, Prod.mk.injEq, Except.ok.injEq] at hal
      omega
    · rw [heq] at hal
      simp at hal

theorem blocks_inside_iff_two_pages : ∃ pool,
    dmaPoolInit (fdtWithReg 0x80000000 0x2000) true = .ok pool ∧
    ((∀ ops s n address pool', run PoolState.step ops ⟨pool, []⟩ = some s →
      s.pool.dmaPoolAllocatePages n = (.ok address, pool') →
      ∀ k < 4096 * n, address + k < u64Size ∧ (fdtWithReg 0x80000000 0x2000).regBase ≤ address + k ∧
        address + k < (fdtWithReg 0x80000000 0x2000).regBase +
          (fdtWithReg 0x80000000 0x2000).poolSize) ↔
      (fdtWithReg 0x80000000 0x2000).poolSize % 4096 = 0 ∧
        (fdtWithReg 0x80000000 0x2000).regBase + (fdtWithReg 0x80000000 0x2000).poolSize ≤
          u64Size) :=
  ⟨_, rfl, blocks_inside_iff _ true rfl⟩

/-- A pool of one page and a half gives out two whole pages. -/
theorem half_page_outside : ∃ pool address pool',
    dmaPoolInit (fdtWithReg 0x80000000 0x1800) true = .ok pool ∧
    pool.dmaPoolAllocatePages 2 = (.ok address, pool') ∧
    ¬ address + (4096 * 2 - 1) < (fdtWithReg 0x80000000 0x1800).regBase +
      (fdtWithReg 0x80000000 0x1800).poolSize :=
  ⟨_, _, _, rfl, rfl, by decide⟩

end Fresh

end GunyahVmm.Dma
