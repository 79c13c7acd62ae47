import GunyahVmm.Lib.Tiling
import GunyahVmm.Lib.U64

/-! Lent memory (`hypervisor/src/gunyah/mthp.rs`): large pages as far as the kernel collapses them,
and chunks of at most 256 MiB. Overflow aborts. -/

namespace GunyahVmm.Hypervisor
open Tiling Nat

def thpSize : Nat := 0x200000
def mapUnit : Nat := 0x10000
def batchSize : Nat := 0x4000000
def lendChunkSize : Nat := 0x10000000

structure CollapseLevel where
  size : Nat
  order : Nat

/-- The page sizes to collapse to, from the largest to the smallest. -/
def collapseLevels : List CollapseLevel :=
  [⟨0x200000, 9⟩, ⟨0x100000, 8⟩, ⟨0x80000, 7⟩, ⟨0x40000, 6⟩, ⟨0x20000, 5⟩, ⟨0x10000, 4⟩]

structure LendPrepResult where
  /-- For each 2 MiB, whether it is not backed by one large page. -/
  needSmall : List Bool
  largePageBytes : Nat

/-- Whether collapsing succeeds, by the order of the level and the chunk. -/
abbrev Collapse := Nat → Nat → Bool

/-- Collapse one chunk, unless a part of it is already collapsed. -/
def collapseChunk (level : CollapseLevel) (collapse : Collapse) (orderMap : List Nat) (ci : Nat) :
    List Nat :=
  let units := level.size / mapUnit
  let mapBase := ci * units
  if (List.range units).all (fun u => orderMap.getD (mapBase + u) 0 == 0) then
    if collapse level.order ci then
      (List.range units).foldl (fun m u => m.set (mapBase + u) level.order) orderMap
    else orderMap
  else orderMap

/-- The order of each 64 KiB of the region after all levels were tried. -/
def orderMap (size : Nat) (collapse : Collapse) : List Nat :=
  collapseLevels.foldl
    (fun m level => (List.range (size / level.size)).foldl (collapseChunk level collapse) m)
    (List.replicate (size / mapUnit) 0)

/-- Only the success of the collapse calls is kept of the system. `none` is an overflow. -/
def prepareLendRegion (size : Nat) (collapse : Collapse) : Option LendPrepResult :=
  if size + batchSize < u64Size then
    let orders := orderMap size collapse
    let uncollapsed := orders.countP (fun o => !(0 < o && o ≤ 9))
    let unitsPerThp := thpSize / mapUnit
    some {
      needSmall := (List.range (size / thpSize)).map fun ci =>
        !(List.range unitsPerThp).all (fun u => 9 ≤ orders.getD (ci * unitsPerThp + u) 0)
      largePageBytes := (size / mapUnit - uncollapsed) * mapUnit }
  else none

structure LendChunk where
  offset : Nat
  size : Nat

/-- Chunks of at most 256 MiB from `off` on, up to `total`, placed at `base`.
The fuel bounds the number of chunks. -/
def lendChunksFrom (base total : Nat) : (fuel off : Nat) → List LendChunk
  | 0, _ => []
  | fuel + 1, off =>
    if off < total then
      let sz := min (total - off) lendChunkSize
      ⟨base + off, sz⟩ :: lendChunksFrom base total fuel (off + sz)
    else []

def lendChunksOf (base total : Nat) : List LendChunk :=
  lendChunksFrom base total (total / lendChunkSize + 1) 0

/-- The end of the run of equal backing that goes on at `c`; `none` is an index
out of range. -/
def runEnd (needSmall : List Bool) (isSmall : Bool) : (remaining c : Nat) → Option Nat
  | 0, c => some c
  | remaining + 1, c => needSmall[c]?.bind fun b =>
    if b == isSmall then runEnd needSmall isSmall remaining (c + 1) else some c

/-- The chunks of the runs of equal backing from `c` on; `none` is an index out
of range. -/
def runChunks (needSmall : List Bool) (total : Nat) : (fuel c : Nat) → Option (List LendChunk)
  | 0, _ => some []
  | fuel + 1, c =>
    if c < total then do
      let isSmall ← needSmall[c]?
      let stop ← runEnd needSmall isSmall (total - c) c
      let rest ← runChunks needSmall total fuel stop
      return lendChunksOf (c * thpSize) ((stop - c) * thpSize) ++ rest
    else some []

/-- Split a region for the lend calls; no chunk when one call does. `none` is an abort. -/
def computeLendChunks (totalSize : Nat) (prep : Option LendPrepResult) : Option (List LendChunk) :=
  if totalSize ≤ lendChunkSize then some []
  else
    match prep with
    | some prep =>
      let totalThpChunks := totalSize / thpSize
      runChunks prep.needSmall totalThpChunks totalThpChunks 0
    | none =>
      if totalSize + lendChunkSize < u64Size then some (lendChunksOf 0 totalSize) else none

/-! ## The chunks tile the region -/

/-- The chunks from `off` on fill what is left, and none is too large. -/
lemma lendChunksFrom_tiles (base total : Nat) :
    ∀ fuel off, off ≤ total → total - off ≤ fuel * lendChunkSize →
      Tiles LendChunk.offset LendChunk.size (base + off) (lendChunksFrom base total fuel off)
        (base + total) ∧
      ∀ c ∈ lendChunksFrom base total fuel off, c.size ≤ lendChunkSize := by
  intro fuel
  induction fuel with
  | zero =>
    intro off ho hf
    have : off = total := by omega
    subst this
    exact ⟨rfl, by simp [lendChunksFrom]⟩
  | succ fuel ih =>
    intro off ho hf
    rw [lendChunksFrom]
    split
    · rename_i hlt
      have hp : 0 < lendChunkSize := by decide
      have hm : (fuel + 1) * lendChunkSize = fuel * lendChunkSize + lendChunkSize := succ_mul _ _
      obtain ⟨ht, hs⟩ := ih (off + min (total - off) lendChunkSize) (by omega) (by omega)
      rw [← Nat.add_assoc] at ht
      refine ⟨⟨rfl, by dsimp only; omega, ht⟩, fun c hc => ?_⟩
      rcases List.mem_cons.mp hc with rfl | hc
      · exact min_le_right _ _
      · exact hs c hc
    · have : off = total := by omega
      subst this
      exact ⟨rfl, by simp⟩

lemma lendChunksOf_tiles (base total : Nat) :
    Tiles LendChunk.offset LendChunk.size base (lendChunksOf base total) (base + total) ∧
    ∀ c ∈ lendChunksOf base total, c.size ≤ lendChunkSize := by
  refine lendChunksFrom_tiles base total _ 0 (zero_le _) ?_
  have hd := div_add_mod total lendChunkSize
  have hm := mod_lt total (show 0 < lendChunkSize by decide)
  rw [Nat.succ_mul, Nat.mul_comm]
  omega

lemma runEnd_spec (needSmall : List Bool) (isSmall : Bool) :
    ∀ remaining c, c + remaining ≤ needSmall.length →
      ∃ stop, runEnd needSmall isSmall remaining c = some stop ∧ c ≤ stop ∧
        stop ≤ c + remaining ∧ (0 < remaining → needSmall[c]? = some isSmall → c < stop) := by
  intro remaining
  induction remaining with
  | zero =>
    intro c _
    exact ⟨c, rfl, le_refl _, le_refl _, fun h => absurd h (lt_irrefl _)⟩
  | succ remaining ih =>
    intro c hl
    have hg : needSmall[c]? = some needSmall[c] := List.getElem?_eq_getElem (by omega)
    rw [runEnd, hg, Option.bind_some]
    by_cases hb : needSmall[c] = isSmall
    · obtain ⟨stop, hr, hle, hle', _⟩ := ih (c + 1) (by omega)
      exact ⟨stop, by simpa [hb] using hr, by omega, by omega, fun _ _ => by omega⟩
    · exact ⟨c, by simp [hb], le_refl _, by omega, fun _ h => absurd (Option.some.inj h) hb⟩

/-- The runs from `c` on fill the whole chunks that are left. -/
lemma runChunks_tiles {needSmall : List Bool} {total : Nat} (hl : needSmall.length = total) :
    ∀ fuel c, c ≤ total → total - c ≤ fuel → ∃ chunks,
      runChunks needSmall total fuel c = some chunks ∧
      Tiles LendChunk.offset LendChunk.size (c * thpSize) chunks (total * thpSize) ∧
      ∀ d ∈ chunks, d.size ≤ lendChunkSize := by
  intro fuel
  induction fuel with
  | zero =>
    intro c hc hf
    have : c = total := by omega
    subst this
    exact ⟨[], rfl, rfl, by simp⟩
  | succ fuel ih =>
    intro c hc hf
    by_cases hlt : c < total
    · have hg : needSmall[c]? = some needSmall[c] := List.getElem?_eq_getElem (by omega)
      obtain ⟨stop, hs, _, hle, ha⟩ := runEnd_spec needSmall needSmall[c] (total - c) c (by omega)
      have hp := ha (by omega) hg
      obtain ⟨rest, hr, ht, hsz⟩ := ih stop (by omega) (by omega)
      obtain ⟨hrun, hrn⟩ := lendChunksOf_tiles (c * thpSize) ((stop - c) * thpSize)
      rw [← Nat.add_mul, Nat.add_sub_cancel' (by omega)] at hrun
      refine ⟨lendChunksOf (c * thpSize) ((stop - c) * thpSize) ++ rest, ?_,
        tiles_append hrun ht, fun d hd => ?_⟩
      · simp [runChunks, hlt, hg, hs, hr]
      · rcases List.mem_append.mp hd with hd | hd
        · exact hrn d hd
        · exact hsz d hd
    · have : c = total := by omega
      subst this
      exact ⟨[], by simp [runChunks], rfl, by simp⟩

lemma prepareLendRegion_length {size : Nat} {collapse : Collapse} {prep : LendPrepResult}
    (h : prepareLendRegion size collapse = some prep) : prep.needSmall.length = size / thpSize := by
  simp only [prepareLendRegion] at h
  split_ifs at h
  cases h
  simp

/-! ## Coverage -/

/-- The chunks lend the whole region: none is empty or too large, they are in order and apart, and
contain every byte. -/
structure LendsWhole (size : Nat) (chunks : List LendChunk) : Prop where
  nonempty : ∀ c ∈ chunks, 0 < c.size
  le : ∀ c ∈ chunks, c.size ≤ lendChunkSize
  ordered : chunks.Pairwise (fun c d => c.offset + c.size ≤ d.offset)
  cover : ∀ x, (∃ c ∈ chunks, c.offset ≤ x ∧ x < c.offset + c.size) ↔ x < size

lemma lendsWhole_of_tiles {size : Nat} {chunks : List LendChunk}
    (h : Tiles LendChunk.offset LendChunk.size 0 chunks size)
    (hle : ∀ c ∈ chunks, c.size ≤ lendChunkSize) : LendsWhole size chunks :=
  ⟨fun _ hc => (h.bounds hc).2.1, hle, h.pairwise, fun x => by rw [h.cover]; omega⟩

/-- The split returns, without chunks exactly when one call does, and else lends the whole region.
-/
def SplitsWell (size : Nat) (result : Option (List LendChunk)) : Prop :=
  ∃ chunks, result = some chunks ∧ (chunks = [] ↔ size ≤ lendChunkSize) ∧
    (lendChunkSize < size → LendsWhole size chunks)

lemma computeLendChunks_prepared {size : Nat} {collapse : Collapse} {prep : LendPrepResult}
    (h : prepareLendRegion size collapse = some prep) (hs : lendChunkSize < size) :
    ∃ chunks, computeLendChunks size (some prep) = some chunks ∧
      Tiles LendChunk.offset LendChunk.size 0 chunks (size / thpSize * thpSize) ∧
      ∀ c ∈ chunks, c.size ≤ lendChunkSize := by
  obtain ⟨chunks, hc, ht, hle⟩ :=
    runChunks_tiles (prepareLendRegion_length h) (size / thpSize) 0 (zero_le _) (le_refl _)
  rw [Nat.zero_mul] at ht
  exact ⟨chunks, by simpa [computeLendChunks, not_le.mpr hs] using hc, ht, hle⟩

/-- **Splitting.** A region is split well exactly when it is small enough for one
call, or has whole 2 MiB units where it was prepared, or is small enough for the
count of its chunks where it was not. -/
theorem computeLendChunks_splitsWell_iff (size : Nat) (prep : Option LendPrepResult)
    (hprep : ∀ r ∈ prep, ∃ collapse, prepareLendRegion size collapse = some r) :
    SplitsWell size (computeLendChunks size prep) ↔
      size ≤ lendChunkSize ∨
        if prep.isSome then size % thpSize = 0 else size + lendChunkSize < u64Size := by
  by_cases hs : size ≤ lendChunkSize
  · refine iff_of_true ⟨[], by simp [computeLendChunks, hs], by simp [hs], ?_⟩
      (Or.inl hs)
    intro hlt
    omega
  have hlt : lendChunkSize < size := by omega
  have hp : 0 < lendChunkSize := by decide
  simp only [hs, false_or]
  cases prep with
  | none =>
    simp only [computeLendChunks, hs, ↓reduceIte, Option.isSome_none, Bool.false_eq_true]
    constructor
    · rintro ⟨chunks, hres, _⟩
      by_contra ho
      rw [if_neg ho] at hres
      contradiction
    · intro hf
      obtain ⟨ht, hle⟩ := lendChunksOf_tiles 0 size
      rw [Nat.zero_add] at ht
      refine ⟨_, if_pos hf, iff_of_false (ht.ne_nil (by omega)) hs, fun _ => ?_⟩
      exact lendsWhole_of_tiles ht hle
  | some r =>
    obtain ⟨collapse, hr⟩ := hprep r rfl
    obtain ⟨chunks, hc, ht, hle⟩ := computeLendChunks_prepared hr hlt
    have hd := div_add_mod' size thpSize
    simp only [Option.isSome_some, ↓reduceIte]
    constructor
    · rintro ⟨chunks', hres, _, hw⟩
      rw [hc] at hres
      cases hres
      -- The first byte after the whole units is in no chunk.
      by_contra hrem
      have hcov := ((hw hlt).cover (size / thpSize * thpSize)).mpr (by omega)
      rw [ht.cover] at hcov
      omega
    · intro hrem
      rw [hrem, Nat.add_zero] at hd
      rw [hd] at ht
      refine ⟨chunks, hc, iff_of_false (ht.ne_nil (by omega)) hs, fun _ => ?_⟩
      exact lendsWhole_of_tiles ht hle

theorem splitsWell_iff_three_quarter_gib : ∃ prep,
    prepareLendRegion 0x30000000 (fun _ ci => ci % 2 = 0) = some prep ∧
    (SplitsWell 0x30000000 (computeLendChunks 0x30000000 (some prep)) ↔
      0x30000000 ≤ lendChunkSize ∨ if (some prep).isSome then 0x30000000 % thpSize = 0
        else 0x30000000 + lendChunkSize < u64Size) := by
  refine ⟨_, rfl, computeLendChunks_splitsWell_iff _ _ ?_⟩
  rintro r ⟨⟩
  exact ⟨_, rfl⟩

/-- Of 257 MiB that were prepared, the last MiB is in no chunk. -/
theorem tail_not_lent : ∃ prep chunks,
    prepareLendRegion 0x10100000 (fun _ _ => true) = some prep ∧
    computeLendChunks 0x10100000 (some prep) = some chunks ∧
    ∀ c ∈ chunks, ¬ (c.offset ≤ 0x10000000 ∧ 0x10000000 < c.offset + c.size) := by
  obtain ⟨chunks, hchs, ht, _⟩ :=
    @computeLendChunks_prepared 0x10100000 (fun _ _ => true) _ rfl (by decide)
  refine ⟨_, chunks, rfl, hchs, fun c hc hin => ?_⟩
  have hcov := (ht.cover 0x10000000).mp ⟨c, hc, hin⟩
  simp [thpSize] at hcov

end GunyahVmm.Hypervisor
