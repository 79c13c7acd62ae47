import GunyahVmm.Disk.SparseSafety
import GunyahVmm.Lib.Drain

/-! Both ways to read a sparse image deliver its expansion. -/

namespace GunyahVmm.Disk.AndroidSparse
open Run Disk.MemRegionIter List
variable {file : ImageFile} {image : AndroidSparse} {chunks : List ChunkWithSize}
  {c : ChunkWithSize} {size offset start : Nat} {mem : BackingMemory} {regions : List MemRegion}

/-! ## The expansion -/

def expandChunk (file : ImageFile) (c : ChunkWithSize) : List (BitVec 8) :=
  match c.chunk with
  | .raw fileOffset => (file.content.drop fileOffset).take c.expandedSize
  | .fill b0 b1 b2 b3 => (List.range c.expandedSize).map fun i => [b0, b1, b2, b3].getD (i % 4) 0
  | .dontCare => List.replicate c.expandedSize 0

def expansion (file : ImageFile) (chunks : List ChunkWithSize) : List (BitVec 8) :=
  chunks.flatMap (expandChunk file)

def RawPresent (file : ImageFile) (c : ChunkWithSize) : Prop :=
  ∀ fileOffset, c.chunk = .raw fileOffset → fileOffset + c.expandedSize ≤ file.content.length

lemma RawPresent.rawInFile (h : RawPresent file c) : RawInFile c := by
  intro fileOffset hk
  have hp := h fileOffset hk
  have hl := file.length_le
  omega

lemma length_expandChunk (h : RawPresent file c) :
    (expandChunk file c).length = c.expandedSize := by
  unfold expandChunk
  cases hk : c.chunk with
  | raw fileOffset =>
    have hp := h fileOffset hk
    simp only [length_take, length_drop]
    omega
  | fill b0 b1 b2 b3 => simp
  | dontCare => simp

lemma take_drop_pattern {n k total : Nat} (pattern : List (BitVec 8)) (h : k + n ≤ total) :
    (((range total).map fun i => pattern.getD (i % 4) 0).drop k).take n =
      (range n).map fun i => pattern.getD ((k % 4 + i) % 4) 0 := by
  refine ext_getElem (by simp; omega) fun i hi hi' => ?_
  simp

lemma piece_eq {chunkOffset n : Nat} (hr : RawPresent file c)
    (h : chunkOffset + n ≤ c.expandedSize) :
    piece file c.chunk chunkOffset n = .ok (((expandChunk file c).drop chunkOffset).take n) := by
  unfold piece expandChunk
  cases hk : c.chunk with
  | raw fileOffset =>
    have hp := hr fileOffset hk
    have hl := file.length_le
    dsimp only [ImageFile.readAt]
    rw [if_neg (by omega), drop_take, take_take, drop_drop, Nat.min_eq_left (by omega)]
  | fill b0 b1 b2 b3 => exact congrArg _ (take_drop_pattern _ h).symm
  | dontCare =>
    rw [drop_replicate, take_replicate, Nat.min_eq_left (by omega)]

/-! ## Single reads -/

/-- An image of the given chunks, at least one, with all raw data in the file. -/
structure Expands (image : AndroidSparse) (chunks : List ChunkWithSize) : Prop where
  laid : Laid 0 image.chunks.entries image.totalSize
  total_le : image.totalSize ≤ i64Max
  entries : image.chunks.entries = place 0 chunks
  present : ∀ c ∈ chunks, RawPresent image.file c
  nonempty : chunks ≠ []

namespace Expands
variable (h : Expands image chunks)
include h

lemma exists_serves (ho : offset ≤ image.totalSize) : ∃ start c, Serves image offset start c := by
  refine AndroidSparse.exists_serves h.laid ?_ ho
  rw [h.entries]
  intro hn
  have hm := map_snd_place 0 chunks
  rw [hn] at hm
  exact h.nonempty hm.symm

lemma bounded : Bounded image := by
  refine ⟨h.laid, h.total_le, fun e he => ?_⟩
  have hm := mem_map_of_mem (f := Prod.snd) he
  rw [h.entries, map_snd_place] at hm
  exact (h.present _ hm).rawInFile

lemma present_of_mem {e : Nat × ChunkWithSize} (he : e ∈ image.chunks.entries) :
    RawPresent image.file e.2 := by
  have hm := mem_map_of_mem (f := Prod.snd) he
  rw [h.entries, map_snd_place] at hm
  exact h.present _ hm

lemma expansion_eq :
    expansion image.file chunks =
      image.chunks.entries.flatMap fun e => expandChunk image.file e.2 := by
  rw [expansion, h.entries]
  conv_lhs => rw [← map_snd_place 0 chunks, flatMap_map]

lemma length_expansion : (expansion image.file chunks).length = image.totalSize := by
  have hl := Segments.length_flatMap h.laid
    fun e he => length_expandChunk (h.present_of_mem he)
  rw [h.expansion_eq]
  omega

lemma piece_eq (hs : Serves image offset start c) {n : Nat}
    (hn : n ≤ c.expandedSize - (offset - start)) :
    piece image.file c.chunk (offset - start) n =
      .ok (((expansion image.file chunks).drop offset).take n) := by
  have hle := hs.start_le
  have hend := hs.le_end
  have hf : offset + n ≤ start + c.expandedSize := by omega
  have hpr : RawPresent image.file c := h.present_of_mem hs.mem
  have hp := Segments.take_drop_flatMap h.laid
    (fun e he => length_expandChunk (h.present_of_mem he)) hs.mem hs.start_le hf
  rw [AndroidSparse.piece_eq hpr (by omega), h.expansion_eq]
  rw [Nat.sub_zero] at hp
  rw [hp]

/-- A read takes a number of bytes of the expansion, at least one if it can. The asynchronous one
puts them into the regions. -/
lemma reads (ho : offset ≤ image.totalSize) (room : Nat) :
    ∃ k ≤ room, k ≤ image.totalSize - offset ∧ (offset < image.totalSize → 0 < room → 0 < k) ∧
      (room ≤ i64Max → image.readAtVolatile room offset =
        .ok (((expansion image.file chunks).drop offset).take k)) ∧
      ∀ mem regions, mem.Holds regions → totalLen regions = room →
        ∃ mem', mem.scatter (cut regions 0 k)
            (((expansion image.file chunks).drop offset).take k) = .ok mem' ∧
          mem'.size = mem.size ∧
          image.readToMem offset mem (.new regions) = .ok (k, mem') := by
  obtain ⟨start, c, hs⟩ := h.exists_serves ho
  have hb := h.laid.bounds hs.mem
  have hle := hs.start_le
  have hend := hs.le_end
  have hc := h.bounded.chunk_le hs
  have hraw := h.bounded.raw _ hs.mem
  dsimp only at hb
  refine ⟨min room (c.expandedSize - (offset - start)), by omega, by omega, ?_, ?_, ?_⟩
  · intro hi hr
    have hlt := hs.lt_end hi
    omega
  · intro hr
    rw [readAtVolatile_eq hs hc hraw hr, h.piece_eq hs (by omega)]
  · intro mem regions hh hr
    obtain ⟨mem', hsc, hsz⟩ := BackingMemory.exists_scatter
      (hh.cut 0 (min room (c.expandedSize - (offset - start))))
      (((expansion image.file chunks).drop offset).take
        (min room (c.expandedSize - (offset - start))))
    refine ⟨mem', hsc, hsz, ?_⟩
    have hcut := cut_min regions 0 (c.expandedSize - (offset - start))
    rw [Nat.sub_zero, hr] at hcut
    have hl := h.length_expansion
    rw [readToMem_eq hs hc hraw mem hh.offset_lt, hr, h.piece_eq hs (by omega),
      Outcome.ok_bind, copyToRegions, ← hcut, hsc]
    simp only [length_take, length_drop]
    rw [Nat.min_eq_left (by omega)]

end Expands

lemma expands_of_fromParts (h : fromParts file size chunks = .ok image) (hne : chunks ≠ [])
    (hs : size ≤ i64Max) (hr : ∀ c ∈ chunks, RawPresent file c) : Expands image chunks := by
  obtain ⟨hf, ht, hen, -⟩ := fromParts_eq_ok h
  exact ⟨laid_of_fromParts h, ht ▸ hs, hen, hf ▸ hr, hne⟩

/-! ## Reading until nothing comes -/

/-- The next bytes that a caller with a buffer of `room` bytes gets. -/
def readNext (image : AndroidSparse) (room offset : Nat) :
    Outcome ReadError (List (BitVec 8) × Nat) := do
  let data ← image.readAtVolatile room offset
  .ok (data, offset + data.length)

/-- The next bytes that a caller finds in its regions. -/
def readNextToMem (image : AndroidSparse) (regions : List MemRegion) (s : Nat × BackingMemory) :
    Outcome ReadError (List (BitVec 8) × (Nat × BackingMemory)) := do
  let got ← image.readToMem s.1 s.2 (.new regions)
  .ok (got.2.gather (cut regions 0 got.1), (s.1 + got.1, got.2))

namespace Expands
variable (h : Expands image chunks)
include h

lemma readNext_drains {room : Nat} (hr : 0 < room) (hb : room ≤ i64Max)
    (hof : offset ≤ image.totalSize) (out : List (BitVec 8)) :
    Drains (image.readNext room) offset out ↔ out = (expansion image.file chunks).drop offset := by
  have hl := h.length_expansion
  refine drains_iff (fun o tail => o ≤ image.totalSize ∧
    tail = (expansion image.file chunks).drop o)
    ?_ ⟨hof, rfl⟩
  rintro o tail ⟨ho, rfl⟩
  obtain ⟨k, -, hk, hp, hrd, -⟩ := h.reads ho room
  have hd : (((expansion image.file chunks).drop o).take k).length = k := by
    rw [length_take, length_drop]
    omega
  refine ⟨_, _, ((expansion image.file chunks).drop o).drop k,
    by rw [readNext, hrd hb, Outcome.ok_bind], (take_append_drop _ _).symm, ?_, ?_⟩
  · rw [hd, drop_drop]
    exact ⟨by omega, rfl⟩
  · intro hn
    rw [hn] at hd
    have hnot : ¬ o < image.totalSize := fun hlt => absurd (hp hlt hr) (by simp at hd; omega)
    exact drop_of_length_le (by omega)

lemma readNextToMem_drains (hrm : 0 < totalLen regions) (hh : mem.Holds regions)
    (ha : regions.Pairwise MemRegion.Apart) (hof : offset ≤ image.totalSize)
    (out : List (BitVec 8)) :
    Drains (image.readNextToMem regions) (offset, mem) out ↔
      out = (expansion image.file chunks).drop offset := by
  have hl := h.length_expansion
  refine drains_iff (fun s tail => s.1 ≤ image.totalSize ∧ s.2.Holds regions ∧
    tail = (expansion image.file chunks).drop s.1) ?_ ⟨hof, hh, rfl⟩
  rintro s tail ⟨ho, hm, rfl⟩
  obtain ⟨k, hle, hk, hp, -, hrd⟩ := h.reads ho (totalLen regions)
  obtain ⟨m', hs, hsz, hrd⟩ := hrd s.2 regions hm rfl
  have hd : (((expansion image.file chunks).drop s.1).take k).length = k := by
    rw [length_take, length_drop]
    omega
  have ht := totalLen_cut regions 0 k
  have hg := BackingMemory.gather_scatter (apart_cut ha 0 k) (by omega) hs
  refine ⟨_, _, ((expansion image.file chunks).drop s.1).drop k,
    by rw [readNextToMem, hrd, Outcome.ok_bind], ?_, ⟨?_, ?_, ?_⟩, ?_⟩
  · rw [hg, take_append_drop]
  · omega
  · intro r hr
    have hrh := hm r hr
    unfold BackingMemory.holds at hrh ⊢
    rwa [hsz]
  · rw [drop_drop]
  · intro hn
    rw [hg] at hn
    rw [hn] at hd
    have hnot : ¬ s.1 < image.totalSize := fun hlt => absurd (hp hlt hrm) (by simp at hd; omega)
    exact drop_of_length_le (by omega)

end Expands

/-- **Expansion.** For a list of at least one chunk, the synchronous and the asynchronous read take
the same bytes of the expansion from the offset on, and both, repeated until they return 0, yield
all of it from there on. -/
theorem reads_yield_expansion (h : fromParts file size chunks = .ok image) (hne : chunks ≠ [])
    (hsize : size ≤ i64Max) (hraw : ∀ c ∈ chunks, RawPresent file c) (hoffset : offset ≤ size) :
    (∀ mem regions, mem.Holds regions → totalLen regions ≤ i64Max →
      ∃ k ≤ totalLen regions, k ≤ size - offset ∧ ∃ mem',
        image.readAtVolatile (totalLen regions) offset =
          .ok (((expansion file chunks).drop offset).take k) ∧
        image.readToMem offset mem (.new regions) = .ok (k, mem') ∧
        mem.scatter (cut regions 0 k)
          (((expansion file chunks).drop offset).take k) = .ok mem') ∧
    (∀ room, 0 < room → room ≤ i64Max → ∀ out,
      Drains (image.readNext room) offset out ↔ out = (expansion file chunks).drop offset) ∧
    ∀ mem regions, mem.Holds regions → 0 < totalLen regions →
      regions.Pairwise MemRegion.Apart → ∀ out,
        Drains (image.readNextToMem regions) (offset, mem) out ↔
          out = (expansion file chunks).drop offset := by
  have hex := expands_of_fromParts h hne hsize hraw
  obtain ⟨rfl, rfl, -, -⟩ := fromParts_eq_ok h
  refine ⟨fun mem regions hh hb => ?_, fun room hr hb => ?_,
    fun mem regions hh hr ha => ?_⟩
  · obtain ⟨k, hr, hk, -, hs, hasy⟩ := hex.reads hoffset (totalLen regions)
    obtain ⟨mem', hsc, -, hrd⟩ := hasy mem regions hh rfl
    exact ⟨k, hr, hk, mem', hs hb, hrd, hsc⟩
  · exact hex.readNext_drains hr hb hoffset
  · exact hex.readNextToMem_drains hr hh ha hoffset

theorem reads_yield_expansion_twoChunks :
    ∃ image, fromParts ⟨[5, 6, 7], by decide⟩ 8 [⟨.fill 1 2 3 4, 6⟩, ⟨.raw 1, 2⟩] = .ok image ∧
      ∀ out, Drains (image.readNext 2) 3 out ↔ out = [4, 1, 2, 6, 7] := by
  refine ⟨_, rfl, ?_⟩
  have hr : ∀ c ∈ [(⟨.fill 1 2 3 4, 6⟩ : ChunkWithSize), ⟨.raw 1, 2⟩],
      RawPresent ⟨[5, 6, 7], by decide⟩ c := by
    intro c hc fileOffset hk
    rcases mem_cons.mp hc with rfl | hc
    · cases hk
    rw [mem_singleton.mp hc] at hk ⊢
    cases hk
    decide
  have hy := reads_yield_expansion rfl (by decide) (by decide) hr (show 3 ≤ 8 by decide)
  exact hy.2.1 2 (by decide) (by decide)

/-- An image without chunks is accepted, but a read at its end fails instead of returning 0. -/
theorem empty_image_never_ends :
    ∃ image, fromParts ⟨[], by decide⟩ 0 [] = .ok image ∧
      image.readAtVolatile 1 0 = .err (.noChunk 0) ∧
      ∀ out, ¬ Drains (image.readNext 1) 0 out := by
  refine ⟨_, rfl, rfl, fun out hd => ?_⟩
  cases hd with
  | done hn => cases hn
  | more hn _ _ => cases hn

end GunyahVmm.Disk.AndroidSparse
