import GunyahVmm.Disk.AndroidSparse

/-! Parsing and reading a sparse image abort only where places of chunks leave 64 bits or a read
starts behind the end. -/

namespace GunyahVmm.Disk.AndroidSparse
open Run Run.Outcome Disk.MemRegionIter List
variable {file : ImageFile} {image : AndroidSparse} {chunks cs : List ChunkWithSize}
  {c : ChunkWithSize} {size offset location start : Nat} {mem : BackingMemory}
  {regions : List MemRegion}

/-! ## Parsing -/

/-- Raw data starts at a position that a file can have. -/
def RawInFile (c : ChunkWithSize) : Prop :=
  ∀ fileOffset, c.chunk = .raw fileOffset → fileOffset ≤ i64Max

variable {m : BTreeMap Nat ChunkWithSize} (r : SparseReader)

lemma readExact_yields (n : Nat) :
    (r.readExact n).Yields fun _ => r.position + n ≤ r.file.content.length := by
  unfold SparseReader.readExact
  split
  · assumption
  · trivial

lemma parseBody_yields (chunkType : BitVec 16) (bodySize : Nat)
    (hst : start + chunkHeaderSize ≤ i64Max) :
    (parseBody r start chunkType bodySize).Yields fun got =>
      ∀ fileOffset, got.1 = some (.raw fileOffset) → fileOffset ≤ i64Max := by
  have hf : start + chunkHeaderSize < u64Size := Nat.lt_of_le_of_lt hst (by decide)
  unfold parseBody
  split
  · have hsk : (r.seekCurrent bodySize).Yields fun _ => True := by
      unfold SparseReader.seekCurrent
      split <;> trivial
    refine hsk.bind fun r' _ => ?_
    rw [addU64_of_lt hf, ok_bind, yields_ok]
    intro fileOffset heq
    cases heq
    exact hst
  split
  · split
    · trivial
    refine (readExact_yields r 4).bind fun got _ => ?_
    rw [yields_ok]
    intro fileOffset heq
    cases heq
  split
  · rw [yields_ok]
    intro fileOffset heq
    cases heq
  split
  · rw [yields_ok]
    intro fileOffset heq
    cases heq
  · trivial

lemma parseChunk_yields (blkSz : BitVec 32) :
    (parseChunk r blkSz).Yields fun got => ∀ c ∈ got.1, RawInFile c := by
  unfold parseChunk
  refine (readExact_yields r chunkHeaderSize).bind fun header hh => ?_
  dsimp only
  split
  · trivial
  have hst : r.position + chunkHeaderSize ≤ i64Max := hh.trans r.file.length_le
  refine (parseBody_yields header.2 _ _ hst).bind fun body hb => ?_
  rw [yields_ok]
  intro c hc fileOffset hraw
  obtain ⟨chunk, hchunk, rfl⟩ := Option.map_eq_some_iff.mp hc
  exact hb fileOffset (hchunk.trans (congrArg some hraw))

lemma parseChunks_yields (blkSz : BitVec 32) (n : Nat) (r : SparseReader) :
    (parseChunks blkSz n r).Yields fun chunks => ∀ c ∈ chunks, RawInFile c := by
  induction n generalizing r with
  | zero => exact yields_ok.mpr (forall_mem_nil _)
  | succ n ih =>
    unfold parseChunks
    refine (parseChunk_yields r blkSz).bind fun parsed hp => ?_
    refine (ih parsed.2).bind fun rest hr => ?_
    rw [yields_ok]
    exact forall_mem_append.mpr ⟨fun c hc => hp c (Option.mem_toList.mp hc), hr⟩

lemma parse_yields (file : ImageFile) :
    (parse file).Yields fun parsed => ∀ c ∈ parsed.2, RawInFile c := by
  unfold parse
  refine (readExact_yields _ _).bind fun header _ => ?_
  dsimp only
  split
  · trivial
  split
  · trivial
  split
  · trivial
  · exact (parseChunks_yields _ _ _).bind fun chunks hc => hc

/-! ## The places of the chunks -/

def place : Nat → List ChunkWithSize → List (Nat × ChunkWithSize)
  | _, [] => []
  | location, c :: cs => (location, c) :: place (location + c.expandedSize) cs

def totalExpanded (chunks : List ChunkWithSize) : Nat := (chunks.map (·.expandedSize)).sum

abbrev Laid (lo : Nat) (entries : List (Nat × ChunkWithSize)) (hi : Nat) : Prop :=
  Segments.Consecutive Prod.fst (fun e => e.2.expandedSize) lo entries hi

lemma totalExpanded_cons : totalExpanded (c :: cs) = c.expandedSize + totalExpanded cs := by
  simp [totalExpanded]

lemma laid_place (location : Nat) (cs : List ChunkWithSize) :
    Laid location (place location cs) (location + totalExpanded cs) := by
  induction cs generalizing location with
  | nil => rfl
  | cons c cs ih =>
    rw [totalExpanded_cons, ← Nat.add_assoc]
    exact ⟨rfl, ih _⟩

lemma map_snd_place (location : Nat) (cs : List ChunkWithSize) :
    (place location cs).map Prod.snd = cs := by
  induction cs generalizing location with
  | nil => rfl
  | cons c cs ih => rw [place, map_cons, ih]

section
variable (hm : Laid 0 m.entries location) (hnew : ¬ m.contains location) (c : ChunkWithSize)
include hm hnew

lemma entries_insert : (m.insert location c).entries = m.entries ++ [(location, c)] := by
  refine m.entries_insert_of_lt c fun e he => ?_
  have hb := hm.bounds he
  have hne : e.1 ≠ location := by
    intro heq
    exact hnew (any_eq_true.mpr ⟨e, he, by simpa using heq⟩)
  omega

lemma laid_insert : Laid 0 (m.insert location c).entries (location + c.expandedSize) := by
  rw [entries_insert hm hnew]
  exact hm.append ⟨rfl, rfl⟩

end

lemma insertChunks_eq_ok {m' : BTreeMap Nat ChunkWithSize} (hm : Laid 0 m.entries location)
    (h : insertChunks cs location m = .ok m') : m'.entries = m.entries ++ place location cs := by
  induction cs generalizing location m with
  | nil =>
    cases h
    rw [place, append_nil]
  | cons c cs ih =>
    unfold insertChunks at h
    split at h
    · cases h
    rename_i hnew
    obtain ⟨next, hn, hr⟩ := bind_eq_ok.mp h
    obtain ⟨-, rfl⟩ := addIn_eq_ok.mp hn
    rw [ih (laid_insert hm hnew c) hr, entries_insert hm hnew, place, append_assoc,
      singleton_append]

/-- The chunks up to an empty one: the one behind it is refused, for it has the same place. -/
def untilEmpty (cs : List ChunkWithSize) : List ChunkWithSize := cs.takeWhile (0 < ·.expandedSize)

/-- The insertions abort exactly if these chunks together leave 64 bits. -/
lemma insertChunks_ne_panic (hm : Laid 0 m.entries location) (hnew : ¬ m.contains location)
    (hlt : location < u64Size) :
    insertChunks cs location m ≠ .panic ↔ location + totalExpanded (untilEmpty cs) < u64Size := by
  induction cs generalizing location m with
  | nil => exact iff_of_true nofun hlt
  | cons c cs ih =>
    rw [insertChunks, if_neg hnew]
    by_cases hz : 0 < c.expandedSize
    · rw [untilEmpty, takeWhile_cons_of_pos (by simpa using hz), totalExpanded_cons,
        ← Nat.add_assoc]
      by_cases hn : location + c.expandedSize < u64Size
      · rw [addU64_of_lt hn, ok_bind]
        refine ih (laid_insert hm hnew c) (fun hc => ?_) hn
        obtain ⟨e, he, hk⟩ := any_eq_true.mp hc
        rw [entries_insert hm hnew, mem_append, mem_singleton] at he
        have hke : e.1 = location + c.expandedSize := by simpa using hk
        rcases he with he | rfl
        · have := (hm.bounds he).1
          have := (hm.bounds he).2
          omega
        · dsimp only at hke
          omega
      · refine iff_of_false (fun h => h ?_) (by omega)
        rw [addU64, addIn, if_neg hn]
        rfl
    · have hz : c.expandedSize = 0 := by omega
      rw [untilEmpty, takeWhile_cons_of_neg (by simp [hz]), hz, addU64_of_lt hlt, ok_bind]
      refine iff_of_true ?_ hlt
      cases cs with
      | nil => nofun
      | cons d cs =>
        have hc : (m.insert location c).contains (location + 0) = true := by
          refine any_eq_true.mpr ⟨(location, c), ?_, by simp⟩
          rw [entries_insert hm hnew]
          simp
        rw [insertChunks, if_pos hc]
        nofun

lemma insertChunks_lt {m' : BTreeMap Nat ChunkWithSize} (h : insertChunks cs location m = .ok m')
    (hlt : location < u64Size) : location + totalExpanded cs < u64Size := by
  induction cs generalizing location m with
  | nil => exact hlt
  | cons c cs ih =>
    unfold insertChunks at h
    split at h
    · cases h
    obtain ⟨next, hn, h⟩ := bind_eq_ok.mp h
    obtain ⟨hlt, rfl⟩ := addIn_eq_ok.mp hn
    rw [totalExpanded_cons, ← Nat.add_assoc]
    exact ih h hlt

lemma insertChunks_empty_eq_ok (h : insertChunks chunks 0 .empty = .ok m) :
    m.entries = place 0 chunks :=
  insertChunks_eq_ok (m := .empty) rfl h

lemma fromParts_eq_ok (h : fromParts file size chunks = .ok image) :
    image.file = file ∧ image.totalSize = size ∧ image.chunks.entries = place 0 chunks ∧
      totalExpanded chunks = size := by
  obtain ⟨m, hm, h⟩ := bind_eq_ok.mp h
  obtain ⟨calculated, hc, h⟩ := bind_eq_ok.mp h
  have hen : m.entries = place 0 chunks := insertChunks_empty_eq_ok hm
  split at h
  · cases h
  rename_i heq
  cases h
  refine ⟨rfl, rfl, hen, ?_⟩
  have hsum := sumU64_eq_ok hc
  rw [hen] at hsum
  rw [← not_not.mp heq, hsum, totalExpanded, ← map_snd_place 0 chunks, map_map, map_snd_place]
  rfl

lemma fromParts_ne_panic (file : ImageFile) (size : Nat) :
    fromParts file size chunks ≠ .panic ↔ totalExpanded (untilEmpty chunks) < u64Size := by
  have hi := @insertChunks_ne_panic chunks 0 .empty rfl (by decide) (by decide)
  rw [Nat.zero_add] at hi
  rw [← hi, fromParts]
  cases hm : insertChunks chunks 0 .empty with
  | panic => simp
  | err e => simp
  | ok m =>
    have hmap : m.entries.map (·.2.expandedSize) = chunks.map (·.expandedSize) := by
      conv_rhs => rw [← map_snd_place 0 chunks, map_map]
      rw [insertChunks_empty_eq_ok hm]
      rfl
    have hlt := insertChunks_lt hm (by decide)
    rw [Nat.zero_add] at hlt
    rw [ok_bind, hmap, sumU64_of_lt hlt, ok_bind]
    refine iff_of_true ?_ nofun
    split <;> nofun

lemma laid_of_fromParts (h : fromParts file size chunks = .ok image) :
    Laid 0 image.chunks.entries image.totalSize := by
  obtain ⟨-, hsz, hen, hsum⟩ := fromParts_eq_ok h
  have hl := laid_place 0 chunks
  rwa [Nat.zero_add, hsum, ← hen, ← hsz] at hl

/-! ## Reading -/

/-- The chunk at `start` is the one that serves a read at the offset. -/
structure Serves (image : AndroidSparse) (offset start : Nat) (c : ChunkWithSize) : Prop where
  found : image.findChunk offset = some (start, c)
  mem : (start, c) ∈ image.chunks.entries
  start_le : start ≤ offset
  le_end : offset ≤ start + c.expandedSize
  lt_end : offset < image.totalSize → offset < start + c.expandedSize

lemma exists_serves (h : Laid 0 image.chunks.entries image.totalSize)
    (hne : image.chunks.entries ≠ []) (hoffset : offset ≤ image.totalSize) :
    ∃ start c, Serves image offset start c := by
  obtain ⟨⟨start, c⟩, hmem, hf, hst, hend, hlt⟩ := h.locate_spec hne (Nat.zero_le _) hoffset
  exact ⟨start, c, hf, hmem, hst, hend, hlt⟩

def piece (file : ImageFile) (chunk : Chunk) (chunkOffset n : Nat) :
    Outcome ReadError (List (BitVec 8)) :=
  match chunk with
  | .dontCare => .ok (List.replicate n 0)
  | .raw fileOffset => file.readAt (fileOffset + chunkOffset) n
  | .fill b0 b1 b2 b3 =>
    .ok ((List.range n).map fun i => [b0, b1, b2, b3].getD ((chunkOffset % 4 + i) % 4) 0)

def regionError : Chunk → MemRegion → ReadError
  | .raw _, _ => .file
  | _, region => .guestMemory region

lemma filledMemory_of_le {n : Nat} (b0 b1 b2 b3 : BitVec 8) (phase : Nat) (h : n ≤ i64Max) :
    filledMemory b0 b1 b2 b3 phase n =
      .ok ((range n).map fun i => [b0, b1, b2, b3].getD ((phase + i) % 4) 0) :=
  if_neg (Nat.not_lt.mpr h)

lemma subSlice_of_le {chunkOffset chunkSize : Nat} (h : chunkOffset ≤ chunkSize)
    (hf : chunkOffset + size < u64Size) :
    subSlice chunkOffset size chunkSize = .ok (min size (chunkSize - chunkOffset)) := by
  unfold subSlice
  rw [addU64_of_lt hf, ok_bind]
  split
  · rw [subU64_of_le h, Nat.min_eq_right (by omega)]
  · rw [Nat.min_eq_left (by omega)]

lemma collect_takeBytes {n : Nat} (hr : ∀ r ∈ regions, r.offset < u64Size) (hn : n < u64Size) :
    ((new regions).takeBytes n).collect = (.ok (cut regions 0 n) : Outcome ReadError _) ∧
      sumU64 ((cut regions 0 n).map (·.len)) =
        (.ok (min (totalLen regions) n) : Outcome ReadError _) := by
  have hl : min (u64Size - 1) n = n := by omega
  have hsum : ((cut regions 0 n).map (·.len)).sum = min (totalLen regions) n :=
    totalLen_cut regions 0 n
  constructor
  · rw [collect_eq _ (enterable_zero hr)]
    simp only [new, takeBytes, hl]
  · rw [sumU64_of_lt (by omega), hsum]

section Serving
variable (hs : Serves image offset start c) (hchunk : c.expandedSize ≤ i64Max) (hraw : RawInFile c)
include hs hchunk hraw

lemma readAtVolatile_eq (hsz : size ≤ i64Max) :
    image.readAtVolatile size offset =
      piece image.file c.chunk (offset - start)
        (min size (c.expandedSize - (offset - start))) := by
  have hle := hs.start_le
  have hend := hs.le_end
  have hb : 2 * i64Max < u64Size := by decide
  unfold readAtVolatile
  simp only [hs.found]
  rw [subU64_of_le hs.start_le, ok_bind, subSlice_of_le (by omega) (by omega), ok_bind]
  cases hk : c.chunk with
  | dontCare => rfl
  | raw fileOffset =>
    have hf := hraw fileOffset hk
    simp only []
    rw [addU64_of_lt (by omega), ok_bind]
    rfl
  | fill b0 b1 b2 b3 => exact filledMemory_of_le _ _ _ _ _ (by omega)

lemma readToMem_eq (mem : BackingMemory) (hr : ∀ r ∈ regions, r.offset < u64Size) :
    image.readToMem offset mem (.new regions) =
      piece image.file c.chunk (offset - start)
          (min (totalLen regions) (c.expandedSize - (offset - start))) >>=
        copyToRegions (regionError c.chunk) mem
          (cut regions 0 (c.expandedSize - (offset - start))) := by
  have hle := hs.start_le
  have hend := hs.le_end
  have hb : 2 * i64Max < u64Size := by decide
  obtain ⟨hc, hsum⟩ := collect_takeBytes hr
    (show c.expandedSize - (offset - start) < u64Size by omega)
  unfold readToMem
  simp only [hs.found]
  rw [subU64_of_le hs.start_le, ok_bind, subU64_of_le (by omega), ok_bind,
    hc, ok_bind, hsum, ok_bind]
  cases hk : c.chunk with
  | dontCare => rfl
  | raw fileOffset =>
    have hf := hraw fileOffset hk
    simp only []
    rw [addU64_of_lt (by omega), ok_bind]
    rfl
  | fill b0 b1 b2 b3 =>
    simp only []
    rw [filledMemory_of_le _ _ _ _ _ (by omega)]
    rfl

end Serving

lemma copyToRegions_yields (fail : MemRegion → ReadError) (mem : BackingMemory)
    (regions : List MemRegion) (data : List (BitVec 8)) :
    (copyToRegions fail mem regions data).Yields fun _ => True := by
  unfold copyToRegions
  split <;> trivial

/-- The chunks of the image have sizes and positions that a file can have. -/
structure Bounded (image : AndroidSparse) : Prop where
  laid : Laid 0 image.chunks.entries image.totalSize
  total_le : image.totalSize ≤ i64Max
  raw : ∀ e ∈ image.chunks.entries, RawInFile e.2

lemma Bounded.chunk_le (h : Bounded image) (hs : Serves image offset start c) :
    c.expandedSize ≤ i64Max := by
  have hb := h.laid.bounds hs.mem
  have ht := h.total_le
  dsimp only at hb
  omega

section
variable (image : AndroidSparse)

/-- A read does not start behind the end of the chunk that serves it, and no position is too big. -/
def ReadFits (offset : Nat) : Prop :=
  ∀ e, image.findChunk offset = some e → offset - e.1 ≤ e.2.expandedSize ∧
    ∀ fileOffset, e.2.chunk = .raw fileOffset → fileOffset + (offset - e.1) < u64Size

/-- The end of the buffer in the chunk fits 64 bits. -/
def BufferFits (size offset : Nat) : Prop :=
  ∀ e, image.findChunk offset = some e → offset - e.1 + size < u64Size

/-- The vector of a fill chunk is not too long. -/
def FillFits (regions : List MemRegion) (offset : Nat) : Prop :=
  ∀ e, image.findChunk offset = some e → (∃ b0 b1 b2 b3, e.2.chunk = .fill b0 b1 b2 b3) →
    min (totalLen regions) (e.2.expandedSize - (offset - e.1)) ≤ i64Max

end

lemma fst_le_of_findChunk {e : Nat × ChunkWithSize} (h : image.findChunk offset = some e) :
    e ∈ image.chunks.entries ∧ e.1 ≤ offset := by
  simpa using mem_of_getLast? h

lemma readAtVolatile_ne_panic (hsz : size ≤ i64Max) :
    image.readAtVolatile size offset ≠ .panic ↔
      ReadFits image offset ∧ BufferFits image size offset := by
  unfold readAtVolatile ReadFits BufferFits
  cases hf : image.findChunk offset with
  | none => simp
  | some e =>
    obtain ⟨start, c⟩ := e
    have hle : start ≤ offset := (fst_le_of_findChunk hf).2
    simp only [Option.some.injEq, forall_eq', subU64_of_le hle, ok_bind]
    by_cases hadd : offset - start + size < u64Size
    · by_cases hend : offset - start ≤ c.expandedSize
      · rw [subSlice_of_le hend hadd, ok_bind]
        cases c.chunk with
        | dontCare => simp [hend, hadd]
        | raw fileOffset =>
          by_cases hp : fileOffset + (offset - start) < u64Size
          · simp only [addU64_of_lt hp, ok_bind, ImageFile.readAt]
            refine iff_of_true ?_ ⟨⟨hend, ?_⟩, hadd⟩
            · split <;> nofun
            · rintro _ ⟨⟩
              exact hp
          · simp [addU64, addIn, hp]
        | fill b0 b1 b2 b3 =>
          have hn : min size (c.expandedSize - (offset - start)) ≤ i64Max := by omega
          simp [filledMemory_of_le _ _ _ _ _ hn, hend, hadd]
      · simp [subSlice, addU64_of_lt hadd,
          show c.expandedSize < offset - start + size by omega, subU64,
          hend]
    · simp [subSlice, addU64, addIn, hadd]

lemma readToMem_ne_panic (mem : BackingMemory) (hr : ∀ r ∈ regions, r.offset < u64Size)
    (hlt : ∀ e ∈ image.chunks.entries, e.2.expandedSize < u64Size) :
    image.readToMem offset mem (.new regions) ≠ .panic ↔
      ReadFits image offset ∧ FillFits image regions offset := by
  unfold readToMem ReadFits FillFits
  cases hf : image.findChunk offset with
  | none => simp
  | some e =>
    obtain ⟨start, c⟩ := e
    obtain ⟨hm, hle⟩ : (start, c) ∈ image.chunks.entries ∧ start ≤ offset := fst_le_of_findChunk hf
    have hc : c.expandedSize < u64Size := hlt _ hm
    simp only [Option.some.injEq, forall_eq', subU64_of_le hle, ok_bind]
    by_cases hend : offset - start ≤ c.expandedSize
    · obtain ⟨hcol, hsum⟩ := collect_takeBytes hr
        (show c.expandedSize - (offset - start) < u64Size by omega)
      rw [subU64_of_le hend, ok_bind, hcol, ok_bind, hsum, ok_bind]
      have hcopy (fail) (regions) (data) : copyToRegions fail mem regions data ≠ .panic :=
        (yields_iff.mp (copyToRegions_yields fail mem regions data)).1
      cases c.chunk with
      | dontCare => simp [hcopy, hend]
      | raw fileOffset =>
        by_cases hp : fileOffset + (offset - start) < u64Size
        · simp only [addU64_of_lt hp, ok_bind, ImageFile.readAt]
          refine iff_of_true ?_ ⟨⟨hend, ?_⟩, nofun⟩
          · split
            · nofun
            · exact hcopy _ _ _
          · rintro _ ⟨⟩
            exact hp
        · simp [addU64, addIn, hp]
      | fill b0 b1 b2 b3 =>
        by_cases hfill : min (totalLen regions) (c.expandedSize - (offset - start)) ≤ i64Max
        · simp [filledMemory_of_le _ _ _ _ _ hfill, hcopy, hend, hfill]
        · simp [filledMemory, not_le.mp hfill, hfill]
    · simp [subU64, hend]

/-- **Safety.** Opening a file aborts exactly if the sizes of its chunks up to an empty one leave 64
bits. A read of an opened image aborts exactly if it starts behind the end, or a position or a
vector is too big. -/
theorem sparse_image_safe_iff (file : ImageFile) :
    (fromFile file ≠ .panic ↔ ∀ parsed, parse file = .ok parsed →
      totalExpanded (untilEmpty parsed.2) < u64Size) ∧
      ∀ image, fromFile file = .ok image → ∀ offset,
        (∀ size ≤ i64Max, image.readAtVolatile size offset ≠ .panic ↔
          ReadFits image offset ∧ BufferFits image size offset) ∧
        ∀ mem regions, (∀ r ∈ regions, r.offset < u64Size) →
          (image.readToMem offset mem (.new regions) ≠ .panic ↔
            ReadFits image offset ∧ FillFits image regions offset) := by
  refine ⟨?_, fun image hi offset => ⟨fun size hsz => readAtVolatile_ne_panic hsz,
    fun mem regions hr => readToMem_ne_panic mem hr fun e he => ?_⟩⟩
  · have hp := (yields_iff.mp (parse_yields file)).1
    rw [fromFile]
    cases h : parse file with
    | panic => contradiction
    | err e => simp
    | ok parsed => simp [fromParts_ne_panic]
  · obtain ⟨parsed, -, hi⟩ := bind_eq_ok.mp hi
    obtain ⟨m, hm, hi⟩ := bind_eq_ok.mp hi
    have hlt := insertChunks_lt hm (by decide)
    obtain ⟨calculated, -, hi⟩ := bind_eq_ok.mp hi
    split at hi
    · cases hi
    cases hi
    have hb := (laid_place 0 parsed.2).bounds (insertChunks_empty_eq_ok hm ▸ he)
    omega

/-- Two blocks of four bytes: one that does not matter, and one of raw data. -/
def twoBlocks : ImageFile where
  content := [
    0x3a, 0xff, 0x26, 0xed, 1, 0, 0, 0, 28, 0, 12, 0, 4, 0, 0, 0, 2, 0, 0, 0,
    2, 0, 0, 0, 0, 0, 0, 0,
    0xc3, 0xca, 0, 0, 1, 0, 0, 0, 12, 0, 0, 0,
    0xc1, 0xca, 0, 0, 1, 0, 0, 0, 16, 0, 0, 0, 5, 6, 7, 8]
  length_le := by decide

theorem sparse_image_safe_iff_twoBlocks :
    (fromFile twoBlocks).okAnd (fun image => image.totalSize = 8) = true ∧
      ∀ image, fromFile twoBlocks = .ok image →
        (image.readAtVolatile 100 3 ≠ .panic ↔
          ReadFits image 3 ∧ BufferFits image 100 3) :=
  ⟨by decide +kernel, fun image hi => ((sparse_image_safe_iff twoBlocks).2 image hi 3).1 100
    (by decide)⟩

/-- Two chunks of 2^32 - 1 blocks of 2^32 - 1 bytes. -/
def hugeChunks : ImageFile where
  content := [
    0x3a, 0xff, 0x26, 0xed, 1, 0, 0, 0, 28, 0, 12, 0, 0xff, 0xff, 0xff, 0xff, 0, 0, 0, 0,
    2, 0, 0, 0, 0, 0, 0, 0,
    0xc3, 0xca, 0, 0, 0xff, 0xff, 0xff, 0xff, 12, 0, 0, 0,
    0xc3, 0xca, 0, 0, 0xff, 0xff, 0xff, 0xff, 12, 0, 0, 0]
  length_le := by decide

/-- The end of the second of two huge chunks does not fit 64 bits, and a read of one byte that
starts behind the end of an image subtracts the offset from a smaller size. -/
theorem sparse_image_aborts :
    fromFile hugeChunks = .panic ∧
      ∃ image, fromFile twoBlocks = .ok image ∧ image.readAtVolatile 1 9 = .panic ∧
        image.readToMem 9 ⟨16, fun _ => 0, by decide⟩ (.new [⟨0, 1⟩]) = .panic := by
  constructor
  · exact isPanic_iff.mp (by decide +kernel)
  · have hr : (fromFile twoBlocks).okAnd (fun image =>
        (image.readAtVolatile 1 9).isPanic &&
          (image.readToMem 9 ⟨16, fun _ => 0, by decide⟩ (.new [⟨0, 1⟩])).isPanic) = true := by
      decide +kernel
    obtain ⟨image, hi, hp⟩ := okAnd_iff.mp hr
    obtain ⟨hsy, ha⟩ := Bool.and_eq_true_iff.mp hp
    exact ⟨image, hi, isPanic_iff.mp hsy, isPanic_iff.mp ha⟩

end GunyahVmm.Disk.AndroidSparse
