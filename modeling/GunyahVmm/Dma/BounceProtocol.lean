import GunyahVmm.Dma.IoMmu
import GunyahVmm.Dma.PoolOwnership
import GunyahVmm.Lib.AssocList

/-! The bounce buffer protocol: callers map, unmap, allocate and free, and the device writes into
what it was shown, in any order. -/

namespace GunyahVmm.Dma
open Coverage FirstFit Run Memory Operation IoMmu DmaPool List Option

def DmaPool.hasByte (pool : DmaPool) (a : Nat) : Bool := within pool.base (4096 * pool.totalPages) a

def Block.hasByte (b : Block) (a : Nat) : Bool := within b.address (4096 * b.pages) a

def MapInfo.block (info : MapInfo) : Block := ⟨info.bounceAddress, info.numberOfPages⟩

/-- The bounce buffer of a mapping, if it has one. -/
def MapInfo.blocks (info : MapInfo) : List Block := if info.bounceUsed then [info.block] else []

def bounceBlocks (infos : MapInfos) : List Block := infos.entries.flatMap fun e => e.2.blocks

/-- The driver with the live common buffers and, for each mapping, what the
device left in its bounce buffer. -/
structure ProtocolState where
  io : IoMmu
  buffers : List Block
  left : Nat → Nat → BitVec 8

namespace ProtocolState

def blocks (s : ProtocolState) : List Block := bounceBlocks s.io.mapInfos ++ s.buffers

inductive Op where
  | map (args : IoMmu.MapArgs)
  | unmap (mapping : Nat)
  | allocateBuffer (pages : Nat) (hostAddress : Bool) (attributes : BitVec 64)
  /-- Free the common buffer at this place of the list, with its own page count. -/
  | freeBuffer (i : Nat)
  | deviceWriteMapping (mapping offset : Nat) (v : BitVec 8)
  | deviceWriteBuffer (i offset : Nat) (v : BitVec 8)
  /-- Memory outside the pool changes. -/
  | hostWrite (address : Nat) (v : BitVec 8)

/-- What a caller of `Map` keeps to: a fresh address for the record, no copied buffer in the pool.
-/
structure MapAllowed (s : ProtocolState) (args : IoMmu.MapArgs) : Prop where
  fresh : ∀ record ∈ args.record, record ≠ 0 ∧ record ∉ s.io.mapInfos
  address_lt : args.hostAddress < u64Size
  bytes_lt : ∀ n ∈ args.numberOfBytes, n < u64Size
  outside : (ofNat? args.operation).any isCommonBufferOperation = true ∨
    ∀ n ∈ args.numberOfBytes, ∀ k < n,
      s.io.pool.hasByte (wrappingAdd args.hostAddress k) = false

instance (s : ProtocolState) (args : IoMmu.MapArgs) : Decidable (s.MapAllowed args) :=
  decidable_of_iff (_ ∧ _ ∧ _ ∧ _) ⟨fun h => ⟨h.1, h.2.1, h.2.2.1, h.2.2.2⟩,
    fun h => ⟨h.fresh, h.address_lt, h.bytes_lt, h.outside⟩⟩

def writeByte (s : ProtocolState) (address : Nat) (v : BitVec 8) : ProtocolState :=
  { s with io := { s.io with memory := s.io.memory.write address v } }

/-- One call or write; `none` is one that no caller or device makes. -/
def step (s : ProtocolState) : Op → Option ProtocolState
  | .map args =>
    if s.MapAllowed args then
      match s.io.gunyahIoMmuMap args with
      | (.ok (device, mapping), io) =>
        some { s with
          io := io
          left := fun m k => if m = mapping then io.memory (wrappingAdd device k) else s.left m k }
      | (.error _, io) => some { s with io := io }
    else none
  | .unmap mapping =>
    if mapping = 0 ∨ mapping ∈ s.io.mapInfos then
      some { s with io := (s.io.gunyahIoMmuUnmap mapping).2 }
    else none
  | .allocateBuffer pages hostAddress attributes =>
    match s.io.gunyahIoMmuAllocateBuffer pages hostAddress attributes with
    | (.ok address, io) => some { s with io := io, buffers := ⟨address, pages⟩ :: s.buffers }
    | (.error _, io) => some { s with io := io }
  | .freeBuffer i => s.buffers[i]?.map fun b =>
    match s.io.gunyahIoMmuFreeBuffer b.pages b.address with
    | (.success, io) => { s with io := io, buffers := s.buffers.eraseIdx i }
    | (_, io) => { s with io := io }
  | .deviceWriteMapping mapping offset v => (s.io.mapInfos.lookup mapping).bind fun info =>
    if info.bounceUsed then
      if offset < 4096 * info.numberOfPages then
        some { s.writeByte (wrappingAdd info.bounceAddress offset) v with
          left := fun m k => if m = mapping ∧ k = offset then v else s.left m k }
      else none
    else if offset < info.numberOfBytes ∧
        s.io.pool.hasByte (wrappingAdd info.hostAddress offset) = false then
      some (s.writeByte (wrappingAdd info.hostAddress offset) v)
    else none
  | .deviceWriteBuffer i offset v => s.buffers[i]?.bind fun b =>
    if offset < 4096 * b.pages then some (s.writeByte (wrappingAdd b.address offset) v) else none
  | .hostWrite address v =>
    if s.io.pool.hasByte address = false then some (s.writeByte address v) else none

/-- What holds in a state and of the next call there. -/
structure Correct (s : ProtocolState) : Prop where
  /-- Live bounce buffers and common buffers share no byte. -/
  no_overlap : s.blocks.Pairwise (Apart Block.hasByte)
  /-- After a mapping for reading, the device sees the bytes of the host. -/
  read_map : ∀ args n op device mapping io, s.MapAllowed args → args.numberOfBytes = some n →
    ofNat? args.operation = some op → op.isBusMasterReadOperation = true →
    s.io.gunyahIoMmuMap args = (.ok (device, mapping), io) →
    ∀ k < n, io.memory (wrappingAdd device k) = s.io.memory (wrappingAdd args.hostAddress k) ∧
      io.memory (wrappingAdd args.hostAddress k) = s.io.memory (wrappingAdd args.hostAddress k)
  /-- Unmapping a mapping for writing changes the bytes of the host, and only
  these, to what the device left. -/
  unmap_write : ∀ mapping info, s.io.mapInfos.lookup mapping = some info →
    info.operation = .busMasterWrite ∨ info.operation = .busMasterWrite64 →
    ∃ io, s.io.gunyahIoMmuUnmap mapping = (.success, io) ∧
      ∀ a < u64Size, io.memory a =
        if within info.hostAddress info.numberOfBytes a then
          s.left mapping (wrappingSub a info.hostAddress)
        else s.io.memory a
  /-- Unmapping any other mapping changes no byte. -/
  unmap_other : ∀ mapping info, s.io.mapInfos.lookup mapping = some info →
    info.operation.isBusMasterReadOperation = true ∨
      info.operation.isCommonBufferOperation = true →
    ∃ io, s.io.gunyahIoMmuUnmap mapping = (.success, io) ∧ io.memory = s.io.memory
  /-- A call that fails leaves the bitmap unchanged. -/
  map_error : ∀ args e io, s.io.gunyahIoMmuMap args = (.error e, io) →
    io.pool.bitmap = s.io.pool.bitmap
  unmap_error : ∀ mapping e io, s.io.gunyahIoMmuUnmap mapping = (e, io) → e ≠ .success →
    io.pool.bitmap = s.io.pool.bitmap
  allocateBuffer_error : ∀ pages hostAddress attributes e io,
    s.io.gunyahIoMmuAllocateBuffer pages hostAddress attributes = (.error e, io) →
    io.pool.bitmap = s.io.pool.bitmap
  freeBuffer_error : ∀ pages hostAddress e io,
    s.io.gunyahIoMmuFreeBuffer pages hostAddress = (e, io) → e ≠ .success →
    io.pool.bitmap = s.io.pool.bitmap
  /-- With everything released the bitmap is clear. -/
  released : s.io.mapInfos = ∅ → s.buffers = [] →
    ∀ p < s.io.pool.totalPages, s.io.pool.bitmapTestBit p = false

end ProtocolState

/-! ## What the calls do -/

namespace IoMmu

lemma bytes_le_bouncePages (n : Nat) : n ≤ 4096 * bouncePages n := by
  have := (size_le_efiSizeToPages n).1
  simp only [bouncePages]
  split <;> omega

lemma map_cases (io : IoMmu) (args : MapArgs) :
    (∃ e, io.gunyahIoMmuMap args = (.error e, io)) ∨
    ∃ n op record, args.numberOfBytes = some n ∧ ofNat? args.operation = some op ∧
      args.record = some record ∧ ((op.isCommonBufferOperation = true ∧
        io.gunyahIoMmuMap args = (.ok (args.hostAddress, record),
          { io with mapInfos := io.mapInfos.insert record (.identity op n args.hostAddress) })) ∨
      ∃ page, op.isCommonBufferOperation = false ∧ io.pool.Takes (bouncePages n) page ∧
        io.gunyahIoMmuMap args =
          (.ok (wrappingAdd io.pool.base (4096 * page), record),
            { pool := io.pool.setPages page (bouncePages n)
              memory :=
                if op.isBusMasterReadOperation then
                  io.memory.copyMem (wrappingAdd io.pool.base (4096 * page)) args.hostAddress n
                else io.memory
              mapInfos := io.mapInfos.insert record (.bounced op n (bouncePages n)
                args.hostAddress (wrappingAdd io.pool.base (4096 * page))) })) := by
  simp only [gunyahIoMmuMap]
  cases hn : args.numberOfBytes with
  | none => exact Or.inl ⟨_, rfl⟩
  | some n =>
    dsimp only
    split
    · exact Or.inl ⟨_, rfl⟩
    cases hop : ofNat? args.operation with
    | none => exact Or.inl ⟨_, rfl⟩
    | some op =>
      cases hr : args.record with
      | none => exact Or.inl ⟨_, rfl⟩
      | some record =>
        cases hc : op.isCommonBufferOperation with
        | true =>
          exact Or.inr ⟨n, op, record, rfl, rfl, rfl, Or.inl ⟨hc, by simp [hc]⟩⟩
        | false =>
          rcases io.pool.allocatePages_cases (bouncePages n) with ⟨page, ht⟩ | ⟨_, heq⟩
          · refine Or.inr ⟨n, op, record, rfl, rfl, rfl, Or.inr ⟨page, hc, ht, ?_⟩⟩
            simp [hc, allocatePages_of_takes ht, Bool.false_eq_true]
          · refine Or.inl ⟨.outOfResources, ?_⟩
            simp only [hc, heq, Bool.false_eq_true, ↓reduceIte]

lemma unmap_of_lookup {io : IoMmu} {mapping : Nat} {info : MapInfo} (hne : mapping ≠ 0)
    (hl : io.mapInfos.lookup mapping = some info) (hs : info.signature = mapInfoSig) :
    io.gunyahIoMmuUnmap mapping = (.success,
      { pool :=
          if info.bounceUsed then io.pool.dmaPoolFreePages info.numberOfPages info.bounceAddress
          else io.pool
        memory :=
          if info.bounceUsed && !info.operation.isBusMasterReadOperation then
            io.memory.copyMem info.hostAddress info.bounceAddress info.numberOfBytes
          else io.memory
        mapInfos := io.mapInfos.erase mapping }) := by
  simp [gunyahIoMmuUnmap, hne, hl, hs, ne_eq, not_true_eq_false]

/-- An allocation of a common buffer fails and changes nothing, or takes a
block and clears it. -/
lemma allocateBuffer_cases (io : IoMmu) (pages : Nat) (hostAddress : Bool)
    (attributes : BitVec 64) :
    (∃ e, io.gunyahIoMmuAllocateBuffer pages hostAddress attributes = (.error e, io)) ∨
    ∃ page, io.pool.Takes pages page ∧
      io.gunyahIoMmuAllocateBuffer pages hostAddress attributes =
        (.ok (wrappingAdd io.pool.base (4096 * page)),
          { io with
            pool := io.pool.setPages page pages
            memory := io.memory.zeroMem (wrappingAdd io.pool.base (4096 * page))
              (efiPagesToSize pages) }) := by
  simp only [gunyahIoMmuAllocateBuffer]
  split
  · exact Or.inl ⟨_, rfl⟩
  split
  · exact Or.inl ⟨_, rfl⟩
  rcases io.pool.allocatePages_cases pages with ⟨page, ht⟩ | ⟨_, heq⟩
  · exact Or.inr ⟨page, ht, by rw [allocatePages_of_takes ht]⟩
  · exact Or.inl ⟨_, by rw [heq]⟩

end IoMmu

/-! ## Bytes and pages -/

namespace DmaPool
variable {pool : DmaPool}
variable {b : Block} {a : Nat} {live : List Block}

lemma byte_of_block {page : Nat} (hle : page + b.pages ≤ pool.totalPages)
    (hb : b.address = pool.base + 4096 * page) (hlt : b.address < u64Size)
    (ha : b.hasByte a = true) :
    wrappingSub a pool.base < 4096 * pool.totalPages ∧ page ≤ wrappingSub a pool.base / 4096 ∧
      wrappingSub a pool.base / 4096 < page + b.pages := by
  have hp := pool.pages_le
  have hbs := pool.base_lt
  simp only [Block.hasByte, within, decide_eq_true_eq] at ha
  -- The distance from the base is the one to the block and the one in the block.
  have hs : wrappingSub a pool.base = 4096 * page + wrappingSub a b.address := by
    simp only [wrappingSub, u64Size] at ha hlt hp hbs ⊢
    omega
  omega

section
variable (h : pool.Owned live) (hw : pool.NoWrap) (hb : b ∈ live) (ha : b.hasByte a = true)
include h hw hb ha

lemma Owned.hasByte_pool : pool.hasByte a = true := by
  obtain ⟨page, hp, hlt, hle⟩ := h.placed b hb
  have := byte_of_block hle hp (by rw [hp]; exact hw.page_lt hlt) ha
  simp only [hasByte, within, decide_eq_true_eq]
  exact this.1

lemma Owned.hasPage_of_hasByte : b.hasPage pool.base (wrappingSub a pool.base / 4096) = true := by
  obtain ⟨page, hp, hlt, hle⟩ := h.placed b hb
  have hin : b.address < u64Size := by
    rw [hp]
    exact hw.page_lt hlt
  have := byte_of_block hle hp hin ha
  rw [pool.hasPage_of_page hlt hp hin, decide_eq_true_eq]
  exact this.2

end

lemma Owned.pairwise_hasByte (h : pool.Owned live) (hw : pool.NoWrap) :
    live.Pairwise (Apart Block.hasByte) := by
  refine (pairwise_of_cover_le_one h.cover_le_one).imp_of_mem ?_
  intro b c hb hc hap a ha
  exact hap _ ⟨h.hasPage_of_hasByte hw hb ha.1, h.hasPage_of_hasByte hw hc ha.2⟩

lemma Owned.perm {live' : List Block} (h : pool.Owned live) (hp : live.Perm live') :
    pool.Owned live' :=
  ⟨fun b hb => h.placed b (hp.mem_iff.mpr hb), fun p => by rw [← cover_perm _ hp, h.law]⟩

end DmaPool

/-! ## The invariant -/

namespace ProtocolState

/-- A mapping with a large enough bounce buffer, in which memory holds what the device left. -/
structure Bounced (s : ProtocolState) (mapping : Nat) (info : MapInfo) : Prop where
  bytes_le : info.numberOfBytes ≤ 4096 * info.numberOfPages
  address_lt : info.hostAddress < u64Size
  outside : ∀ k < info.numberOfBytes,
    s.io.pool.hasByte (wrappingAdd info.hostAddress k) = false
  content : ∀ k < 4096 * info.numberOfPages,
    s.io.memory (wrappingAdd info.bounceAddress k) = s.left mapping k

structure Recorded (s : ProtocolState) (mapping : Nat) (info : MapInfo) : Prop where
  ne_zero : mapping ≠ 0
  signature : info.signature = mapInfoSig
  bounceUsed : info.bounceUsed = !info.operation.isCommonBufferOperation
  bounced : info.bounceUsed = true → s.Bounced mapping info

structure Inv (s : ProtocolState) : Prop where
  noWrap : s.io.pool.NoWrap
  base_pos : 0 < s.io.pool.base
  owned : s.io.pool.Owned s.blocks
  recorded : ∀ mapping info, s.io.mapInfos.lookup mapping = some info → s.Recorded mapping info

variable {s s' : ProtocolState} {mapping : Nat} {info : MapInfo}
variable {infos : MapInfos} {b c : Block} {a n page i address hostAddress : Nat} {op : Operation}

lemma block_mem_bounceBlocks (hl : infos.lookup mapping = some info)
    (hb : info.bounceUsed = true) : info.block ∈ bounceBlocks infos := by
  refine mem_flatMap.mpr ⟨⟨mapping, info⟩, AList.mem_lookup_iff.mp hl, ?_⟩
  simp [MapInfo.blocks, hb]

lemma block_mem_blocks (hl : s.io.mapInfos.lookup mapping = some info)
    (hb : info.bounceUsed = true) : info.block ∈ s.blocks :=
  mem_append_left _ (block_mem_bounceBlocks hl hb)

lemma Inv.hasByte_offset (h : s.Inv) (hb : b ∈ s.blocks) {k : Nat} (hk : k < 4096 * b.pages) :
    b.hasByte (wrappingAdd b.address k) = true := by
  obtain ⟨page, hpg, hlt, hle⟩ := h.owned.placed b hb
  have hp := s.io.pool.pages_le
  refine within_wrappingAdd ?_ hk (by omega)
  rw [hpg]
  exact h.noWrap.page_lt hlt

/-- A record stays good if the pool, the bounce buffer and what the device left are the same. -/
lemma Recorded.frame (hr : s.Recorded mapping info) (h : s.Inv)
    (hl : s.io.mapInfos.lookup mapping = some info) (hp : s'.io.pool.hasByte = s.io.pool.hasByte)
    (hm : info.bounceUsed = true → ∀ a < u64Size, info.block.hasByte a = true →
      s'.io.memory a = s.io.memory a)
    (hlf : ∀ k, s'.left mapping k = s.left mapping k) : s'.Recorded mapping info where
  ne_zero := hr.ne_zero
  signature := hr.signature
  bounceUsed := hr.bounceUsed
  bounced hb := by
    have ho := hr.bounced hb
    refine ⟨ho.bytes_le, ho.address_lt, ?_, fun k hk => ?_⟩
    · rw [hp]
      exact ho.outside
    · have hs := hm hb _ (wrappingAdd_lt _ _) (h.hasByte_offset (block_mem_blocks hl hb) hk)
      exact hs.trans ((ho.content k hk).trans (hlf k).symm)

lemma ne_of_hasByte {a' : Nat} (ha : b.hasByte a = true) (ha' : b.hasByte a' = false) :
    a ≠ a' := by
  rintro rfl
  rw [ha] at ha'
  contradiction

lemma Inv.block_of_outside (h : s.Inv) (hb : b ∈ s.blocks) (ha : s.io.pool.hasByte a = false) :
    b.hasByte a = false := by
  by_contra hne
  rw [h.owned.hasByte_pool h.noWrap hb (by simpa using hne)] at ha
  contradiction

lemma Inv.block_of_block (h : s.Inv) {rest : List Block} (hp : s.blocks.Perm (b :: rest))
    (hc : c ∈ rest) (ha : b.hasByte a = true) : c.hasByte a = false := by
  have hpr := (h.owned.perm hp).pairwise_hasByte h.noWrap
  have hap := (pairwise_cons.mp hpr).1 c hc a
  simpa [ha] using hap

lemma hasByte_congr {p q : DmaPool} (hb : p.base = q.base) (ht : p.totalPages = q.totalPages) :
    p.hasByte = q.hasByte := by
  funext a
  rw [hasByte, hasByte, hb, ht]

/-- Steps that only change memory outside the live bounce buffers keep the records. -/
lemma Inv.of_frame (h : s.Inv) (hp : s'.io.pool = s.io.pool)
    (hi : s'.io.mapInfos = s.io.mapInfos) (hbf : s'.buffers = s.buffers)
    (hr : ∀ mapping info, s.io.mapInfos.lookup mapping = some info → s'.Recorded mapping info) :
    s'.Inv where
  noWrap := by rw [hp]; exact h.noWrap
  base_pos := by rw [hp]; exact h.base_pos
  owned := by
    have hbl : s'.blocks = s.blocks := by
      rw [blocks, blocks, hi, hbf]
    rw [hp, hbl]
    exact h.owned
  recorded m i hl := hr m i (by rw [← hi]; exact hl)

lemma Inv.write_apart (h : s.Inv) (v : BitVec 8)
    (ho : ∀ info : MapInfo, info.block ∈ bounceBlocks s.io.mapInfos →
      info.block.hasByte address = false) :
    (s.writeByte address v).Inv := by
  refine h.of_frame rfl rfl rfl fun m i hl => ?_
  refine (h.recorded m i hl).frame h hl rfl (fun hb a _ hin => ?_) fun _ => rfl
  have hne := ne_of_hasByte hin (ho i (block_mem_bounceBlocks hl hb))
  simp [writeByte, write, hne]

lemma Inv.writeByte_outside (h : s.Inv) (v : BitVec 8) (ha : s.io.pool.hasByte address = false) :
    (s.writeByte address v).Inv :=
  h.write_apart v fun _ hb => h.block_of_outside (mem_append_left _ hb) ha

lemma buffers_perm (hi : s.buffers[i]? = some b) :
    s.blocks.Perm (b :: (bounceBlocks s.io.mapInfos ++ s.buffers.eraseIdx i)) := by
  obtain ⟨hlt, rfl⟩ := List.getElem?_eq_some_iff.mp hi
  exact ((getElem_cons_eraseIdx_perm hlt).symm.append_left _).trans perm_middle

lemma Inv.writeByte_buffer (h : s.Inv) {offset : Nat} (v : BitVec 8) (hi : s.buffers[i]? = some b)
    (ho : offset < 4096 * b.pages) : (s.writeByte (wrappingAdd b.address offset) v).Inv := by
  have hp := buffers_perm hi
  have hin := h.hasByte_offset (hp.mem_iff.mpr mem_cons_self) ho
  exact h.write_apart v fun _ hb => h.block_of_block hp (mem_append_left _ hb) hin

lemma bounceBlocks_perm (hl : infos.lookup mapping = some info) :
    (bounceBlocks infos).Perm (info.blocks ++ bounceBlocks (infos.erase mapping)) :=
  (AssocList.entries_perm_of_lookup hl).flatMap_right _

lemma blocks_perm (hl : s.io.mapInfos.lookup mapping = some info) (hb : info.bounceUsed = true) :
    s.blocks.Perm (info.block :: (bounceBlocks (s.io.mapInfos.erase mapping) ++ s.buffers)) := by
  have hp := (bounceBlocks_perm hl).append_right s.buffers
  rwa [MapInfo.blocks, if_pos hb] at hp

lemma lookup_of_lookup_erase {m m' : Nat} (h : (infos.erase m).lookup m' = some info) :
    m' ≠ m ∧ infos.lookup m' = some info := by
  have hne : m' ≠ m := by
    rintro rfl
    rw [AList.lookup_erase] at h
    contradiction
  rw [AList.lookup_erase_ne hne] at h
  exact ⟨hne, h⟩

lemma Inv.writeByte_bounce (h : s.Inv) {offset : Nat} (v : BitVec 8)
    (hl : s.io.mapInfos.lookup mapping = some info) (hb : info.bounceUsed = true)
    (ho : offset < 4096 * info.numberOfPages) :
    ProtocolState.Inv { s.writeByte (wrappingAdd info.bounceAddress offset) v with
      left := fun m k => if m = mapping ∧ k = offset then v else s.left m k } := by
  have hmem := block_mem_blocks hl hb
  have hin := h.hasByte_offset hmem ho
  refine h.of_frame rfl rfl rfl fun m i hl' => ?_
  by_cases hm : m = mapping
  · subst hm
    rw [hl] at hl'
    cases hl'
    obtain ⟨hne, hsig, hu, hbn⟩ := h.recorded m info hl
    have hold := hbn hb
    obtain ⟨page, hp, hlt, hle⟩ := h.owned.placed _ hmem
    have hadd : info.bounceAddress < u64Size := by
      rw [show info.bounceAddress = _ from hp]
      exact h.noWrap.page_lt hlt
    have hs : 4096 * info.numberOfPages ≤ u64Size := by
      have := s.io.pool.pages_le
      have : page + info.numberOfPages ≤ s.io.pool.totalPages := hle
      omega
    refine ⟨hne, hsig, hu, fun _ =>
      ⟨hold.bytes_le, hold.address_lt, hold.outside, fun k hk => ?_⟩⟩
    by_cases hk' : k = offset
    · simp [writeByte, write, hk']
    have hne : wrappingAdd info.bounceAddress k ≠ wrappingAdd info.bounceAddress offset :=
      fun he => hk' (wrappingAdd_left_cancel hadd (Nat.lt_of_lt_of_le hk hs)
        (Nat.lt_of_lt_of_le ho hs) he)
    simpa [writeByte, write, hk', hne] using hold.content k hk
  · refine (h.recorded m i hl').frame h hl' rfl (fun hb' a _ ha => ?_) fun k => by simp [hm]
    have hr : i.block ∈ bounceBlocks (s.io.mapInfos.erase mapping) :=
      block_mem_bounceBlocks (by rw [AList.lookup_erase_ne hm]; exact hl') hb'
    have hout := h.block_of_block (blocks_perm hl hb) (mem_append_left _ hr) hin
    have hne : a ≠ wrappingAdd info.bounceAddress offset := ne_of_hasByte ha hout
    simp [writeByte, write, hne]

/-! ## Steps -/

lemma Inv.apart_of_takes (h : s.Inv) (ht : s.io.pool.Takes n page) (hc : c ∈ s.blocks)
    (ha : c.hasByte a = true) :
    within (wrappingAdd s.io.pool.base (4096 * page)) (4096 * n) a = false := by
  have ho := h.owned.allocate h.noWrap ht
  have hp := ho.pairwise_hasByte (show (s.io.pool.setPages page n).NoWrap from h.noWrap)
  have hap := (pairwise_cons.mp hp).1 c hc a
  rw [h.noWrap.wrappingAdd_eq ht.lt, Bool.eq_false_iff]
  intro hin
  exact hap ⟨hin, ha⟩

lemma Inv.map_identity (h : s.Inv) {record : Nat} {left : Nat → Nat → BitVec 8}
    (hc : op.isCommonBufferOperation = true) (hne : record ≠ 0) (hn : record ∉ s.io.mapInfos)
    (hlf : ∀ m, m ≠ record → ∀ k, left m k = s.left m k) :
    ProtocolState.Inv { s with
      io := { s.io with mapInfos := s.io.mapInfos.insert record (.identity op n hostAddress) }
      left := left } where
  noWrap := h.noWrap
  base_pos := h.base_pos
  owned := by
    have hbl : bounceBlocks (s.io.mapInfos.insert record (.identity op n hostAddress)) =
        bounceBlocks s.io.mapInfos := by
      rw [bounceBlocks, AList.entries_insert_of_notMem hn, flatMap_cons]
      rfl
    rw [blocks, hbl]
    exact h.owned
  recorded m i hl := by
    by_cases hm : m = record
    · subst hm
      rw [AList.lookup_insert] at hl
      cases hl
      exact ⟨hne, rfl, by simp [MapInfo.identity, hc], by simp [MapInfo.identity]⟩
    · rw [AList.lookup_insert_ne hm] at hl
      exact (h.recorded m i hl).frame h hl rfl (fun _ _ _ _ => rfl) (hlf m hm)

lemma Inv.map_bounced (h : s.Inv) {record : Nat} {memory : Memory}
    (hc : op.isCommonBufferOperation = false) (hne : record ≠ 0)
    (hn : record ∉ s.io.mapInfos) (hadd : hostAddress < u64Size)
    (hout : ∀ k < n, s.io.pool.hasByte (wrappingAdd hostAddress k) = false)
    (ht : s.io.pool.Takes (bouncePages n) page)
    (hmem : ∀ a, within (wrappingAdd s.io.pool.base (4096 * page)) (4096 * bouncePages n) a =
      false → memory a = s.io.memory a) :
    ProtocolState.Inv { s with
      io := ⟨s.io.pool.setPages page (bouncePages n), memory,
        s.io.mapInfos.insert record (.bounced op n (bouncePages n) hostAddress
          (wrappingAdd s.io.pool.base (4096 * page)))⟩
      left := fun m k =>
        if m = record then memory (wrappingAdd (wrappingAdd s.io.pool.base (4096 * page)) k)
        else s.left m k } where
  noWrap := h.noWrap
  base_pos := h.base_pos
  owned := by
    rw [blocks, bounceBlocks, AList.entries_insert_of_notMem hn, flatMap_cons]
    have ho := h.owned.allocate h.noWrap ht
    rw [← h.noWrap.wrappingAdd_eq ht.lt] at ho
    exact ho
  recorded m i hl := by
    by_cases hm : m = record
    · subst hm
      rw [AList.lookup_insert] at hl
      cases hl
      refine ⟨hne, rfl, by simp [MapInfo.bounced, hc], fun _ =>
        ⟨bytes_le_bouncePages n, hadd, hout, fun k _ => ?_⟩⟩
      simp [MapInfo.bounced]
    · rw [AList.lookup_insert_ne hm] at hl
      refine (h.recorded m i hl).frame h hl (hasByte_congr rfl rfl) (fun hb a _ ha => ?_)
        fun k => by simp [hm]
      exact hmem a (h.apart_of_takes ht (block_mem_blocks hl hb) ha)

lemma Bounced.within_eq_false (hr : s.Bounced mapping info) (h : s.Inv) (hc : c ∈ s.blocks)
    (hlt : a < u64Size) (ha : c.hasByte a = true) :
    within info.hostAddress info.numberOfBytes a = false := by
  by_contra hin
  simp only [within, decide_eq_false_iff_not, not_not] at hin
  have ho := hr.outside _ hin
  rw [wrappingAdd_wrappingSub hlt hr.address_lt] at ho
  rw [h.owned.hasByte_pool h.noWrap hc ha] at ho
  contradiction

lemma Inv.unmap (h : s.Inv) (hl : s.io.mapInfos.lookup mapping = some info) :
    ProtocolState.Inv { s with io := (s.io.gunyahIoMmuUnmap mapping).2 } := by
  have hr := h.recorded mapping info hl
  rw [unmap_of_lookup hr.ne_zero hl hr.signature]
  have hrc : ∀ (pool : DmaPool) m i, pool.base = s.io.pool.base →
      pool.totalPages = s.io.pool.totalPages →
      (s.io.mapInfos.erase mapping).lookup m = some i →
      ProtocolState.Recorded { s with
        io := { pool := pool
                memory :=
                  if info.bounceUsed && !info.operation.isBusMasterReadOperation then
                    s.io.memory.copyMem info.hostAddress info.bounceAddress info.numberOfBytes
                  else s.io.memory
                mapInfos := s.io.mapInfos.erase mapping } } m i := by
    intro pool m i hbs ht hli
    obtain ⟨hm, hli⟩ := lookup_of_lookup_erase hli
    refine (h.recorded m i hli).frame h hli (hasByte_congr hbs ht)
      (fun hb a hlt ha => ?_) fun _ => rfl
    split
    · rename_i hc
      have hu : info.bounceUsed = true := by simp_all
      exact copyMem_outside ((hr.bounced hu).within_eq_false h (block_mem_blocks hli hb) hlt ha)
    · rfl
  cases hb : info.bounceUsed with
  | false =>
    simp only [hb, Bool.false_and, Bool.false_eq_true, ↓reduceIte] at hrc ⊢
    refine ⟨h.noWrap, h.base_pos, h.owned.perm ?_, fun m i => hrc s.io.pool m i rfl rfl⟩
    have hp := (bounceBlocks_perm hl).append_right s.buffers
    rw [MapInfo.blocks, hb] at hp
    exact hp
  | true =>
    obtain ⟨hbs, ht⟩ := s.io.pool.freePages_frame info.numberOfPages info.bounceAddress
    simp only [hb, ↓reduceIte] at hrc ⊢
    refine ⟨?_, ?_, h.owned.free h.noWrap (blocks_perm hl hb),
      fun m i => hrc _ m i hbs ht⟩
    · rw [DmaPool.NoWrap, hbs, ht]
      exact h.noWrap
    · rw [hbs]
      exact h.base_pos

lemma Inv.allocateBuffer (h : s.Inv) {pages : Nat} (ht : s.io.pool.Takes pages page) :
    ProtocolState.Inv { s with
      io := { s.io with
        pool := s.io.pool.setPages page pages
        memory := s.io.memory.zeroMem (wrappingAdd s.io.pool.base (4096 * page))
          (efiPagesToSize pages) }
      buffers := ⟨wrappingAdd s.io.pool.base (4096 * page), pages⟩ :: s.buffers } where
  noWrap := h.noWrap
  base_pos := h.base_pos
  owned := by
    rw [h.noWrap.wrappingAdd_eq ht.lt]
    exact (h.owned.allocate h.noWrap ht).perm perm_middle.symm
  recorded m i hl := by
    refine (h.recorded m i hl).frame h hl (hasByte_congr rfl rfl) (fun hb a _ ha => ?_) fun _ => rfl
    have ho := h.apart_of_takes ht (block_mem_blocks hl hb) ha
    have hs : efiPagesToSize pages ≤ 4096 * pages := by
      rw [efiPagesToSize_eq, Nat.mul_comm]
      exact Nat.mod_le _ _
    dsimp only
    refine zeroMem_outside ?_
    simp only [within, decide_eq_false_iff_not] at ho ⊢
    omega

lemma Inv.freeBuffer (h : s.Inv) (hi : s.buffers[i]? = some b) :
    s.io.gunyahIoMmuFreeBuffer b.pages b.address =
      (.success, { s.io with pool := s.io.pool.dmaPoolFreePages b.pages b.address }) ∧
    ProtocolState.Inv { s with
      io := { s.io with pool := s.io.pool.dmaPoolFreePages b.pages b.address }
      buffers := s.buffers.eraseIdx i } := by
  have hp := buffers_perm hi
  obtain ⟨page, hpg, _, _⟩ := h.owned.placed b (hp.mem_iff.mpr mem_cons_self)
  have hne : b.address ≠ 0 := by
    have := h.base_pos
    omega
  obtain ⟨hbs, ht⟩ := s.io.pool.freePages_frame b.pages b.address
  refine ⟨by simp [gunyahIoMmuFreeBuffer, hne], ?_, ?_,
    h.owned.free h.noWrap hp, fun m info hl => ?_⟩
  · rw [DmaPool.NoWrap, hbs, ht]
    exact h.noWrap
  · rw [hbs]
    exact h.base_pos
  · exact (h.recorded m info hl).frame h hl (hasByte_congr hbs ht) (fun _ _ _ _ => rfl)
      fun _ => rfl

lemma step_inv {op : Op} (h : s.Inv) (hs : s.step op = some s') : s'.Inv := by
  cases op with
  | map args =>
    simp only [step] at hs
    split_ifs at hs with hal
    rcases s.io.map_cases args with ⟨e, heq⟩ | ⟨n, op, record, hn, hop, hr, hc⟩
    · rw [heq] at hs
      cases hs
      exact h
    · obtain ⟨hne, hnew⟩ := hal.fresh record hr
      rcases hc with ⟨hcom, heq⟩ | ⟨page, hcom, ht, heq⟩
      · rw [heq] at hs
        cases hs
        exact h.map_identity hcom hne hnew fun m hm k => by simp [hm]
      · rw [heq] at hs
        cases hs
        have hout := hal.outside
        simp only [hop, any_some, hcom, Bool.false_eq_true, false_or] at hout
        refine h.map_bounced hcom hne hnew hal.address_lt (hout n hn) ht fun a ha => ?_
        split
        · refine copyMem_outside ?_
          have hle := bytes_le_bouncePages n
          simp only [within, decide_eq_false_iff_not] at ha ⊢
          omega
        · rfl
  | unmap mapping =>
    simp only [step] at hs
    split_ifs at hs with hlv
    cases hs
    rcases hlv with rfl | hmem
    · exact h
    · obtain ⟨info, hl⟩ := isSome_iff_exists.mp (AList.lookup_isSome.mpr hmem)
      exact h.unmap hl
  | allocateBuffer pages hostAddress attributes =>
    simp only [step] at hs
    rcases s.io.allocateBuffer_cases pages hostAddress attributes with ⟨e, heq⟩ | ⟨page, ht, heq⟩
    all_goals rw [heq] at hs
    all_goals cases hs
    · exact h
    · exact h.allocateBuffer ht
  | freeBuffer i =>
    simp only [step, map_eq_some_iff] at hs
    obtain ⟨b, hi, hs⟩ := hs
    obtain ⟨heq, hinv⟩ := h.freeBuffer hi
    simp only [heq] at hs
    subst hs
    exact hinv
  | deviceWriteMapping mapping offset v =>
    simp only [step, bind_eq_some_iff] at hs
    obtain ⟨info, hl, hs⟩ := hs
    split_ifs at hs with hb ho hout
    all_goals cases hs
    · exact h.writeByte_bounce v hl hb ho
    · exact h.writeByte_outside v hout.2
  | deviceWriteBuffer i offset v =>
    simp only [step, bind_eq_some_iff] at hs
    obtain ⟨b, hi, hs⟩ := hs
    split_ifs at hs with ho
    cases hs
    exact h.writeByte_buffer v hi ho
  | hostWrite address v =>
    simp only [step] at hs
    split_ifs at hs with hout
    cases hs
    exact h.writeByte_outside v hout

/-! ## Whole runs -/

lemma Inv.correct (h : s.Inv) : s.Correct where
  no_overlap := h.owned.pairwise_hasByte h.noWrap
  read_map args n op device mapping io hal hn hop hrd heq k hk := by
    rcases s.io.map_cases args with ⟨e, he⟩ | ⟨n', op', record, hn', hop', _, hc⟩
    · rw [he] at heq
      simp at heq
    · rw [hn] at hn'
      rw [hop] at hop'
      cases hn'
      cases hop'
      rcases hc with ⟨hcom, _⟩ | ⟨page, hcom, ht, he⟩
      · cases op <;> simp [isBusMasterReadOperation,
          isCommonBufferOperation] at hrd hcom
      · rw [he] at heq
        simp only [hrd, ↓reduceIte, Prod.mk.injEq, Except.ok.injEq] at heq
        obtain ⟨⟨rfl, rfl⟩, rfl⟩ := heq
        have hlt := hal.bytes_lt n hn
        refine ⟨copyMem_wrappingAdd _ (wrappingAdd_lt _ _) hk (Nat.le_of_lt hlt),
          copyMem_outside ?_⟩
        have ho := hal.outside
        simp only [hop, any_some, hcom, Bool.false_eq_true, false_or] at ho
        -- The bounce buffer is in the pool, the bytes of the host are not.
        have hpl := ho n hn k hk
        rw [Bool.eq_false_iff] at hpl ⊢
        intro hin
        refine hpl ((h.owned.allocate h.noWrap ht).hasByte_pool h.noWrap mem_cons_self ?_)
        rw [← h.noWrap.wrappingAdd_eq ht.lt]
        exact within_mono (bytes_le_bouncePages n) hin
  unmap_write mapping info hl hop := by
    have hr := h.recorded mapping info hl
    have hcom : info.operation.isCommonBufferOperation = false ∧
        info.operation.isBusMasterReadOperation = false := by
      rcases hop with hop | hop <;> rw [hop] <;> exact ⟨rfl, rfl⟩
    have hb : info.bounceUsed = true := by rw [hr.bounceUsed, hcom.1]; rfl
    refine ⟨_, unmap_of_lookup hr.ne_zero hl hr.signature, fun a _ => ?_⟩
    simp only [hb, hcom.2, Bool.not_false, Bool.and_self, ↓reduceIte, copyMem]
    split
    · rename_i hin
      have hold := hr.bounced hb
      simp only [within, decide_eq_true_eq] at hin
      exact hold.content _ (Nat.lt_of_lt_of_le hin hold.bytes_le)
    · rfl
  unmap_other mapping info hl hop := by
    have hr := h.recorded mapping info hl
    refine ⟨_, unmap_of_lookup hr.ne_zero hl hr.signature, ?_⟩
    rcases hop with hop | hop
    · simp [hop]
    · simp [hr.bounceUsed, hop]
  map_error args e io heq := by
    rcases s.io.map_cases args with ⟨_, he⟩ | ⟨_, _, _, _, _, _, ⟨_, he⟩ | ⟨_, _, _, he⟩⟩ <;>
      rw [he] at heq <;> cases heq
    rfl
  unmap_error mapping e io heq hne := by
    simp only [gunyahIoMmuUnmap] at heq
    repeat' split at heq
    all_goals cases heq
    all_goals first | rfl | exact absurd rfl hne
  allocateBuffer_error pages hostAddress attributes e io heq := by
    rcases s.io.allocateBuffer_cases pages hostAddress attributes with ⟨_, he⟩ | ⟨_, _, he⟩ <;>
      rw [he] at heq <;> cases heq
    rfl
  freeBuffer_error pages hostAddress e io heq hne := by
    simp only [gunyahIoMmuFreeBuffer] at heq
    split at heq <;> cases heq
    · rfl
    · exact absurd rfl hne
  released hi hbf p hp := by
    have hlaw := h.owned.law p
    rw [blocks, hi, hbf] at hlaw
    by_contra hbit
    rw [if_pos ⟨hp, by simpa using hbit⟩] at hlaw
    exact Nat.zero_ne_one hlaw

end ProtocolState

section Fresh
variable {pool : DmaPool} (memory : Memory) (left : Nat → Nat → BitVec 8)

def ProtocolState.init (pool : DmaPool) (memory : Memory) (left : Nat → Nat → BitVec 8) :
    ProtocolState :=
  ⟨⟨pool, memory, ∅⟩, [], left⟩

lemma ProtocolState.init_inv (hclear : ∀ p, pool.bitmapTestBit p = false)
    (hbs : 0 < pool.base) (hw : pool.NoWrap) : (init pool memory left).Inv :=
  ⟨hw, hbs, owned_nil_of_clear hclear, fun m i hl => by simp [init] at hl⟩

lemma page_le_base_of_wrap (hw : ¬ pool.NoWrap) (hlt : 4096 * pool.totalPages < u64Size) :
    4096 ≤ pool.base := by
  simp only [DmaPool.NoWrap, u64Size] at hw hlt ⊢
  omega

/-- The arguments of a mapping for writing one byte, just below the pool. -/
def writeBelow (pool : DmaPool) : IoMmu.MapArgs := ⟨1, pool.base - 1, some 1, true, true, some 1⟩

lemma hasByte_below (hpos : 0 < pool.base) (hlt : 4096 * pool.totalPages < u64Size) :
    pool.hasByte (wrappingAdd (pool.base - 1) 0) = false := by
  have hb := pool.base_lt
  rw [hasByte, within, decide_eq_false_iff_not]
  simp only [wrappingSub, wrappingAdd, u64Size] at hb hlt ⊢
  omega

/-- The record of this mapping when its bounce buffer is the last page. -/
def lastPageInfo (pool : DmaPool) : MapInfo :=
  .bounced .busMasterWrite 1 1 (pool.base - 1)
    (wrappingAdd pool.base (4096 * (pool.totalPages - 1)))

section Wrap
variable (hclear : ∀ p, pool.bitmapTestBit p = false) (hpos : 0 < pool.totalPages)
  (hw : ¬ pool.NoWrap) (hlt : 4096 * pool.totalPages < u64Size) (buffers : List Block)

include hclear hw in
lemma step_allocate_front : ∃ m, ProtocolState.step (.init pool memory left)
    (.allocateBuffer (pool.totalPages - 1) true 0) = some
      ⟨⟨pool.setPages 0 (pool.totalPages - 1), m, ∅⟩, [⟨pool.base, pool.totalPages - 1⟩],
        left⟩ := by
  have hf := takes_front hclear (front_fits hw)
  have hbs : wrappingAdd pool.base (4096 * 0) = pool.base := wrappingAdd_of_lt pool.base_lt
  refine ⟨memory.zeroMem pool.base (efiPagesToSize (pool.totalPages - 1)), ?_⟩
  simp only [ProtocolState.step, ProtocolState.init, gunyahIoMmuAllocateBuffer,
    allocatePages_of_takes hf, hbs]
  rfl

include hclear hpos hw hlt in
lemma step_map_last : ∃ left', ProtocolState.step
    ⟨⟨pool.setPages 0 (pool.totalPages - 1), memory, ∅⟩, buffers, left⟩ (.map (writeBelow pool)) =
      some ⟨⟨filled pool, memory, AList.insert 1 (lastPageInfo pool) ∅⟩, buffers, left'⟩ := by
  have hge := page_le_base_of_wrap hw hlt
  have hl := takes_last hclear hpos
  have hal : ProtocolState.MapAllowed
      ⟨⟨pool.setPages 0 (pool.totalPages - 1), memory, ∅⟩, buffers, left⟩ (writeBelow pool) := by
    refine ⟨by simp [writeBelow], ?_, by simp [writeBelow, u64Size], Or.inr ?_⟩
    · have := pool.base_lt
      simp only [writeBelow]
      omega
    · intro n hn k hk
      cases hn
      rw [Nat.lt_one_iff.mp hk]
      exact hasByte_below (Nat.lt_of_lt_of_le (by decide) hge) hlt
  have hne : ¬ pool.base - 1 = 0 := by omega
  have hp : bouncePages 1 = 1 := by decide
  have hm : gunyahIoMmuMap ⟨pool.setPages 0 (pool.totalPages - 1), memory, ∅⟩
      (writeBelow pool) = (.ok (wrappingAdd pool.base (4096 * (pool.totalPages - 1)), 1),
        ⟨filled pool, memory, AList.insert 1 (lastPageInfo pool) ∅⟩) := by
    simp only [gunyahIoMmuMap, writeBelow, hne, ofNat?, hp,
      allocatePages_of_takes hl, isCommonBufferOperation,
      isBusMasterReadOperation]
    rfl
  simp only [ProtocolState.step, if_pos hal, hm]
  exact ⟨_, rfl⟩

include hw in
lemma step_unmap_last : ∃ m, ProtocolState.step
    ⟨⟨filled pool, memory, AList.insert 1 (lastPageInfo pool) ∅⟩, buffers, left⟩ (.unmap 1) =
      some ⟨⟨filled pool, m, ∅⟩, buffers, left⟩ := by
  have hl : 1 ∈ (AList.insert 1 (lastPageInfo pool) ∅ : MapInfos) :=
    AList.mem_insert _ |>.mpr (Or.inl rfl)
  have hu : gunyahIoMmuUnmap ⟨filled pool, memory, AList.insert 1 (lastPageInfo pool) ∅⟩ 1
      = (.success, ⟨(filled pool).dmaPoolFreePages 1
          (wrappingAdd pool.base (4096 * (pool.totalPages - 1))),
        memory.copyMem (pool.base - 1) (wrappingAdd pool.base (4096 * (pool.totalPages - 1))) 1,
        ∅⟩) := rfl
  simp only [ProtocolState.step, if_pos (Or.inr hl), hu, filled_free_last hw]
  exact ⟨_, rfl⟩

lemma step_free_front (pool : DmaPool) (hne : pool.base ≠ 0) : ProtocolState.step
    ⟨⟨filled pool, memory, ∅⟩, [⟨pool.base, pool.totalPages - 1⟩], left⟩ (.freeBuffer 0) =
      some ⟨⟨(filled pool).clearPages 0 (pool.totalPages - 1), memory, ∅⟩, [], left⟩ := by
  have hle : 0 + (pool.totalPages - 1) ≤ (filled pool).totalPages := by
    simp [filled]
  have hf : (filled pool).dmaPoolFreePages (pool.totalPages - 1) pool.base =
      (filled pool).clearPages 0 (pool.totalPages - 1) := freePages_of_page hle
  simp only [ProtocolState.step, getElem?_cons_zero, map_some,
    gunyahIoMmuFreeBuffer, hne, ↓reduceIte, hf, eraseIdx_cons_zero]

include hclear hpos hw hlt in
lemma protocol_run_of_wrap : ∃ s, run ProtocolState.step
      [.allocateBuffer (pool.totalPages - 1) true 0, .map (writeBelow pool), .unmap 1,
        .freeBuffer 0] (.init pool memory left) = some s ∧
    s.io.mapInfos = ∅ ∧ s.buffers = [] ∧ s.io.pool.totalPages = pool.totalPages ∧
    s.io.pool.bitmapTestBit (pool.totalPages - 1) = true := by
  obtain ⟨m₁, h₁⟩ := step_allocate_front memory left hclear hw
  obtain ⟨left₂, h₂⟩ := step_map_last m₁ left hclear hpos hw hlt [⟨pool.base, pool.totalPages - 1⟩]
  obtain ⟨m₃, h₃⟩ := step_unmap_last m₁ left₂ hw [⟨pool.base, pool.totalPages - 1⟩]
  have hge := page_le_base_of_wrap hw hlt
  have h₄ := step_free_front m₃ left₂ pool (by omega)
  refine ⟨⟨⟨(filled pool).clearPages 0 (pool.totalPages - 1), m₃, ∅⟩, [], left₂⟩,
    by simp only [run_cons, h₁, h₂, h₃, h₄, bind_some, run_nil], rfl, rfl, rfl, ?_⟩
  rw [testBit_clearPages _ (by simp [filled]), testBit_filled hpos]
  simp

end Wrap

/-- **The bounce buffer protocol.** Over a pool of whole pages, every run is
correct exactly when every page of the pool starts inside the address space. -/
theorem protocol_correct_iff (fdt : FdtClient) (allocated : Bool)
    (h : dmaPoolInit fdt allocated = .ok pool) (hsize : fdt.poolSize % 4096 = 0) :
    (∀ ops s, run ProtocolState.step ops (.init pool memory left) = some s → s.Correct) ↔
      fdt.regBase + 4096 * (efiSizeToPages fdt.poolSize - 1) < u64Size := by
  obtain ⟨hbs, hp, _, hclear⟩ := dmaPoolInit_spec h
  have hpos := totalPages_pos h
  rw [← hbs, ← hp]
  constructor
  · intro hall
    by_contra hw
    have hlt : 4096 * pool.totalPages < u64Size := by
      have hrnd := size_le_efiSizeToPages fdt.poolSize
      have hsz : fdt.poolSize < u64Size := (swapBytes64 fdt.regProp.2).isLt
      omega
    obtain ⟨s, hr, hi, hbf, ht, hbit⟩ := protocol_run_of_wrap memory left hclear hpos hw hlt
    rw [(hall _ s hr).released hi hbf _ (by omega)] at hbit
    contradiction
  · intro hw ops s hr
    exact (run_invariant ProtocolState.Inv (fun _ _ _ => ProtocolState.step_inv) ops _ s
      (ProtocolState.init_inv memory left hclear (dmaPoolInit_base_pos h) hw) hr).correct

theorem protocol_correct_iff_two_pages : ∃ pool,
    dmaPoolInit (fdtWithReg 0x80000000 0x2000) true = .ok pool ∧
    (fdtWithReg 0x80000000 0x2000).poolSize % 4096 = 0 ∧
    ((∀ ops s, run ProtocolState.step ops (.init pool (fun _ => 0) fun _ _ => 0) = some s →
      s.Correct) ↔ (fdtWithReg 0x80000000 0x2000).regBase +
        4096 * (efiSizeToPages (fdtWithReg 0x80000000 0x2000).poolSize - 1) < u64Size) :=
  ⟨_, rfl, by decide, protocol_correct_iff _ _ _ true rfl (by decide)⟩

/-- Two pages at the end of the address space. The common buffer is the first
page and the bounce buffer the second one, at address 0. After both were
released the bit of the second page is set. -/
theorem wrapped_bounce_leaks : ∃ pool s,
    dmaPoolInit (fdtWithReg 0xfffffffffffff000 0x2000) true = .ok pool ∧
    run ProtocolState.step
      [.allocateBuffer 1 true 0, .map ⟨1, 0x10000, some 1, true, true, some 1⟩, .unmap 1,
        .freeBuffer 0] (.init pool (fun _ => 0) fun _ _ => 0) = some s ∧
    s.io.mapInfos.entries = [] ∧ s.buffers = [] ∧ s.io.pool.bitmapTestBit 1 = true :=
  ⟨_, _, rfl, rfl, rfl, rfl, by decide⟩

end Fresh

end GunyahVmm.Dma
