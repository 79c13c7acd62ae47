import GunyahVmm.Resources.AddressRange
import GunyahVmm.VmMemory.HostAccess

/-! Loading an ELF kernel: `load_elf`. The range goes from the first loadable header to the end of
the last. -/

namespace GunyahVmm.KernelLoader
open List Run Outcome Resources VmMemory

inductive Error where
  | readHeader
  | invalidMagicNumber
  | bigEndianOnLittle
  | invalidElfVersion
  | invalidElfClass
  | invalidProgramHeaderSize
  | invalidProgramHeaderOffset
  | readProgramHeader
  | programHeaderAddressOutOfRange
  | invalidProgramHeaderMemSize
  | readKernelImage
  | noLoadableProgramHeaders
  | invalidEntryPoint
  deriving DecidableEq

inductive ElfClass where
  | elf32
  | elf64
  deriving DecidableEq

/-! ## The headers -/

structure ProgramHeader where
  type : BitVec 32
  offset : Nat
  paddr : Nat
  filesz : Nat
  memsz : Nat
  deriving DecidableEq

structure Elf64 where
  entry : Nat
  programHeaders : List ProgramHeader
  deriving DecidableEq

namespace ElfClass

def fileHeaderSize : ElfClass → Nat
  | elf32 => 52
  | elf64 => 64

def programHeaderSize : ElfClass → Nat
  | elf32 => 32
  | elf64 => 56

variable (b : Nat → BitVec 8)

/-- The program header at an offset, each field at its place in the format of the class. -/
def programHeader (k : Nat) : ElfClass → ProgramHeader
  | elf32 => ⟨le32 b k, (le32 b (k + 4)).toNat, (le32 b (k + 12)).toNat, (le32 b (k + 16)).toNat,
    (le32 b (k + 20)).toNat⟩
  | elf64 => ⟨le32 b k, (le64 b (k + 8)).toNat, (le64 b (k + 24)).toNat, (le64 b (k + 32)).toNat,
    (le64 b (k + 40)).toNat⟩

/-- `e_entry`, `e_phoff`, `e_phentsize` and `e_phnum`. -/
def fileHeader : ElfClass → Nat × Nat × Nat × Nat
  | elf32 => ((le32 b 24).toNat, (le32 b 28).toNat, (le16 b 42).toNat, (le16 b 44).toNat)
  | elf64 => ((le64 b 24).toNat, (le64 b 32).toNat, (le16 b 54).toNat, (le16 b 56).toNat)

end ElfClass

def readElfByType (image : List (BitVec 8)) (c : ElfClass) : Outcome Error Elf64 :=
  let b := fun i => image.getD i 0
  let (entry, phoff, phentsize, phnum) := c.fileHeader b
  if image.length < c.fileHeaderSize then err .readHeader
  else if phentsize ≠ c.programHeaderSize then err .invalidProgramHeaderSize
  else if phoff < c.fileHeaderSize then err .invalidProgramHeaderOffset
  else if phnum ≠ 0 ∧ image.length < phoff + phnum * c.programHeaderSize then
    err .readProgramHeader
  else ok ⟨entry, (range phnum).map fun i => c.programHeader b (phoff + i * c.programHeaderSize)⟩

def readElf (image : List (BitVec 8)) (requiredClass : Option ElfClass) : Outcome Error Elf64 :=
  if image.length < 16 then err .readHeader
  else if image.take 4 ≠ [0x7F, 0x45, 0x4C, 0x46] then err .invalidMagicNumber
  else if image.getD 5 0 ≠ 1 then err .bigEndianOnLittle
  else if image.getD 6 0 ≠ 1 then err .invalidElfVersion
  else
    let eiClass : Option ElfClass :=
      if image.getD 4 0 = 1 then some .elf32 else if image.getD 4 0 = 2 then some .elf64 else none
    if requiredClass.isSome ∧ eiClass ≠ requiredClass then err .invalidElfClass
    else match eiClass with
      | some c => readElfByType image c
      | none => err .invalidElfClass

/-! ## Loading -/

/-- The variables of the loop, and what was written to the guest: addresses with bytes. -/
structure Progress where
  start : Option Nat
  stop : Nat
  written : List (Nat × List (BitVec 8))

structure LoadedKernel where
  addressRange : AddressRange
  size : Nat
  entry : Nat
  written : List (Nat × List (BitVec 8))

def ProgramHeader.isLoad (ph : ProgramHeader) : Bool := ph.type == 1

def okOr {α : Type} (e : Error) : Option α → Outcome Error α
  | some a => ok a
  | none => err e

def fromStartAndSize (start size : Nat) : Option AddressRange :=
  if size = 0 then some .empty else (checkedAdd start (size - 1)).map (AddressRange.mk start)

section
variable (mem : GuestMemory) (kernelStart : Nat) (image : List (BitVec 8)) (physOffset : Nat)

def loadHeader (s : Progress) (ph : ProgramHeader) : Outcome Error Progress :=
  if !ph.isLoad then ok s
  else do
    let paddr ← okOr .programHeaderAddressOutOfRange (checkedAdd ph.paddr physOffset)
    if paddr < kernelStart then err .programHeaderAddressOutOfRange
    else
      let stop ← okOr .invalidProgramHeaderMemSize (checkedAdd paddr ph.memsz)
      let start := s.start.or (some paddr)
      if ph.filesz = 0 then ok { s with start, stop }
      else match mem.getSliceAtAddr paddr ph.filesz with
        | .panic => .panic
        | .err _ => err .readKernelImage
        | .ok _ =>
          if image.length < ph.offset + ph.filesz then err .readKernelImage
          else ok ⟨start, stop, s.written ++ [(paddr, (image.drop ph.offset).take ph.filesz)]⟩

def loadElfForClass (eiClass : Option ElfClass) : Outcome Error LoadedKernel := do
  let elf ← readElf image eiClass
  let s ← elf.programHeaders.foldlM (loadHeader mem kernelStart image physOffset) ⟨none, 0, []⟩
  let start ← okOr .noLoadableProgramHeaders s.start
  let size ← okOr .invalidProgramHeaderSize (checkedSub s.stop start)
  let addressRange ← okOr .invalidProgramHeaderSize (fromStartAndSize start size)
  let entry ← okOr .invalidEntryPoint (checkedAdd elf.entry physOffset)
  if addressRange.contains entry then ok ⟨addressRange, size, entry, s.written⟩
  else err .invalidEntryPoint

def loadElf : Outcome Error LoadedKernel := loadElfForClass mem kernelStart image physOffset none

end

/-! ## The range -/

variable {mem : GuestMemory} {kernelStart physOffset : Nat} {image : List (BitVec 8)}

def loadable (phs : List ProgramHeader) : List ProgramHeader := phs.filter (·.isLoad)

/-- Where a header is loaded, and where its memory ends. -/
def ProgramHeader.bounds (ph : ProgramHeader) (physOffset : Nat) : Nat × Nat :=
  (ph.paddr + physOffset, ph.paddr + physOffset + ph.memsz)

/-- The first header is lowest, and the last one ends highest, also above all file parts. -/
structure InOrder (phs : List ProgramHeader) : Prop where
  first : ∀ f ∈ phs.head?, ∀ ph ∈ phs, f.paddr ≤ ph.paddr
  last : ∀ l ∈ phs.getLast?, ∀ ph ∈ phs, ph.paddr + ph.memsz ≤ l.paddr + l.memsz
  filesz : ∀ l ∈ phs.getLast?, ∀ ph ∈ phs, ph.paddr + ph.filesz ≤ l.paddr + l.memsz

/-- What was written for the file part of a header. -/
def ProgramHeader.Loads (ph : ProgramHeader) (physOffset : Nat)
    (w : Nat × List (BitVec 8)) : Prop :=
  w.1 = (ph.bounds physOffset).1 ∧ w.2.length = ph.filesz

lemma okOr_eq_ok {α : Type} {e : Error} {x : Option α} {a : α} :
    okOr e x = ok a ↔ x = some a := by
  cases x <;> simp [okOr]

lemma loadHeader_eq_ok {s s' : Progress} {ph : ProgramHeader} (hl : ph.isLoad = true)
    (h : loadHeader mem kernelStart image physOffset s ph = ok s') :
    s'.start = s.start.or (some (ph.bounds physOffset).1) ∧ s'.stop = (ph.bounds physOffset).2 ∧
      ∃ new, s'.written = s.written ++ new ∧ (∀ w ∈ new, ph.Loads physOffset w) ∧
        (ph.filesz ≠ 0 → new ≠ []) := by
  simp only [loadHeader, hl, Bool.not_true, Bool.false_eq_true, if_false] at h
  obtain ⟨paddr, hp, h⟩ := bind_eq_ok.mp h
  obtain ⟨-, rfl⟩ := checkedAdd_eq_some.mp (okOr_eq_ok.mp hp)
  split at h
  · cases h
  obtain ⟨stop, hs, h⟩ := bind_eq_ok.mp h
  obtain ⟨-, rfl⟩ := checkedAdd_eq_some.mp (okOr_eq_ok.mp hs)
  split at h
  · rename_i hz
    cases h
    exact ⟨rfl, rfl, [], (append_nil _).symm, forall_mem_nil _, absurd hz⟩
  split at h
  · cases h
  · cases h
  split at h
  · cases h
  · rename_i hlen
    cases h
    refine ⟨rfl, rfl, _, rfl, forall_mem_singleton.mpr ⟨rfl, ?_⟩, fun _ => cons_ne_nil _ _⟩
    rw [length_take, length_drop]
    omega

/-- The loop: the first header gives the start and the last one the end. -/
lemma foldlM_loadHeader {phs : List ProgramHeader} {s s' : Progress}
    (h : phs.foldlM (loadHeader mem kernelStart image physOffset) s = ok s') :
    s'.start = s.start.or ((loadable phs).head?.map fun ph => (ph.bounds physOffset).1) ∧
      s'.stop = ((loadable phs).getLast?.map fun ph => (ph.bounds physOffset).2).getD s.stop ∧
      ∃ new, s'.written = s.written ++ new ∧
        (∀ w ∈ new, ∃ ph ∈ loadable phs, ph.Loads physOffset w) ∧
        ∀ ph ∈ loadable phs, ph.filesz ≠ 0 → ∃ w ∈ new, ph.Loads physOffset w := by
  induction phs generalizing s with
  | nil =>
    cases h
    simp [loadable]
  | cons ph phs ih =>
    rw [foldlM_cons] at h
    obtain ⟨t, ht, h⟩ := bind_eq_ok.mp h
    obtain ⟨hstart, hstop, new, hw, hnew, hall⟩ := ih h
    by_cases hl : ph.isLoad = true
    · obtain ⟨hs, he, own, ho, hown, hne⟩ := loadHeader_eq_ok hl ht
      have hc : loadable (ph :: phs) = ph :: loadable phs := filter_cons_of_pos hl
      rw [hc]
      refine ⟨?_, ?_, own ++ new, by rw [hw, ho, append_assoc], ?_, ?_⟩
      · rw [hstart, hs]
        cases s.start <;> simp
      · rw [hstop, he, getLast?_cons]
        cases (loadable phs).getLast? <;> simp
      · refine forall_mem_append.mpr ⟨fun w hm => ⟨ph, mem_cons_self, hown w hm⟩, fun w hm => ?_⟩
        exact (hnew w hm).imp fun _ hp => ⟨mem_cons_of_mem _ hp.1, hp.2⟩
      · refine forall_mem_cons.mpr ⟨fun hz => ?_, fun ph' hp hz => ?_⟩
        · obtain ⟨w, hm⟩ := exists_mem_of_ne_nil own (hne hz)
          exact ⟨w, mem_append_left _ hm, hown w hm⟩
        · exact (hall ph' hp hz).imp fun _ hm => ⟨mem_append_right _ hm.1, hm.2⟩
    · have hc : loadable (ph :: phs) = loadable phs := filter_cons_of_neg hl
      simp only [loadHeader, hl, Bool.not_false, if_true] at ht
      cases ht
      rw [hc]
      exact ⟨hstart, hstop, new, hw, hnew, hall⟩

lemma range_of_contains {start stop size entry : Nat} {r : AddressRange}
    (hs : checkedSub stop start = some size) (hr : fromStartAndSize start size = some r)
    (he : r.contains entry = true) : r.start = start ∧ r.stop + 1 = stop := by
  simp only [checkedSub, Option.ite_none_right_eq_some, Option.some.injEq] at hs
  obtain ⟨hle, rfl⟩ := hs
  rw [fromStartAndSize] at hr
  split_ifs at hr with hz
  · cases hr
    simp [AddressRange.empty] at he
    omega
  · obtain ⟨e, he', rfl⟩ := Option.map_eq_some_iff.mp hr
    obtain ⟨-, rfl⟩ := checkedAdd_eq_some.mp he'
    exact ⟨rfl, by dsimp only; omega⟩

/-- **The returned range** goes from the lowest address to the highest one, with all that was
written and the entry point, exactly if the headers are in order. -/
theorem range_covers_iff {elf : Elf64} {k : LoadedKernel} (helf : readElf image none = ok elf)
    (h : loadElf mem kernelStart image physOffset = ok k) :
    (IsLeast {a | ∃ ph ∈ loadable elf.programHeaders, a = (ph.bounds physOffset).1}
        k.addressRange.start ∧
      IsGreatest {a | ∃ ph ∈ loadable elf.programHeaders, a = (ph.bounds physOffset).2}
        (k.addressRange.stop + 1) ∧
      (∀ w ∈ k.written, ∀ i < w.2.length, k.addressRange.contains (w.1 + i) = true) ∧
      k.addressRange.contains k.entry = true) ↔ InOrder (loadable elf.programHeaders) := by
  rw [loadElf, loadElfForClass, helf, ok_bind] at h
  obtain ⟨s, hs, h⟩ := bind_eq_ok.mp h
  obtain ⟨hstart, hstop, new, hw, hnew, hall⟩ := foldlM_loadHeader hs
  obtain rfl : s.written = new := hw
  obtain ⟨start, hst, h⟩ := bind_eq_ok.mp h
  obtain ⟨size, hsize, h⟩ := bind_eq_ok.mp h
  obtain ⟨addressRange, hr, h⟩ := bind_eq_ok.mp h
  obtain ⟨entry, -, h⟩ := bind_eq_ok.mp h
  split_ifs at h with hentry
  cases h
  obtain ⟨hlo, hhi⟩ := range_of_contains (okOr_eq_ok.mp hsize) (okOr_eq_ok.mp hr) hentry
  -- the first and the last loadable header
  rw [okOr_eq_ok.mp hst, Option.none_or, eq_comm, Option.map_eq_some_iff] at hstart
  obtain ⟨f, hf, rfl⟩ := hstart
  obtain ⟨l, hl⟩ : ∃ l, (loadable elf.programHeaders).getLast? = some l :=
    ⟨_, getLast?_eq_getLast_of_ne_nil (ne_nil_of_mem (mem_of_head? hf))⟩
  rw [hl, Option.map_some, Option.getD_some] at hstop
  simp only [AddressRange.contains_iff] at hentry ⊢
  simp only [hhi, hlo, hstop, ← Nat.lt_succ_iff, Nat.succ_eq_add_one] at hentry ⊢
  simp only [ProgramHeader.Loads, ProgramHeader.bounds] at hnew hall hentry ⊢
  constructor
  · rintro ⟨hleast, hgreatest, hwr, -⟩
    refine ⟨fun f' hf' ph hp => ?_, fun l' hl' ph hp => ?_, fun l' hl' ph hp => ?_⟩
    · obtain rfl : f = f' := Option.some.inj (hf.symm.trans hf')
      have := hleast.2 ⟨ph, hp, rfl⟩
      omega
    all_goals
      obtain rfl : l = l' := Option.some.inj (hl.symm.trans hl')
      have hend := hgreatest.2 ⟨ph, hp, rfl⟩
    · omega
    · by_cases hz : ph.filesz = 0
      · omega
      · obtain ⟨w, hm, hadr, hlen⟩ := hall ph hp hz
        have := hwr w hm (w.2.length - 1) (by omega)
        omega
  · intro hord
    refine ⟨⟨⟨f, mem_of_head? hf, rfl⟩, ?_⟩, ⟨⟨l, mem_of_getLast? hl, rfl⟩, ?_⟩, ?_, hentry⟩
    · rintro a ⟨ph, hp, rfl⟩
      have := hord.first f hf ph hp
      omega
    · rintro a ⟨ph, hp, rfl⟩
      have := hord.last l hl ph hp
      omega
    · intro w hm i hi
      obtain ⟨ph, hp, hadr, hlen⟩ := hnew w hm
      have := hord.first f hf ph hp
      have := hord.filesz l hl ph hp
      omega

/-- An image with the program headers, all of 64 bits. -/
def imageOf (phs : List ProgramHeader) : List (BitVec 8) :=
  [0x7F, 0x45, 0x4C, 0x46, 2, 1, 1] ++ replicate 17 0 ++ leBytes64 0x800 ++ leBytes64 64 ++
    replicate 14 0 ++ leBytes16 56 ++ leBytes16 (.ofNat 16 phs.length) ++ replicate 6 0 ++
    phs.flatMap fun ph => leBytes32 ph.type ++ replicate 4 0 ++ leBytes64 (.ofNat 64 ph.offset) ++
      replicate 8 0 ++ leBytes64 (.ofNat 64 ph.paddr) ++ leBytes64 (.ofNat 64 ph.filesz) ++
      leBytes64 (.ofNat 64 ph.memsz) ++ replicate 8 0

def onePage : GuestMemory := ⟨[MemoryRegion.firstPage], false, fun _ => 0⟩

def low : ProgramHeader := ⟨1, 0, 0x400, 1, 0x100⟩

def high : ProgramHeader := ⟨1, 0, 0x800, 2, 0x100⟩

theorem range_covers_iff_two : ∃ k, loadElf onePage 0 (imageOf [low, high]) 0 = ok k ∧
    k.addressRange = ⟨0x400, 0x8FF⟩ ∧
    ∀ w ∈ k.written, ∀ i < w.2.length, k.addressRange.contains (w.1 + i) = true := by
  obtain ⟨k, hk, hr⟩ := exists_ok (x := loadElf onePage 0 (imageOf [low, high]) 0)
    (P := fun k => k.addressRange = ⟨0x400, 0x8FF⟩) (by decide +kernel)
  have helf : readElf (imageOf [low, high]) none = ok ⟨0x800, [low, high]⟩ := by decide +kernel
  refine ⟨k, hk, hr, ((range_covers_iff helf hk).mpr ⟨?_, ?_, ?_⟩).2.2.1⟩ <;> decide

/-- The same headers, the higher one first and the lower one reaching as far: the lower one is
loaded outside of the range. -/
theorem lower_header_outside :
    ∃ k, loadElf onePage 0 (imageOf [high, { low with memsz := 0x500 }]) 0 = ok k ∧
      k.addressRange = ⟨0x800, 0x8FF⟩ ∧ (0x400, [0x7F]) ∈ k.written :=
  exists_ok (by decide +kernel)

end GunyahVmm.KernelLoader
