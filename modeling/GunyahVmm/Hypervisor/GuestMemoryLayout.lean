import GunyahVmm.Hypervisor.GunyahVm
import GunyahVmm.Lib.Align
import GunyahVmm.Lib.Arith

/-! The guest memory (`aarch64/src/lib.rs`): buffer and framebuffer at the end of the RAM. -/

namespace GunyahVmm.Hypervisor
open Run Outcome Align List
variable {ε : Type}

structure SimplefbParams where
  width : BitVec 32
  height : BitVec 32
  format : String

structure VmComponents where
  memorySize : Nat
  swiotlb : Option Nat
  simplefb : Option SimplefbParams
  protectionType : ProtectionType

/-- A region that is asked for; `fileBacked` says whether a backing file is writable. -/
structure LayoutRegion where
  guestAddr : Nat
  size : Nat
  purpose : VmMemory.MemoryRegionPurpose
  fileBacked : Option Bool

def aarch64PhysMemStart : Nat := 0x80000000

def aarch64ProtectedVmFwMaxSize : Nat := 0x400000

def aarch64SimplefbFixedAddr : Nat := 0x50000000

def mulU32 (a b : Nat) : Outcome ε Nat := if a * b < u32Size then .ok (a * b) else .panic

def SimplefbParams.bpp (sfb : SimplefbParams) : Nat :=
  match sfb.format with
  | "a8r8g8b8" | "x8r8g8b8" | "a8b8g8r8" => 4
  | "r8g8b8" => 3
  | "r5g6b5" => 2
  | _ => 4

def simplefbDataSize (sfb : SimplefbParams) : Outcome ε Nat := do
  let stride ← mulU32 sfb.width.toNat sfb.bpp
  let size ← mulU32 stride sfb.height.toNat
  let last ← addU64 size 0x1fffff
  .ok (alignDown last 0x200000)

def swiotlbStart (memorySize swiotlbSize : Nat) : Outcome ε Nat := do
  let ramEnd ← addU64 aarch64PhysMemStart memorySize
  subU64 ramEnd swiotlbSize

section
variable (staticSwiotlb : Bool)

def getSwiotlbAddr (memorySize swiotlbSize : Nat) : Outcome ε (Option Nat) :=
  if staticSwiotlb then some <$> swiotlbStart memorySize swiotlbSize else .ok none

def getSimplefbAddr (sfb : SimplefbParams) (memorySize : Nat)
    (swiotlb : Option Nat) : Outcome ε Nat :=
  if staticSwiotlb then do
    let fbSize ← simplefbDataSize sfb
    let start ← swiotlbStart memorySize (swiotlb.getD 0)
    let addr ← subU64 start fbSize
    .ok (alignDown addr 0x200000)
  else .ok aarch64SimplefbFixedAddr

/-- The size of the region, with the gap between the pixels and the buffer behind them. -/
def getSimplefbSize (sfb : SimplefbParams) (memorySize : Nat)
    (swiotlb : Option Nat) : Outcome ε Nat :=
  if staticSwiotlb then do
    let start ← swiotlbStart memorySize (swiotlb.getD 0)
    let fbAddr ← getSimplefbAddr staticSwiotlb sfb memorySize swiotlb
    subU64 start fbAddr
  else simplefbDataSize sfb

def mainMemorySize (components : VmComponents) : Outcome ε Nat :=
  if staticSwiotlb then do
    let size ← subU64 components.memorySize (components.swiotlb.getD 0)
    match components.simplefb with
    | none => .ok size
    | some sfb => do
      let fbSize ← getSimplefbSize staticSwiotlb sfb components.memorySize components.swiotlb
      subU64 size fbSize
  else .ok components.memorySize

end

def ProtectionType.runsFirmware : ProtectionType → Bool
  | .unprotected | .protectedWithoutFirmware => false
  | .isProtected | .protectedWithCustomFirmware | .unprotectedWithFirmware => true

def firmwareRegions (protectionType : ProtectionType) : List LayoutRegion :=
  if protectionType.runsFirmware then
    [⟨aarch64PhysMemStart - aarch64ProtectedVmFwMaxSize, aarch64ProtectedVmFwMaxSize,
      .protectedFirmwareRegion, none⟩]
  else []

def guestMemoryLayout (staticSwiotlb : Bool) (components : VmComponents) :
    Outcome ε (List LayoutRegion) := do
  let mainMemorySize ← mainMemorySize staticSwiotlb components
  let swiotlb : List LayoutRegion ← match components.swiotlb with
    | none => .ok []
    | some size => do
      let addr ← getSwiotlbAddr staticSwiotlb components.memorySize size
      .ok (addr.toList.map fun addr => ⟨addr, size, .staticSwiotlbRegion, none⟩)
  let simplefb : List LayoutRegion ← match components.simplefb with
    | none => .ok []
    | some sfb => do
      let fbAddr ← getSimplefbAddr staticSwiotlb sfb components.memorySize components.swiotlb
      let fbAlloc ← getSimplefbSize staticSwiotlb sfb components.memorySize components.swiotlb
      .ok [⟨fbAddr, fbAlloc, .sharedFramebuffer, none⟩]
  .ok (⟨aarch64PhysMemStart, mainMemorySize, .guestMemoryRegion, none⟩ ::
    firmwareRegions components.protectionType ++ swiotlb ++ simplefb)

/-! ## Regions -/

def SimplefbParams.byteSize (sfb : SimplefbParams) : Nat :=
  sfb.width.toNat * sfb.height.toNat * sfb.bpp

/-- The buffer and the rounded framebuffer fit, and so do the numbers of the pixels. -/
structure VmComponents.Fits (components : VmComponents) : Prop where
  memory : components.swiotlb.getD 0 +
    components.simplefb.elim 0 (fun sfb => alignUp sfb.byteSize 0x200000) ≤ components.memorySize
  pixels : ∀ sfb ∈ components.simplefb,
    sfb.width.toNat * sfb.bpp < u32Size ∧ sfb.byteSize < u32Size

lemma alignDown_add_eq (n : Nat) : alignDown (n + 0x1fffff) 0x200000 = alignUp n 0x200000 := by
  unfold alignUp alignDown
  split <;> omega

lemma simplefbDataSize_eq {sfb : SimplefbParams}
    (hp : sfb.width.toNat * sfb.bpp < u32Size ∧ sfb.byteSize < u32Size) :
    (simplefbDataSize sfb : Outcome ε Nat) = .ok (alignUp sfb.byteSize 0x200000) := by
  obtain ⟨hst, hs⟩ := hp
  have hl : sfb.byteSize + 0x1fffff < u64Size := (Nat.add_lt_add_right hs _).trans (by decide)
  rw [SimplefbParams.byteSize, Nat.mul_right_comm] at *
  rw [simplefbDataSize, mulU32, if_pos hst, ok_bind, mulU32, if_pos hs, ok_bind,
    addU64_of_lt hl, ok_bind, alignDown_add_eq]

/-- The regions from the start of the RAM on: all but the firmware, which lies below it. -/
def ramRegions (regions : List LayoutRegion) : List LayoutRegion :=
  regions.filter (·.purpose ≠ .protectedFirmwareRegion)

lemma ramRegions_layout (main : LayoutRegion) (protectionType : ProtectionType)
    (rest : List LayoutRegion) : ramRegions (main :: firmwareRegions protectionType ++ rest) =
      ramRegions (main :: rest) := by
  cases protectionType <;> rfl

/-- **Guest memory.** The end of the RAM has a 64-bit address, and what is cut off from it
fits: the regions in the RAM are disjoint and cover all of it, and the framebuffer starts at a
multiple of 2 MiB and holds the pixels. -/
theorem guestMemoryLayout_tiles {components : VmComponents} (h : components.Fits)
    (hram : aarch64PhysMemStart + components.memorySize < u64Size) :
    ∃ regions, (guestMemoryLayout true components : Outcome ε _) = .ok regions ∧
      (ramRegions regions).Pairwise (fun a b =>
        a.guestAddr + a.size ≤ b.guestAddr ∨ b.guestAddr + b.size ≤ a.guestAddr) ∧
      (∀ address, (∃ r ∈ ramRegions regions,
          r.guestAddr ≤ address ∧ address < r.guestAddr + r.size) ↔
        aarch64PhysMemStart ≤ address ∧ address < aarch64PhysMemStart + components.memorySize) ∧
      ∀ sfb ∈ components.simplefb, ∃ r ∈ ramRegions regions, r.purpose = .sharedFramebuffer ∧
        0x200000 ∣ r.guestAddr ∧ sfb.byteSize ≤ r.size := by
  obtain ⟨memorySize, swiotlb, simplefb, protectionType⟩ := components
  obtain ⟨hm, hp⟩ := h
  cases simplefb with
  | none =>
    cases swiotlb with
    | none =>
      refine ⟨_, rfl, ?_⟩
      rw [append_assoc, ramRegions_layout]
      simp [ramRegions]
    | some size =>
      dsimp only [Option.elim_none, Option.getD_some] at hm
      simp (disch := omega) only [guestMemoryLayout, mainMemorySize, getSwiotlbAddr, swiotlbStart,
        Option.getD_some, addU64_of_lt, subU64_of_le, ok_bind, if_true]
      refine ⟨_, rfl, ?_⟩
      rw [append_assoc, ramRegions_layout]
      refine ⟨?_, fun address => ?_, by simp⟩ <;> simp [ramRegions] <;> omega
  | some sfb =>
    have hd := @simplefbDataSize_eq ε _ (hp sfb rfl)
    dsimp only [Option.elim_some] at hm
    have hrnd := le_alignUp (a := 0x200000) (by decide) sfb.byteSize
    generalize alignUp sfb.byteSize 0x200000 = fbSize at *
    generalize hr : aarch64PhysMemStart + memorySize - swiotlb.getD 0 - fbSize = room
    -- the RAM starts at a multiple of 2 MiB, so rounding down stays above it
    have hl : aarch64PhysMemStart ≤ alignDown room 0x200000 := le_alignDown (by decide) (by omega)
    have hh := alignDown_le room 0x200000
    have hdvd := dvd_alignDown room 0x200000
    simp (disch := omega) only [guestMemoryLayout, mainMemorySize, getSimplefbSize, swiotlbStart,
      getSimplefbAddr, getSwiotlbAddr, hd, addU64_of_lt, subU64_of_le, ok_bind, if_true, hr]
    cases swiotlb with
    | none =>
      rw [Option.getD_none] at *
      refine ⟨_, rfl, ?_⟩
      rw [append_assoc, ramRegions_layout]
      refine ⟨?_, fun address => ?_, ?_⟩ <;> simp [ramRegions] <;> omega
    | some size =>
      rw [Option.getD_some] at *
      dsimp only
      rw [subU64_of_le (by omega)]
      refine ⟨_, rfl, ?_⟩
      rw [append_assoc, ramRegions_layout]
      refine ⟨?_, fun address => ?_, ?_⟩ <;> simp [ramRegions] <;> omega

/-- A protected VM with a buffer of 64 MiB and a display of 1920 by 1080. -/
def fullHd (memorySize : Nat) : VmComponents :=
  ⟨memorySize, some 0x4000000, some ⟨1920, 1080, "a8r8g8b8"⟩, .isProtected⟩

lemma pixels_fullHd (memorySize : Nat) : ∀ sfb ∈ (fullHd memorySize).simplefb,
    sfb.width.toNat * sfb.bpp < u32Size ∧ sfb.byteSize < u32Size := by
  simp [fullHd, SimplefbParams.bpp, SimplefbParams.byteSize, u32Size]

theorem guestMemoryLayout_tiles_fullHd :
    ∃ regions, (guestMemoryLayout true (fullHd 0x40000000) : Outcome Empty _) = .ok regions ∧
      ∃ r ∈ ramRegions regions, r.purpose = .sharedFramebuffer ∧ 1920 * 1080 * 4 ≤ r.size := by
  obtain ⟨regions, hrg, -, -, hf⟩ :=
    guestMemoryLayout_tiles ⟨by decide, pixels_fullHd 0x40000000⟩ (by decide)
  obtain ⟨r, hr, hp, -, hs⟩ := hf _ rfl
  exact ⟨regions, hrg, r, hr, hp, hs⟩

/-- The RAM would end behind the last address. -/
theorem guestMemoryLayout_overflows : (fullHd (2 ^ 64 - 2 ^ 20)).Fits ∧
    (guestMemoryLayout true (fullHd (2 ^ 64 - 2 ^ 20)) : Outcome Empty _) = .panic :=
  ⟨⟨by decide, pixels_fullHd _⟩, rfl⟩

end GunyahVmm.Hypervisor
