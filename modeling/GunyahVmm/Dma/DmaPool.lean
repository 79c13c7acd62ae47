import GunyahVmm.Lib.BitArray
import GunyahVmm.Lib.FirstFit
import GunyahVmm.Lib.U64

/-! The restricted DMA pool (`GunyahIoMmuDxe/DmaPool.c`): a bitmap of pages. Addresses wrap. -/

namespace GunyahVmm.Dma
open FirstFit

inductive EfiStatus where
  | success
  | invalidParameter
  | unsupported
  | outOfResources
  | notFound
  deriving DecidableEq

/-- `EFI_SIZE_TO_PAGES`: the pages of 4 KiB that hold `size` bytes. -/
def efiSizeToPages (size : Nat) : Nat := (size >>> 12) + if size &&& 0xfff ≠ 0 then 1 else 0

/-- `EFI_PAGES_TO_SIZE`, on 64 bits. -/
def efiPagesToSize (pages : Nat) : Nat := (pages <<< 12) % u64Size

lemma efiSizeToPages_eq (size : Nat) :
    efiSizeToPages size = size / 4096 + if size % 4096 ≠ 0 then 1 else 0 := by
  have hm : size &&& 0xfff = size % 4096 := Nat.and_two_pow_sub_one_eq_mod size 12
  have hd : size >>> 12 = size / 4096 := Nat.shiftRight_eq_div_pow size 12
  rw [efiSizeToPages, hm, hd]

lemma efiPagesToSize_eq (pages : Nat) : efiPagesToSize pages = pages * 4096 % u64Size := by
  rw [efiPagesToSize, Nat.shiftLeft_eq]

@[simp] lemma efiSizeToPages_mul (pages : Nat) : efiSizeToPages (4096 * pages) = pages := by
  rw [efiSizeToPages_eq]
  simp

lemma size_le_efiSizeToPages (size : Nat) :
    size ≤ 4096 * efiSizeToPages size ∧ 4096 * efiSizeToPages size < size + 4096 := by
  rw [efiSizeToPages_eq]
  split <;> omega

structure DmaPool where
  base : Nat
  totalPages : Nat
  bitmap : BitArray
  base_lt : base < u64Size
  pages_le : 4096 * totalPages ≤ u64Size
  bitmap_length : bitmap.length = (totalPages + 7) / 8

namespace DmaPool
section
variable (pool : DmaPool)

/-- The pool with another bitmap of the same size. -/
def withBitmap (bitmap : BitArray) (h : bitmap.length = pool.bitmap.length) : DmaPool :=
  { pool with bitmap, bitmap_length := h.trans pool.bitmap_length }

def bitmapTestBit (i : Nat) : Bool := pool.bitmap.testBit i

def bitmapFindFreeRun (numPages : Nat) : Option Nat :=
  firstFit pool.bitmapTestBit pool.totalPages numPages

def setPages (startPage numPages : Nat) : DmaPool :=
  pool.withBitmap
    (pool.bitmap.setBits startPage (wrappingAdd startPage numPages - startPage)) (by simp)

def clearPages (startPage numPages : Nat) : DmaPool :=
  pool.withBitmap
    (pool.bitmap.clearBits startPage (wrappingAdd startPage numPages - startPage)) (by simp)

def dmaPoolAllocatePages (numPages : Nat) : Except EfiStatus Nat × DmaPool :=
  match pool.bitmapFindFreeRun numPages with
  | none => (.error .outOfResources, pool)
  | some startPage =>
    (.ok (wrappingAdd pool.base (efiPagesToSize startPage)), pool.setPages startPage numPages)

def dmaPoolFreePages (numPages address : Nat) : DmaPool :=
  if address < pool.base then pool
  else
    let startPage := efiSizeToPages (address - pool.base)
    if wrappingAdd startPage numPages > pool.totalPages then pool
    else pool.clearPages startPage numPages

end

end DmaPool

/-! ## Discovery of the pool -/

/-- `SwapBytes64`: the bytes of a word in the opposite order. -/
def swapBytes64 (x : BitVec 64) : BitVec 64 :=
  (List.range 8).foldl (fun y i => (y <<< 8) ||| (x >>> (8 * i)) &&& 0xff) 0

/-- The answers of the device tree client: statuses, the size of `reg` and its first stored words.
-/
structure FdtClient where
  locateProtocol : EfiStatus
  findCompatibleNode : EfiStatus
  getNodeProperty : EfiStatus
  regSize : Nat
  regProp : BitVec 64 × BitVec 64

namespace FdtClient

def regBase (fdt : FdtClient) : Nat := (swapBytes64 fdt.regProp.1).toNat

def poolSize (fdt : FdtClient) : Nat := (swapBytes64 fdt.regProp.2).toNat

end FdtClient

lemma four_kib_mul_efiSizeToPages_le {size : Nat} (h : size < u64Size) :
    4096 * efiSizeToPages size ≤ u64Size := by
  have := (size_le_efiSizeToPages size).2
  simp only [u64Size] at h ⊢
  omega

/-- Set the pool up from the device tree. `allocated` says whether there is
memory for the bitmap. -/
def dmaPoolInit (fdt : FdtClient) (allocated : Bool) : Except EfiStatus DmaPool :=
  if fdt.locateProtocol ≠ .success then .error .notFound
  else if fdt.findCompatibleNode ≠ .success then .error .notFound
  else if fdt.getNodeProperty ≠ .success ∨ fdt.regSize < 8 * 2 then .error .notFound
  else if fdt.poolSize = 0 ∨ fdt.regBase = 0 then .error .notFound
  else if !allocated then .error .outOfResources
  else .ok {
    base := fdt.regBase
    totalPages := efiSizeToPages fdt.poolSize
    bitmap := List.replicate ((efiSizeToPages fdt.poolSize + 7) / 8) 0#8
    base_lt := (swapBytes64 fdt.regProp.1).isLt
    pages_le := four_kib_mul_efiSizeToPages_le (swapBytes64 fdt.regProp.2).isLt
    bitmap_length := List.length_replicate }

end GunyahVmm.Dma
