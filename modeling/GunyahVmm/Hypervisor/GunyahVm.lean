import GunyahVmm.Hypervisor.Mthp
import GunyahVmm.VmMemory.GuestMemory
import Mathlib.Data.List.AList
import Mathlib.Data.List.Sort

/-! Memory of a Gunyah VM (`hypervisor/src/gunyah/mod.rs`), registered under 32-bit slot numbers. -/

namespace GunyahVmm.Hypervisor
open Run

/-- A region of the guest memory; `fileBacked` says whether a backing file is writable. -/
structure MappedRegion extends VmMemory.MemoryRegion where
  fileBacked : Option Bool

inductive ProtectionType where
  | unprotected
  | isProtected
  | protectedWithCustomFirmware
  | protectedWithoutFirmware
  | unprotectedWithFirmware
  deriving DecidableEq

def ProtectionType.isolatesMemory : ProtectionType → Bool
  | isProtected | protectedWithCustomFirmware | protectedWithoutFirmware => true
  | unprotected | unprotectedWithFirmware => false

inductive LendMthpMode where
  | single
  | chunked
  deriving DecidableEq

structure Config where
  protectionType : ProtectionType
  prepareLendMthp : Option LendMthpMode

def memSlot (n : Nat) : Nat := n % 0x100000000

inductive MapCall where
  | mapCmaRegion (lend readOnly : Bool)
  | androidLendUserMemoryRegion (readOnly : Bool)
  | setUserMemoryRegion (readOnly : Bool)

structure Registration where
  label : Nat
  guestAddr : Nat
  size : Nat
  call : MapCall

/-- The host while a VM is made: which collapse calls succeed, and what mapping a chunk returns. -/
structure Host where
  createVm : Outcome Nat Unit
  collapse : Nat → Collapse
  ioctl : Nat → Nat → Outcome Nat Unit
  tryClone : Outcome Nat Unit

def lends (cfg : Config) (region : MappedRegion) : Bool :=
  if cfg.protectionType.isolatesMemory then
    match region.purpose with
    | .bios | .guestMemoryRegion | .protectedFirmwareRegion | .reservedMemory => true
    | .sharedFramebuffer | .staticSwiotlbRegion => false
  else false

/-- The chunks a region is lent in; none when it is lent as a whole. -/
def lendChunks (cfg : Config) (size : Nat) (collapse : Collapse) : Option (List LendChunk) :=
  match cfg.prepareLendMthp with
  | none => some []
  | some mode => (prepareLendRegion size collapse).bind fun prep =>
    match mode with
    | .single => some []
    | .chunked => computeLendChunks size (some prep)

/-- Lend the chunks of a region: the first in the slot of the region, the others in the next free.
-/
def lendLoop (ioctl : Nat → Outcome Nat Unit) (index guestBase : Nat) :
    List LendChunk → (ci nextLendSlot : Nat) → Outcome Nat (List Registration × Nat)
  | [], _, nextLendSlot => .ok ([], nextLendSlot)
  | chunk :: chunks, ci, nextLendSlot => do
    let slot := if ci = 0 then memSlot index else memSlot nextLendSlot
    let nextLendSlot := if ci > 0 then nextLendSlot + 1 else nextLendSlot
    if guestBase + chunk.offset < u64Size then
      ioctl ci
      let (rest, nextLendSlot) ← lendLoop ioctl index guestBase chunks (ci + 1) nextLendSlot
      return (⟨slot, guestBase + chunk.offset, chunk.size,
        .androidLendUserMemoryRegion false⟩ :: rest, nextLendSlot)
    else .panic

def mapRegion (cfg : Config) (host : Host) (region : MappedRegion) (index nextLendSlot : Nat) :
    Outcome Nat (List Registration × Nat) :=
  let lend := lends cfg region
  let whole := fun call => do
    host.ioctl index 0
    return ([⟨memSlot index, region.guestBase, region.size, call⟩], nextLendSlot)
  match region.fileBacked with
  | some writable => whole (.mapCmaRegion lend (!writable))
  | none =>
    if lend then
      match lendChunks cfg region.size (host.collapse index) with
      | none => .panic
      | some [] => whole (.androidLendUserMemoryRegion false)
      | some chunks => lendLoop (host.ioctl index) index region.guestBase chunks 0 nextLendSlot
    else whole (.setUserMemoryRegion false)

def mapRegions (cfg : Config) (host : Host) :
    List MappedRegion → (index nextLendSlot : Nat) → Outcome Nat (List Registration × Nat)
  | [], _, nextLendSlot => .ok ([], nextLendSlot)
  | region :: regions, index, nextLendSlot => do
    let (here, nextLendSlot) ← mapRegion cfg host region index nextLendSlot
    let (rest, nextLendSlot) ← mapRegions cfg host regions (index + 1) nextLendSlot
    return (here ++ rest, nextLendSlot)

structure GunyahVm where
  guestMem : List MappedRegion
  /-- The regions added later: their addresses by slot. -/
  memRegions : AList (fun _ : Nat => Nat)
  /-- Slots that were used and can be used again, the least one first. -/
  memSlotGaps : List Nat

structure VmState where
  vm : GunyahVm
  registered : List Registration

namespace VmState

def labels (s : VmState) : List Nat := s.registered.map Registration.label

def new (cfg : Config) (host : Host) (guestMem : List MappedRegion) : Outcome Nat VmState := do
  host.createVm
  let (registered, _) ← mapRegions cfg host guestMem 0 guestMem.length
  host.tryClone
  return ⟨⟨guestMem, ∅, []⟩, registered⟩

def enoent : Nat := 2
def eexist : Nat := 17
def enospc : Nat := 28
def eoverflow : Nat := 75

def rangeOverlap (guestMem : List MappedRegion) (start stop : Nat) : Bool :=
  guestMem.any fun region => region.guestBase < stop && start < region.regionEnd

/-- The arguments of `add_memory_region`, the page size, and what two calls return (`none`:
success). -/
structure AddArgs where
  guestAddr : Nat
  memSize : Nat
  readOnly : Bool
  pagesize : Nat
  setResult : Option Nat
  lendResult : Option Nat

def takeSlot (vm : GunyahVm) : Nat × List Nat :=
  match vm.memSlotGaps with
  | gap :: gaps => (gap, gaps)
  | [] => (memSlot (vm.memRegions.keys.length + vm.guestMem.length), [])

def addMemoryRegion (s : VmState) (args : AddArgs) : Outcome Nat Nat × VmState :=
  if args.memSize + args.pagesize < u64Size then
    let size := (args.memSize + args.pagesize - 1) / args.pagesize * args.pagesize
    match checkedAdd args.guestAddr size with
    | none => (.err eoverflow, s)
    | some endAddr =>
      if rangeOverlap s.vm.guestMem args.guestAddr endAddr then (.err enospc, s)
      else
        let (slot, gaps) := takeSlot s.vm
        -- A slot that exists already is tried again as a lend call.
        let (res, call) :=
          if args.setResult = some eexist then
            (args.lendResult, MapCall.androidLendUserMemoryRegion args.readOnly)
          else (args.setResult, MapCall.setUserMemoryRegion args.readOnly)
        match res with
        | some e =>
          (.err e, { s with vm := { s.vm with memSlotGaps := gaps.orderedInsert (· ≤ ·) slot } })
        | none =>
          (.ok slot,
            { vm := { s.vm with
                memRegions := s.vm.memRegions.insert slot args.guestAddr
                memSlotGaps := gaps }
              registered := s.registered ++ [⟨slot, args.guestAddr, size, call⟩] })
  else (.panic, s)

/-- Remove the region in this slot, which is free even if `ioctl` is an error. -/
def removeMemoryRegion (s : VmState) (slot : Nat) (ioctl : Option Nat) :
    Outcome Nat Unit × VmState :=
  match s.vm.memRegions.lookup slot with
  | none => (.err enoent, s)
  | some _ =>
    (.ok (),
      { vm := { s.vm with
          memRegions := s.vm.memRegions.erase slot
          memSlotGaps := s.vm.memSlotGaps.orderedInsert (· ≤ ·) slot }
        registered :=
          if ioctl.isNone then s.registered.eraseP (fun r => r.label == slot) else s.registered })

inductive Op where
  | add (args : AddArgs)
  | remove (slot : Nat) (ioctl : Option Nat)

/-- The state after a call; `none` when the process was aborted. -/
def step (s : VmState) : Op → Option VmState
  | .add args =>
    match s.addMemoryRegion args with
    | (.panic, _) => none
    | (_, s') => some s'
  | .remove slot ioctl => some (s.removeMemoryRegion slot ioctl).2

end VmState

end GunyahVmm.Hypervisor
