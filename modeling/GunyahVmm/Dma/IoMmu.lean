import GunyahVmm.Dma.DmaPool
import GunyahVmm.Lib.Memory
import Mathlib.Data.List.AList

/-! The DMA driver (`GunyahIoMmuDxe/GunyahIoMmuDxe.c`). Reads and writes of the device use a bounce
buffer in the shared pool; a common buffer is mapped as it is. -/

namespace GunyahVmm.Dma

inductive Operation where
  | busMasterRead
  | busMasterWrite
  | busMasterCommonBuffer
  | busMasterRead64
  | busMasterWrite64
  | busMasterCommonBuffer64
  deriving DecidableEq

namespace Operation

/-- The operation with this number; there is none from the maximum on. -/
def ofNat? : Nat → Option Operation
  | 0 => some busMasterRead
  | 1 => some busMasterWrite
  | 2 => some busMasterCommonBuffer
  | 3 => some busMasterRead64
  | 4 => some busMasterWrite64
  | 5 => some busMasterCommonBuffer64
  | _ => none

def isCommonBufferOperation (op : Operation) : Bool :=
  op == busMasterCommonBuffer || op == busMasterCommonBuffer64

def isBusMasterReadOperation (op : Operation) : Bool := op == busMasterRead || op == busMasterRead64

end Operation

/-- `SIGNATURE_32 ('G', 'I', 'M', 'P')`. -/
def mapInfoSig : Nat := 0x504d4947

structure MapInfo where
  signature : Nat
  operation : Operation
  numberOfBytes : Nat
  numberOfPages : Nat
  hostAddress : Nat
  bounceAddress : Nat
  bounceUsed : Bool

def MapInfo.identity (operation : Operation) (numberOfBytes hostAddress : Nat) : MapInfo :=
  ⟨mapInfoSig, operation, numberOfBytes, 0, hostAddress, 0, false⟩

def MapInfo.bounced (operation : Operation) (numberOfBytes numberOfPages hostAddress bounce : Nat) :
    MapInfo :=
  ⟨mapInfoSig, operation, numberOfBytes, numberOfPages, hostAddress, bounce, true⟩

abbrev MapInfos := AList (fun _ : Nat => MapInfo)

/-- The state of the driver: the pool, the memory, and the records of mappings by address. -/
structure IoMmu where
  pool : DmaPool
  memory : Memory
  mapInfos : MapInfos

/-- The attributes `AllocateBuffer` accepts: write combine, cached and dual
address cycle. -/
def attributesValidForAllocateBuffer : BitVec 64 := 0x80 ||| 0x800 ||| 0x8000

namespace IoMmu

def bouncePages (numberOfBytes : Nat) : Nat :=
  let pages := efiSizeToPages numberOfBytes
  if efiPagesToSize pages < numberOfBytes then pages + 1 else pages

/-- The arguments of `GunyahIoMmuMap`; 0 and a missing count are null pointers. `record` is memory
for the new `MAP_INFO`. -/
structure MapArgs where
  operation : Nat
  hostAddress : Nat
  numberOfBytes : Option Nat
  deviceAddress : Bool
  mapping : Bool
  record : Option Nat

def gunyahIoMmuMap (io : IoMmu) (args : MapArgs) : Except EfiStatus (Nat × Nat) × IoMmu :=
  match args.numberOfBytes with
  | none => (.error .invalidParameter, io)
  | some numberOfBytes =>
    if args.hostAddress = 0 ∨ args.deviceAddress = false ∨ args.mapping = false then
      (.error .invalidParameter, io)
    else
      match Operation.ofNat? args.operation with
      | none => (.error .invalidParameter, io)
      | some operation =>
        match args.record with
        | none => (.error .outOfResources, io)
        | some record =>
          if operation.isCommonBufferOperation then
            let info := MapInfo.identity operation numberOfBytes args.hostAddress
            (.ok (args.hostAddress, record),
              { io with mapInfos := io.mapInfos.insert record info })
          else
            let pages := bouncePages numberOfBytes
            match io.pool.dmaPoolAllocatePages pages with
            | (.error _, pool) => (.error .outOfResources, { io with pool })
            | (.ok bounce, pool) =>
              let info := MapInfo.bounced operation numberOfBytes pages args.hostAddress bounce
              let memory :=
                if operation.isBusMasterReadOperation then
                  io.memory.copyMem bounce args.hostAddress numberOfBytes
                else io.memory
              (.ok (bounce, record), ⟨pool, memory, io.mapInfos.insert record info⟩)

/-- Unmap the mapping of the record at this address. Other memory has no signature. -/
def gunyahIoMmuUnmap (io : IoMmu) (mapping : Nat) : EfiStatus × IoMmu :=
  if mapping = 0 then (.invalidParameter, io)
  else
    match io.mapInfos.lookup mapping with
    | none => (.invalidParameter, io)
    | some info =>
      if info.signature ≠ mapInfoSig then (.invalidParameter, io)
      else
        let memory :=
          if info.bounceUsed && !info.operation.isBusMasterReadOperation then
            io.memory.copyMem info.hostAddress info.bounceAddress info.numberOfBytes
          else io.memory
        let pool :=
          if info.bounceUsed then io.pool.dmaPoolFreePages info.numberOfPages info.bounceAddress
          else io.pool
        (.success, ⟨pool, memory, io.mapInfos.erase mapping⟩)

/-- Allocate a common buffer; `hostAddress` says whether the pointer for the
result is there. -/
def gunyahIoMmuAllocateBuffer (io : IoMmu) (pages : Nat) (hostAddress : Bool)
    (attributes : BitVec 64) : Except EfiStatus Nat × IoMmu :=
  if hostAddress = false then (.error .invalidParameter, io)
  else if attributes &&& ~~~ attributesValidForAllocateBuffer ≠ 0 then (.error .unsupported, io)
  else
    match io.pool.dmaPoolAllocatePages pages with
    | (.error status, pool) => (.error status, { io with pool })
    | (.ok address, pool) =>
      (.ok address, { io with pool, memory := io.memory.zeroMem address (efiPagesToSize pages) })

def gunyahIoMmuFreeBuffer (io : IoMmu) (pages hostAddress : Nat) : EfiStatus × IoMmu :=
  if hostAddress = 0 then (.invalidParameter, io)
  else (.success, { io with pool := io.pool.dmaPoolFreePages pages hostAddress })

end IoMmu

end GunyahVmm.Dma
