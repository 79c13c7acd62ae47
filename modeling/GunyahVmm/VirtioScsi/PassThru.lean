import Mathlib.Data.BitVec

/-! The pass-through of the virtio-scsi driver (`GunyahVirtioScsiDxe/VirtioScsi.c`). Each read of
the shared response has its own value (`ResponseReads`). -/

namespace GunyahVmm.VirtioScsi

def senseSize : Nat := 96

def cdbSize : Nat := 32

inductive EfiStatus where
  | success
  | unsupported
  | invalidParameter
  | badBufferSize
  | outOfResources
  | deviceError
  | timeout
  | notReady
  deriving DecidableEq

inductive HostAdapterStatus where
  | ok
  | timeoutCommand
  | busReset
  | dataOverrunUnderrun
  | other
  deriving DecidableEq

def dataDirectionRead : BitVec 8 := 0

def dataDirectionWrite : BitVec 8 := 1

def dataDirectionBidirectional : BitVec 8 := 2

/-- `EFI_EXT_SCSI_PASS_THRU_SCSI_REQUEST_PACKET`. A buffer is there or the pointer is NULL. -/
structure Packet where
  inDataBuffer : Bool
  outDataBuffer : Bool
  cdb : List (BitVec 8)
  inTransferLength : BitVec 32
  outTransferLength : BitVec 32
  cdbLength : BitVec 8
  dataDirection : BitVec 8
  hostAdapterStatus : HostAdapterStatus
  targetStatus : BitVec 8
  senseDataLength : BitVec 8

structure VscsiDev where
  inOutSupported : Bool
  maxTarget : BitVec 16
  maxLun : BitVec 32
  maxSectors : BitVec 32

structure VirtioScsiReq where
  lun : List (BitVec 8)
  cdb : List (BitVec 8)

/-- `ALIGN_VALUE (Value, 512) / 512`. -/
def sectors (length : BitVec 32) : BitVec 32 := (length + ((512 - length) &&& 511)) / 512

def sizeOneGb : Nat := 0x40000000

def populateRequest (dev : VscsiDev) (target : BitVec 16) (lun : BitVec 64) (packet : Packet) :
    EfiStatus × Packet × VirtioScsiReq :=
  let zeroed : VirtioScsiReq := ⟨List.replicate 8 0, List.replicate cdbSize 0⟩
  if (packet.inTransferLength > 0 ∧ packet.outTransferLength > 0 ∧ ¬ dev.inOutSupported) ∨
      target > 0xFF ∨ lun ≥ 0x4000 ∨ packet.cdbLength.toNat > cdbSize ∨
      packet.inTransferLength.toNat + packet.outTransferLength.toNat > sizeOneGb then
    (.unsupported, packet, zeroed)
  else if target > dev.maxTarget ∨ lun > dev.maxLun.setWidth 64 ∨
      packet.dataDirection > dataDirectionBidirectional ∨
      (packet.inTransferLength > 0 ∧
        (¬ packet.inDataBuffer ∨ packet.dataDirection = dataDirectionWrite)) ∨
      (packet.outTransferLength > 0 ∧
        (¬ packet.outDataBuffer ∨ packet.dataDirection = dataDirectionRead)) then
    (.invalidParameter, packet, zeroed)
  else if sectors packet.outTransferLength > dev.maxSectors / 2 ∨
      sectors packet.inTransferLength > dev.maxSectors / 2 then
    (.badBufferSize, { packet with
      inTransferLength := dev.maxSectors / 2 * 512
      outTransferLength := dev.maxSectors / 2 * 512
      hostAdapterStatus := .dataOverrunUnderrun
      targetStatus := 0
      senseDataLength := 0 }, zeroed)
  else
    (.success, packet,
      { lun := [1, target.setWidth 8, (lun.setWidth 32 >>> 8 ||| 0x40).setWidth 8, lun.setWidth 8,
          0, 0, 0, 0]
        cdb := (List.range packet.cdbLength.toNat).map (fun i => packet.cdb.getD i 0) ++
          List.replicate (cdbSize - packet.cdbLength.toNat) 0 })

/-! ## The response -/

/-- What the reads of the response see. `MIN` reads a length once to compare it and once more to
take it. -/
structure ResponseReads where
  senseLen : BitVec 32
  senseLenAgain : BitVec 32
  /-- The memory from the sense array on. -/
  sense : Nat → BitVec 8
  residual : BitVec 32
  residualAgain : BitVec 32
  status : BitVec 8
  response : BitVec 8

/-- `MIN (Response->SenseLen, VIRTIO_SCSI_SENSE_SIZE)`. -/
def responseSenseLen (reads : ResponseReads) : Nat :=
  if reads.senseLen.toNat < senseSize then reads.senseLenAgain.toNat else senseSize

def translateResponse (response : BitVec 8) : EfiStatus × HostAdapterStatus :=
  match response.toNat with
  | 0 => (.success, .ok)
  | 1 => (.deviceError, .dataOverrunUnderrun)
  | 3 => (.timeout, .timeoutCommand)
  | 4 => (.deviceError, .busReset)
  | 5 => (.notReady, .ok)
  | _ => (.deviceError, .other)

def parseResponse (packet : Packet) (reads : ResponseReads) :
    EfiStatus × Packet × List (BitVec 8) :=
  let packet :=
    if packet.senseDataLength.toNat > responseSenseLen reads then
      { packet with senseDataLength := BitVec.ofNat 8 (responseSenseLen reads) }
    else packet
  let senseData := (List.range packet.senseDataLength.toNat).map reads.sense
  let packet :=
    if reads.residual ≤ packet.inTransferLength then
      { packet with inTransferLength := packet.inTransferLength - reads.residualAgain }
    else
      { packet with
        outTransferLength :=
          packet.outTransferLength - (reads.residualAgain - packet.inTransferLength)
        inTransferLength := 0 }
  let (status, hostAdapterStatus) := translateResponse reads.response
  (status, { packet with targetStatus := reads.status, hostAdapterStatus := hostAdapterStatus },
    senseData)

def reportHostAdapterError (packet : Packet) : EfiStatus × Packet :=
  (.deviceError, { packet with
    inTransferLength := 0
    outTransferLength := 0
    hostAdapterStatus := .other
    targetStatus := 0
    senseDataLength := 0 })

/-! ## The request as a whole -/

/-- The answers of the transport, each for the one call of its kind. -/
structure Transport where
  allocateRequest : Bool
  mapRequest : Option (BitVec 64)
  allocateInData : Bool
  mapInData : Option (BitVec 64)
  mapOutData : Option (BitVec 64)
  allocateResponse : Bool
  mapResponse : Option (BitVec 64)
  flush : Bool

def descFNext : BitVec 16 := 1

def descFWrite : BitVec 16 := 2

structure Desc where
  addr : BitVec 64
  len : BitVec 32
  flags : BitVec 16

/-- The status, the packet, the bytes copied to the caller, and the descriptors of the host. -/
structure PassThruResult where
  status : EfiStatus
  packet : Packet
  inData : List (BitVec 8)
  senseData : List (BitVec 8)
  chain : List Desc

/-- A call that ends before the host is asked. -/
def early (res : EfiStatus × Packet) : PassThruResult := ⟨res.1, res.2, [], [], []⟩

def requestSize : BitVec 32 := 51

def responseSize : BitVec 32 := 108

/-- The chain of the request: its header, the data to write, the response and the data to read. -/
def descriptors (packet : Packet) (request outData response inData : BitVec 64) : List Desc :=
  [⟨request, requestSize, descFNext⟩] ++
    (if packet.outTransferLength > 0 then [⟨outData, packet.outTransferLength, descFNext⟩]
      else []) ++
    [⟨response, responseSize,
      descFWrite ||| if packet.inTransferLength > 0 then descFNext else 0⟩] ++
    if packet.inTransferLength > 0 then [⟨inData, packet.inTransferLength, descFWrite⟩] else []

/-- The device address of a data buffer. Nothing is mapped for an empty one, and its address is
zero. -/
def mapData (length : BitVec 32) (mapped : Option (BitVec 64)) : Option (BitVec 64) :=
  if length > 0 then mapped else some 0

/-- `inDataShared` is the intermediate buffer of the data to read, as it is when it is copied. -/
def virtioScsiPassThru (dev : VscsiDev) (target : BitVec 16) (lun : BitVec 64) (packet : Packet)
    (transport : Transport) (reads : ResponseReads) (inDataShared : Nat → BitVec 8) :
    PassThruResult :=
  if !transport.allocateRequest then early (.outOfResources, packet)
  else
    match populateRequest dev target lun packet with
    | (.success, packet, _) =>
      match transport.mapRequest with
      | none => early (reportHostAdapterError packet)
      | some requestAddress =>
        -- the intermediate buffer for the data to read
        if packet.inTransferLength > 0 ∧ !transport.allocateInData then
          early (reportHostAdapterError packet)
        else
          match mapData packet.inTransferLength transport.mapInData,
              mapData packet.outTransferLength transport.mapOutData with
          | some inDataAddress, some outDataAddress =>
            if !transport.allocateResponse then early (reportHostAdapterError packet)
            else
              match transport.mapResponse with
              | none => early (reportHostAdapterError packet)
              | some responseAddress =>
                let chain := descriptors packet requestAddress outDataAddress responseAddress
                  inDataAddress
                if !transport.flush then { early (reportHostAdapterError packet) with chain }
                else
                  let (status, parsed, senseData) := parseResponse packet reads
                  -- the buffer was allocated for the length before the response
                  let inData :=
                    if packet.inTransferLength > 0 then
                      (List.range parsed.inTransferLength.toNat).map inDataShared
                    else []
                  ⟨status, parsed, inData, senseData, chain⟩
          | _, _ => early (reportHostAdapterError packet)
    | (status, packet, _) => early (status, packet)

end GunyahVmm.VirtioScsi
