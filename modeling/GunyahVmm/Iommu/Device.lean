import GunyahVmm.Iommu.MemoryMapper

/-! The virtio IOMMU device (`devices/src/virtio/iommu.rs`), with the commands of the host in
`iommu/sys/linux.rs`. Endpoints and domains share mappers. -/

namespace GunyahVmm.Iommu
open Run

/-! ## Mappers -/

inductive IommuError where
  | memoryMapper (e : MapperError)
  | notSupported
  | vfio

/-- What tells mappers apart: the type of the mapper and a number. -/
inductive MapperId where
  | basic (id : Nat)
  | vfio (id : Nat)
  deriving DecidableEq

/-- A mapper of the device itself, or that of a VFIO container, whose mappings are in the host. -/
inductive Mapper where
  | basic (id : Nat) (m : BasicMemoryMapper)
  | vfio (id : Nat)

/-- What the host answers: whether an event can be written, and the result of a VFIO call. -/
structure HostAnswer where
  evtOk : Bool
  vfioMap : Option AddMapResult
  vfioUnmap : Bool

/-- The end of a call of a mapper. A call that fails leaves the mapper as it was. -/
def finish {α : Type} (id : Nat) (x : Traced Signal Empty (Reply α)) :
    Outcome IommuError (α × Mapper) :=
  match x.value with
  | .ok (.ok a, m) => .ok (a, .basic id m)
  | .ok (.error e, _) => .err (.memoryMapper e)
  | _ => .panic

namespace Mapper

def mapperId : Mapper → MapperId
  | basic id _ => .basic id
  | vfio id => .vfio id

/-- VFIO cannot detach a single device of a group. -/
def supportsDetach : Mapper → Bool
  | basic _ _ => true
  | vfio _ => false

def doMap (id : Nat) (host : HostAnswer) : Outcome IommuError (AddMapResult × Mapper) :=
  match host.vfioMap with
  | some r => .ok (r, .vfio id)
  | none => .err .vfio

def addMap (map : MappingInfo) (host : HostAnswer) :
    Mapper → Outcome IommuError (AddMapResult × Mapper)
  | basic id m => finish id (m.addMap map)
  | vfio id => doMap id host

/-- Only VFIO maps host memory. -/
def vfioDmaMap (host : HostAnswer) : Mapper → Outcome IommuError (AddMapResult × Mapper)
  | basic _ _ => .err .notSupported
  | vfio id => doMap id host

def removeMap (iovaStart size : Nat) (host : HostAnswer) :
    Mapper → Outcome IommuError (RemoveMapResult × Mapper)
  | basic id m => finish id (m.removeMap iovaStart size host.evtOk)
  | vfio id =>
    match checkedAdd iovaStart size with
    | none => .err (.memoryMapper .iovaOverflow)
    | some _ => if host.vfioUnmap then .ok (.success none, .vfio id) else .err .vfio

def resetDomain (host : HostAnswer) : Mapper → Outcome IommuError (Option Nat × Mapper)
  | basic id m => finish id (m.resetDomain host.evtOk)
  | vfio id => .ok (none, .vfio id)

end Mapper

/-! ## State -/

structure DmabufRegionEntry where
  mmap : Nat
  regionId : Nat
  size : Nat

/-- The state of the device. A domain has a reference counter and a mapper. -/
structure State where
  pageMask : BitVec 64
  hpEndpointsRanges : List (Nat × Nat)
  endpointMap : BTreeMap Nat Nat
  domainMap : BTreeMap Nat (Nat × Nat)
  endpoints : BTreeMap Nat Nat
  dmabufMem : BTreeMap Nat DmabufRegionEntry
  mappers : Nat → Mapper
  nextMapper : Nat

inductive Status where
  | ok
  | unsupp
  | deverr
  | inval
  | range
  | noent
  deriving DecidableEq

/-- The status of a request, and the event to wait for before the guest is told. -/
structure Answer where
  status : Status
  event : Option Nat

structure AttachReq where
  domain : BitVec 32
  endpoint : BitVec 32
  reserved : List (BitVec 8)

structure DetachReq where
  endpoint : BitVec 32

structure MapReq where
  domain : BitVec 32
  virtStart : BitVec 64
  virtEnd : BitVec 64
  physStart : BitVec 64
  flags : BitVec 32

structure UnmapReq where
  domain : BitVec 32
  virtStart : BitVec 64
  virtEnd : BitVec 64

inductive Request where
  | attach (req : AttachReq)
  | detach (req : DetachReq)
  | map (req : MapReq)
  | unmap (req : UnmapReq)

/-- The mapping that a request asks for; it cannot be written to without the flag. -/
def MapReq.mapping (req : MapReq) (size : Nat) : MappingInfo where
  iova := req.virtStart.toNat
  gpa := req.physStart.toNat
  size := size
  prot := ⟨true, req.flags &&& 2 != 0⟩

namespace State
variable (s : State)

def new (pageMask : BitVec 64) (hpEndpointsRanges : List (Nat × Nat)) (endpoints : BTreeMap Nat Nat)
    (mappers : Nat → Mapper) (nextMapper : Nat) : State where
  pageMask := pageMask
  hpEndpointsRanges := hpEndpointsRanges
  endpointMap := .empty
  domainMap := .empty
  endpoints := endpoints
  dmabufMem := .empty
  mappers := mappers
  nextMapper := nextMapper

def setMapper (ref : Nat) (mapper : Mapper) : State :=
  { s with mappers := fun r => if r = ref then mapper else s.mappers r }

/-- Whether the endpoint, alone in its domain, was detached, and the event of a fault. -/
def detachEndpoint (endpoint : Nat) (host : HostAnswer) :
    Outcome IommuError ((Bool × Option Nat) × State) :=
  let detached := { s with endpointMap := s.endpointMap.remove endpoint }
  match s.endpointMap.get endpoint with
  | none => .ok ((true, none), detached)
  | some attachedDomain =>
    match s.domainMap.get attachedDomain with
    | none => .ok ((true, none), detached)
    | some (refs, ref) =>
      if (s.mappers ref).supportsDetach = false then .ok ((false, none), s)
      else if refs = 0 then .panic
      else if refs = 1 then do
        let (evt, mapper) ← (s.mappers ref).resetDomain host
        .ok ((true, evt),
          { detached with domainMap := s.domainMap.remove attachedDomain }.setMapper ref mapper)
      else .ok ((false, none), s)

/-- Another endpoint has the same mapper and is attached to another domain. -/
def mapperInOtherDomain (endpoint domain ref : Nat) : Bool :=
  s.endpoints.entries.any fun other =>
    other.1 != endpoint && (s.mappers ref).mapperId == (s.mappers other.2).mapperId &&
      (s.endpointMap.get other.1).any (· != domain)

/-- The reference counter of a domain with one more endpoint. -/
def newRef (domain : Nat) : Outcome IommuError Nat :=
  match s.domainMap.get domain with
  | none => .ok 1
  | some (refs, _) => addU32 refs 1

def enterDomain (endpoint domain ref : Nat) (event : Option Nat) :
    Outcome IommuError (Answer × State) := do
  let newRef ← s.newRef domain
  .ok (⟨.ok, event⟩,
    { s with endpointMap := s.endpointMap.insert endpoint domain,
             domainMap := s.domainMap.insert domain (newRef, ref) })

def processAttachRequest (req : AttachReq) (host : HostAnswer) :
    Outcome IommuError (Answer × State) :=
  if req.reserved.any (· != 0) then .ok (⟨.inval, none⟩, s)
  else
    let domain := req.domain.toNat
    let endpoint := req.endpoint.toNat
    match s.endpoints.get endpoint with
    | none => .ok (⟨.noent, none⟩, s)
    | some ref =>
      if s.mapperInOtherDomain endpoint domain ref then .ok (⟨.unsupp, none⟩, s)
      else if s.endpointMap.contains endpoint then do
        let ((detached, evt), s') ← s.detachEndpoint endpoint host
        if detached then s'.enterDomain endpoint domain ref evt else .ok (⟨.unsupp, none⟩, s')
      else s.enterDomain endpoint domain ref none

def processDetachRequest (req : DetachReq) (host : HostAnswer) :
    Outcome IommuError (Answer × State) :=
  if s.endpoints.contains req.endpoint.toNat then do
    let ((detached, evt), s') ← s.detachEndpoint req.endpoint.toNat host
    .ok (⟨if detached then .ok else .unsupp, evt⟩, s')
  else .ok (⟨.noent, none⟩, s)

/-- The host address of guest memory in a dma-buf, from the last region at or below `gpa`. -/
def dmabufMap (gpa size : Nat) : Outcome IommuError (Option Nat) :=
  match (s.dmabufMem.below (gpa + 1)).getLast? with
  | none => .ok none
  | some (baseGpa, region) => do
    let stop ← addU64 gpa size
    let regionStop ← addU64 baseGpa region.size
    if stop ≤ regionStop then do
      let address ← addU64 region.mmap (gpa - baseGpa)
      .ok (some address)
    else .ok none

def mapInto (mapper : Mapper) (map : MappingInfo) (dmabuf : Option Nat) (host : HostAnswer) :
    Outcome IommuError (AddMapResult × Mapper) :=
  match dmabuf with
  | some _ => mapper.vfioDmaMap host
  | none => mapper.addMap map host

def mapPages (req : MapReq) (ref : Nat) (host : HostAnswer) : Outcome IommuError (Answer × State) :=
  match checkedAdd (req.virtEnd.toNat - req.virtStart.toNat) 1 with
  | none => .ok (⟨.deverr, none⟩, s)
  | some size => do
    let dmabuf ← s.dmabufMap req.physStart.toNat size
    let (result, mapper) ← mapInto (s.mappers ref) (req.mapping size) dmabuf host
    .ok (⟨if result = .ok then .ok else .inval, none⟩, s.setMapper ref mapper)

def processDmaMapRequest (req : MapReq) (host : HostAnswer) : Outcome IommuError (Answer × State) :=
  if req.virtEnd.toNat ≤ req.virtStart.toNat then .ok (⟨.inval, none⟩, s)
  else if s.pageMask &&& req.physStart ≠ 0 ∨ s.pageMask &&& req.virtStart ≠ 0 then
    .ok (⟨.range, none⟩, s)
  else do
    let next ← addU64 req.virtEnd.toNat 1
    if s.pageMask &&& BitVec.ofNat 64 next ≠ 0 then .ok (⟨.range, none⟩, s)
    else if req.flags &&& ~~~7 ≠ 0 then .ok (⟨.inval, none⟩, s)
    else
      match s.domainMap.get req.domain.toNat with
      | none => .ok (⟨.noent, none⟩, s)
      | some (_, ref) => s.mapPages req ref host

def processDmaUnmapRequest (req : UnmapReq) (host : HostAnswer) :
    Outcome IommuError (Answer × State) :=
  match s.domainMap.get req.domain.toNat with
  | none => .ok (⟨.noent, none⟩, s)
  | some (_, ref) => do
    let distance ← subU64 req.virtEnd.toNat req.virtStart.toNat
    let size ← addU64 distance 1
    let (result, mapper) ← (s.mappers ref).removeMap req.virtStart.toNat size host
    match result with
    | .success evt => .ok (⟨.ok, evt⟩, s.setMapper ref mapper)
    | .overlapFailure => .ok (⟨.range, none⟩, s.setMapper ref mapper)

def process (host : HostAnswer) : Request → Outcome IommuError (Answer × State)
  | .attach req => s.processAttachRequest req host
  | .detach req => s.processDetachRequest req host
  | .map req => s.processDmaMapRequest req host
  | .unmap req => s.processDmaUnmapRequest req host

end State

/-! ## Commands of the host -/

inductive VfioResult where
  | ok
  | notInPCIRanges
  | noSuchDevice
  | invalidParam
  | noSuchMappedDmabuf
  deriving DecidableEq

/-- A command; `mmap` is the host address of the buffer, if it could be mapped. -/
inductive VfioCommand where
  | deviceAdd (wrapperId endpointAddr : BitVec 32)
  | deviceDel (endpointAddr : BitVec 32)
  | dmabufMap (regionId : Nat) (gpa size : BitVec 64) (mmap : Option Nat)
  | dmabufUnmap (regionId : Nat)

namespace State
variable (s : State)

def handleAddVfioDevice (wrapperId endpointAddr : Nat) : VfioResult × State :=
  if s.hpEndpointsRanges.any fun range => range.1 ≤ endpointAddr && endpointAddr ≤ range.2 then
    (.ok, { s with endpoints := s.endpoints.insert endpointAddr s.nextMapper,
                   nextMapper := s.nextMapper + 1 }.setMapper s.nextMapper (.vfio wrapperId))
  else (.notInPCIRanges, s)

/-- The domain of the endpoint is removed too, whoever else is attached to it. -/
def handleDelVfioDevice (pciAddress : Nat) : VfioResult × State :=
  if s.endpoints.contains pciAddress then
    let s' := { s with endpoints := s.endpoints.remove pciAddress,
                       endpointMap := s.endpointMap.remove pciAddress }
    match s.endpointMap.get pciAddress with
    | none => (.ok, s')
    | some domain => (.ok, { s' with domainMap := s.domainMap.remove domain })
  else (.noSuchDevice, s)

def handleMapDmabuf (regionId : Nat) (gpa size : BitVec 64) (mmap : Option Nat) :
    VfioResult × State :=
  if gpa &&& s.pageMask ≠ 0 then (.invalidParam, s)
  else
    match mmap with
    | none => (.invalidParam, s)
    | some mmap =>
      (.ok, { s with dmabufMem := s.dmabufMem.insert gpa.toNat ⟨mmap, regionId, size.toNat⟩ })

def handleUnmapDmabuf (regionId : Nat) : VfioResult × State :=
  match s.dmabufMem.entries.find? fun e => e.2.regionId = regionId with
  | some e => (.ok, { s with dmabufMem := s.dmabufMem.remove e.1 })
  | none => (.noSuchMappedDmabuf, s)

def handleVfio : VfioCommand → VfioResult × State
  | .deviceAdd wrapperId endpointAddr => s.handleAddVfioDevice wrapperId.toNat endpointAddr.toNat
  | .deviceDel endpointAddr => s.handleDelVfioDevice endpointAddr.toNat
  | .dmabufMap regionId gpa size mmap => s.handleMapDmabuf regionId gpa size mmap
  | .dmabufUnmap regionId => s.handleUnmapDmabuf regionId

end State

end GunyahVmm.Iommu
