import GunyahVmm.Lib.LinkedPath
import GunyahVmm.VirtioFs.AppendPath

/-! The scatter-gather lists of the virtio-fs driver, validated and submitted as one chain. The
library of the ring and the transport are given from outside (`Transport`); the ring is the table of
the request queue. -/

namespace GunyahVmm.VirtioFs
open GunyahVmm.Run

def maxUint16 : Nat := 0xFFFF
def maxUint32 : Nat := 0xFFFFFFFF
def maxUint64 : Nat := 0xFFFFFFFFFFFFFFFF

def vringDescFNext : BitVec 16 := 1
def vringDescFWrite : BitVec 16 := 2

/-! ## The ring -/

structure VringDesc where
  addr : BitVec 64
  len : BitVec 32
  flags : BitVec 16
  next : Nat

/-- The descriptor table of a queue that has room for at least one descriptor. -/
structure Vring where
  queueSize : Nat
  desc : List VringDesc
  desc_length : desc.length = queueSize
  queueSize_pos : 0 < queueSize

structure DescIndices where
  headDescIdx : Nat
  nextDescIdx : Nat

/-- What a device finds at an index: the descriptor and, with the NEXT flag, the next index. -/
def Vring.link (ring : Vring) (i : Nat) : Option (VringDesc × Option Nat) :=
  ring.desc[i]?.map fun d => (d, if d.flags &&& vringDescFNext ≠ 0 then some d.next else none)

/-! ## The lists -/

structure IoVector where
  /-- The address of the buffer; NULL is 0. -/
  buffer : BitVec 64
  size : Nat
  mapped : Bool := false
  mappedAddress : BitVec 64 := 0
  mapping : BitVec 64 := 0
  transferred : Nat := 0

/-- `NumVec` is the number of the vectors; `none` is the NULL pointer. -/
structure SgList where
  ioVec : Option (List IoVector)
  totalSize : Nat := 0

def SgList.vectors (list : SgList) : List IoVector := list.ioVec.getD []

@[simp] lemma SgList.vectors_some (vs : List IoVector) (totalSize : Nat) :
    (SgList.mk (some vs) totalSize).vectors = vs := rfl

/-- One round of the inner loop of the validation. -/
def validateVector (totalSize : Nat) (v : IoVector) : Outcome EfiStatus (Nat × IoVector) :=
  if v.buffer = 0 ∨ v.size = 0 then .err .invalidParameter
  else if maxUint32 - totalSize < v.size then .err .unsupported
  else .ok (totalSize + v.size,
    { v with mapped := false, mappedAddress := 0, mapping := 0, transferred := 0 })

def validateVectors (totalSize : Nat) : List IoVector → Outcome EfiStatus (Nat × List IoVector)
  | [] => .ok (totalSize, [])
  | v :: vs => do
    let (totalSize, v) ← validateVector totalSize v
    let (totalSize, vs) ← validateVectors totalSize vs
    .ok (totalSize, v :: vs)

/-- One round of the outer loop of the validation. -/
def validateList (queueSize descriptorsNeeded : Nat) (list : SgList) :
    Outcome EfiStatus (Nat × SgList) :=
  match list.ioVec with
  | none => .err .invalidParameter
  | some vectors =>
    let numVec := vectors.length
    if numVec = 0 then .err .invalidParameter
    else if maxUint16 - descriptorsNeeded < numVec ∨ queueSize < descriptorsNeeded + numVec then
      .err .unsupported
    else do
      let (totalSize, vectors) ← validateVectors 0 vectors
      .ok (descriptorsNeeded + numVec, ⟨some vectors, totalSize⟩)

def virtioFsSgListsValidate (queueSize : Nat) (requestSgList responseSgList : Option SgList) :
    Outcome EfiStatus (SgList × Option SgList) :=
  match requestSgList with
  | none => .err .invalidParameter
  | some request => do
    let (descriptorsNeeded, request) ← validateList queueSize 0 request
    match responseSgList with
    | none => .ok (request, none)
    | some response => do
      let (_, response) ← validateList queueSize descriptorsNeeded response
      .ok (request, some response)

/-! ## Submission -/

inductive MapOperation where
  | busMasterRead
  | busMasterWrite
  deriving DecidableEq

/-- How a submission fails: by a code that a callee returned, or with EFI_DEVICE_ERROR. -/
inductive SubmitError where
  | returned (code : BitVec 64)
  | deviceError

structure Transport where
  /-- The index of the first descriptor of a new chain, and the one to use next. -/
  prepare : Vring → DescIndices
  /-- Append a buffer with an address, a length and flags. -/
  appendDesc : Vring → BitVec 64 → BitVec 32 → BitVec 16 → DescIndices → Vring × DescIndices
  /-- The answer to the mapping of the vector at an index of its list: its address and token, or
  an error code. -/
  mapAllBytes : MapOperation → Nat → IoVector → Except (BitVec 64) (BitVec 64 × BitVec 64)
  /-- The number of bytes that the device reports as written, or an error code. -/
  flush : Vring → DescIndices → Except (BitVec 64) (BitVec 32)
  /-- The error code of an unmapping, if it fails. -/
  unmapSharedBuffer : BitVec 64 → Option (BitVec 64)

/-- The rows of the three parameter arrays: operation, descriptor flag and list of a `ListId`. -/
def sgListVirtioMapOp (listId : Nat) : MapOperation :=
  if listId = 0 then .busMasterRead else .busMasterWrite

def sgListDescriptorFlag (listId : Nat) : BitVec 16 := if listId = 0 then 0 else vringDescFWrite

def sgListParamSize : Nat := 2

/-- Map the vectors of a list, from the one at `ioVecIdx` on. A failure leaves the later ones as
they are. -/
def mapVectors (bus : Transport) (op : MapOperation) :
    Nat → List IoVector → List IoVector × Option SubmitError
  | _, [] => ([], none)
  | ioVecIdx, v :: vs =>
    match bus.mapAllBytes op ioVecIdx v with
    | .error code => (v :: vs, some (.returned code))
    | .ok (mappedAddress, mapping) =>
      let rest := mapVectors bus op (ioVecIdx + 1) vs
      ({ v with mappedAddress, mapping, mapped := true } :: rest.1, rest.2)

/-- Set VRING_DESC_F_NEXT on all except the very last descriptor. -/
def nextFlag (listId ioVecIdx numVec : Nat) : BitVec 16 :=
  if listId = sgListParamSize - 1 ∧ ioVecIdx = numVec - 1 then 0 else vringDescFNext

def composeVectors (bus : Transport) (listId numVec : Nat) :
    Nat → List IoVector → Vring × DescIndices → Vring × DescIndices
  | _, [], ring => ring
  | ioVecIdx, v :: vs, ring =>
    composeVectors bus listId numVec (ioVecIdx + 1) vs
      (bus.appendDesc ring.1 v.mappedAddress (BitVec.ofNat 32 v.size)
        (sgListDescriptorFlag listId ||| nextFlag listId ioVecIdx numVec) ring.2)

def composeChain (bus : Transport) (ring : Vring) (request : List IoVector)
    (response : Option (List IoVector)) : Vring × DescIndices :=
  let ring := composeVectors bus 0 request.length 0 request (ring, bus.prepare ring)
  match response with
  | none => ring
  | some vectors => composeVectors bus 1 vectors.length 0 vectors ring

/-- How much of each response vector the device has written; the rest of its count is returned. -/
def transferResponse : Nat → List IoVector → Nat × List IoVector
  | total, [] => (total, [])
  | total, v :: vs =>
    let transferred := min total v.size
    let rest := transferResponse (total - transferred) vs
    (rest.1, { v with transferred } :: rest.2)

/-- Unmap the mapped vectors of a list, the last one first. The first failure turns a success
into that failure. -/
def unmapVectors (bus : Transport) :
    List IoVector → Option SubmitError → List IoVector × Option SubmitError
  | [], status => ([], status)
  | v :: vs, status =>
    let (vs, status) := unmapVectors bus vs status
    if !v.mapped then (v :: vs, status)
    else
      let status := match status with
        | some e => some e
        | none => (bus.unmapSharedBuffer v.mapping).map .returned
      ({ v with mapped := false, mappedAddress := 0, mapping := 0 } :: vs, status)

/-- What the driver hands to the device with `VirtioFlush`, and the vectors that it describes. -/
structure Placed where
  ring : Vring
  indices : DescIndices
  request : List IoVector
  response : Option (List IoVector)

/-- What a submission leaves behind. `placed` is missing if no chain reached the device. -/
structure Submission where
  placed : Option Placed
  request : List IoVector
  response : Option (List IoVector)
  status : Option SubmitError

/-- The label `Unmap`: both lists in reverse order. -/
def finish (bus : Transport) (placed : Option Placed) (request : List IoVector)
    (response : Option (List IoVector)) (status : Option SubmitError) : Submission :=
  let (response, status) := match response with
    | none => (none, status)
    | some vectors =>
      let unmapped := unmapVectors bus vectors status
      (some unmapped.1, unmapped.2)
  let (request, status) := unmapVectors bus request status
  ⟨placed, request, response, status⟩

/-- The transfer sizes after a flush that reported `written` bytes. An assertion that fails
aborts. -/
def afterFlush (bus : Transport) (placed : Placed) (response : Option SgList) (written : Nat) :
    Outcome Empty Submission :=
  let bytesPermittedForWrite := match response with
    | none => 0
    | some list => list.totalSize
  if bytesPermittedForWrite < written then
    .ok (finish bus (some placed) placed.request placed.response (some .deviceError))
  else
    let request := placed.request.map fun v => { v with transferred := v.size }
    let (remaining, response) := match placed.response with
      | none => (written, none)
      | some vectors =>
        let transferred := transferResponse written vectors
        (transferred.1, some transferred.2)
    if remaining ≠ 0 then .panic
    else .ok (finish bus (some placed) request response none)

def virtioFsSgListsSubmit (bus : Transport) (ring : Vring) (requestSgList : SgList)
    (responseSgList : Option SgList) : Outcome Empty Submission :=
  let mappedRequest := mapVectors bus (sgListVirtioMapOp 0) 0 requestSgList.vectors
  match mappedRequest.2 with
  | some e =>
    .ok (finish bus none mappedRequest.1 (responseSgList.map SgList.vectors) (some e))
  | none =>
    let mappedResponse := match responseSgList with
      | none => (none, none)
      | some list =>
        let mapped := mapVectors bus (sgListVirtioMapOp 1) 0 list.vectors
        (some mapped.1, mapped.2)
    match mappedResponse.2 with
    | some e => .ok (finish bus none mappedRequest.1 mappedResponse.1 (some e))
    | none =>
      let chain := composeChain bus ring mappedRequest.1 mappedResponse.1
      let placed : Placed := ⟨chain.1, chain.2, mappedRequest.1, mappedResponse.1⟩
      match bus.flush chain.1 chain.2 with
      | .error code =>
        .ok (finish bus (some placed) placed.request placed.response (some (.returned code)))
      | .ok written => afterFlush bus placed responseSgList written.toNat

/-! ## FUSE_FORGET -/

structure FuseRequest where
  len : Nat
  opcode : Nat
  unique : Nat
  nodeId : BitVec 64
  uid : Nat
  gid : Nat
  pid : Nat
  padding : Nat

def sizeOfFuseRequest : Nat := 40
def sizeOfFuseForgetRequest : Nat := 8
def virtioFsFuseOpForget : Nat := 2

def virtioFsFuseNewRequest (requestId requestSize opcode : Nat) (nodeId : BitVec 64) :
    Outcome EfiStatus (FuseRequest × Nat) :=
  if requestSize < sizeOfFuseRequest then .err .invalidParameter
  else if requestId = maxUint64 then .err .outOfResources
  else .ok (⟨requestSize, opcode, requestId, nodeId, 0, 0, 1, 0⟩, requestId + 1)

/-- The request list of FUSE_FORGET: the header and the number of lookups, at their addresses. -/
def forgetSgList (commonReq forgetReq : BitVec 64) : SgList :=
  ⟨some [{ buffer := commonReq, size := sizeOfFuseRequest },
    { buffer := forgetReq, size := sizeOfFuseForgetRequest }], 0⟩

def virtioFsFuseForget (bus : Transport) (ring : Vring) (requestId : Nat) (nodeId : BitVec 64)
    (commonReq forgetReq : BitVec 64) : Outcome EfiStatus (Nat × Outcome Empty Submission) := do
  let (request, _) ←
    virtioFsSgListsValidate ring.queueSize (some (forgetSgList commonReq forgetReq)) none
  let (_, requestId) ←
    virtioFsFuseNewRequest requestId request.totalSize virtioFsFuseOpForget nodeId
  .ok (requestId, virtioFsSgListsSubmit bus ring request none)

end GunyahVmm.VirtioFs
