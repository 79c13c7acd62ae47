import GunyahVmm.Lib.Arith
import GunyahVmm.Lib.BTreeMap
import GunyahVmm.Lib.Traced
import GunyahVmm.Resources.AddressRange

/-! The basic memory mapper of the virtio IOMMU, and exports to a client. Unmapping memory in use is
a fault, until the client has released all. -/

namespace GunyahVmm.Iommu
open Run Resources

structure Protection where
  read : Bool
  write : Bool
  deriving DecidableEq

structure MemRegion where
  gpa : Nat
  len : Nat
  prot : Protection

structure MappingInfo where
  iova : Nat
  gpa : Nat
  size : Nat
  prot : Protection
  deriving DecidableEq

/-- An export session: its two events, and whether the one for the resolved fault is still here. -/
structure ExportState where
  exported : List AddressRange
  session : Nat
  unfaulted : Bool

structure BasicMemoryMapper where
  maps : BTreeMap Nat MappingInfo
  mask : Nat
  exportState : Option ExportState
  nextSession : Nat

/-- The removal of mappings; after a fault the caller has to wait for the event. -/
inductive RemoveMapResult where
  | success (event : Option Nat)
  | overlapFailure

inductive AddMapResult where
  | ok
  | overlapFailure
  deriving DecidableEq

inductive MapperError where
  | zeroSized
  | iovaOverflow
  | gpaOverflow
  | eventCreation
  | sessionActive
  | noExportState
  | brokenExportState
  | invalidIova (iova size : Nat)

/-- What the mapper does to the outside: it signals the events of a session. -/
inductive Signal where
  | fault (session : Nat)
  | faultResolved (session : Nat)

/-- A call ends with its result and the mapper it leaves. An error is a result like others. -/
abbrev Reply (α : Type) := Except MapperError α × BasicMemoryMapper

/-- The call succeeds with the value `a` and leaves the mapper `m`. -/
def returns {α : Type} (m : BasicMemoryMapper) (a : α) : Traced Signal Empty (Reply α) :=
  pure (.ok a, m)

def fails {α : Type} (m : BasicMemoryMapper) (e : MapperError) : Traced Signal Empty (Reply α) :=
  pure (.error e, m)

/-- An event is written; the call aborts if the write fails. -/
def signal (s : Signal) (evtOk : Bool) : Traced Signal Empty Unit := do
  Traced.act s
  Traced.lift (if evtOk then .ok () else .panic)

def fromStartAndSize (start size : Nat) : Option AddressRange :=
  if size = 0 then some .empty
  else (checkedAdd start (size - 1)).map fun stop => ⟨start, stop⟩

/-- `Vec::swap_remove`: the last element takes the place of the one removed. -/
def swapRemove {α : Type} (l : List α) (idx : Nat) : List α :=
  match l.getLast? with
  | some x => (l.set idx x).dropLast
  | none => []

namespace ExportState

def onFault (st : ExportState) (evtOk : Bool) : Traced Signal Empty (Option Nat × ExportState) :=
  if st.unfaulted then do
    signal (.fault st.session) evtOk
    pure (some st.session, { st with unfaulted := false })
  else pure (none, st)

def canExport (st : ExportState) : Bool := st.unfaulted

end ExportState

namespace BasicMemoryMapper

def new (mask : Nat) : BasicMemoryMapper := ⟨.empty, mask, none, 0⟩

def addMap (m : BasicMemoryMapper) (newMap : MappingInfo) :
    Traced Signal Empty (Reply AddMapResult) :=
  if newMap.size = 0 then fails m .zeroSized
  else
    match checkedAdd newMap.iova newMap.size with
    | none => fails m .iovaOverflow
    | some newIovaEnd =>
      match checkedAdd newMap.gpa newMap.size with
      | none => fails m .gpaOverflow
      | some _ =>
        let inserted := { m with maps := m.maps.insert newMap.iova newMap }
        match (m.maps.below newIovaEnd).getLast? with
        | none => returns inserted .ok
        | some (_, map) => do
          let mapEnd ← Traced.lift (addU64 map.iova map.size)
          if newMap.iova < mapEnd then returns m .overlapFailure
          else returns inserted .ok

/-- The keys to remove, from the end of the range down, or `none` for a partial overlap. -/
def toBeRemoved (iovaStart iovaEnd : Nat) :
    List (Nat × MappingInfo) → Outcome Empty (Option (List Nat))
  | [] => .ok (some [])
  | (key, map) :: rest => do
    let mapIovaEnd ← addU64 map.iova map.size
    if mapIovaEnd ≤ iovaStart then .ok (some [])
    else if iovaStart ≤ map.iova ∧ mapIovaEnd ≤ iovaEnd then do
      let keys ← toBeRemoved iovaStart iovaEnd rest
      .ok (keys.map (key :: ·))
    else .ok none

def removeKeys (maps : BTreeMap Nat MappingInfo) :
    List Nat → Outcome Empty (BTreeMap Nat MappingInfo)
  | [] => .ok maps
  | key :: keys => if maps.contains key then removeKeys (maps.remove key) keys else .panic

section
variable (m : BasicMemoryMapper)

/-- The end of `remove_map`: a range that is still exported is a fault. -/
def faultIfExported (iovaStart size : Nat) (evtOk : Bool) :
    Traced Signal Empty (Reply RemoveMapResult) :=
  match m.exportState with
  | none => returns m (.success none)
  | some st => do
    let removed ← Traced.lift (Outcome.expect (fromStartAndSize iovaStart size))
    if st.exported.any (·.overlaps removed) then do
      let (event, st) ← st.onFault evtOk
      returns { m with exportState := some st } (.success event)
    else returns m (.success none)

def removeMap (iovaStart size : Nat) (evtOk : Bool) : Traced Signal Empty (Reply RemoveMapResult) :=
  if size = 0 then fails m .zeroSized
  else
    match checkedAdd iovaStart size with
    | none => fails m .iovaOverflow
    | some iovaEnd => do
      match ← Traced.lift (toBeRemoved iovaStart iovaEnd (m.maps.below iovaEnd).reverse) with
      | none => returns m .overlapFailure
      | some keys => do
        let maps ← Traced.lift (removeKeys m.maps keys)
        faultIfExported { m with maps } iovaStart size evtOk

def resetDomain (evtOk : Bool) : Traced Signal Empty (Reply (Option Nat)) :=
  let m := { m with maps := .empty }
  match m.exportState with
  | none => returns m none
  | some st =>
    if st.exported.isEmpty then returns m none
    else do
      let (event, st) ← st.onFault evtOk
      returns { m with exportState := some st } event

/-- `created` says whether the events of the session could be made. -/
def startExportSession (created : Bool) : Traced Signal Empty (Reply Nat) :=
  if m.exportState.any (!·.exported.isEmpty) then fails m .sessionActive
  else if created then
    returns
      { m with exportState := some ⟨[], m.nextSession, true⟩, nextSession := m.nextSession + 1 }
      m.nextSession
  else fails m .eventCreation

end

/-- Put a part of a mapping in front; one that goes on in guest memory is extended. -/
def pushRegion (map : MappingInfo) (regionLen : Nat) :
    List MemRegion → Outcome Empty (List MemRegion)
  | [] => .ok [⟨map.gpa, regionLen, map.prot⟩]
  | last :: regions =>
    if wrappingAdd map.gpa map.size = last.gpa ∧ map.prot = last.prot then do
      let len ← addU64 last.len regionLen
      .ok ({ last with gpa := map.gpa, len } :: regions)
    else .ok (⟨map.gpa, regionLen, map.prot⟩ :: last :: regions)

/-- The loop of `export`, the last mapping first. The final `reverse` is no step of its own. -/
def exportLoop (iova size : Nat) : List (Nat × MappingInfo) → Nat → List MemRegion →
    Outcome Empty (Except MapperError (List MemRegion))
  | [], _, _ => .ok (.error (.invalidIova iova size))
  | (_, map) :: rest, lastIova, regions => do
    let mapEnd ← addU64 map.iova map.size
    if mapEnd < lastIova then .ok (.error (.invalidIova iova size))
    else do
      let regionLen ← subU64 lastIova (max map.iova iova)
      let regions ← pushRegion map regionLen regions
      if map.iova ≤ iova then
        match checkedAdd map.gpa (iova - map.iova), regions with
        | none, _ => .ok (.error .gpaOverflow)
        | some gpa, first :: regions => .ok (.ok ({ first with gpa } :: regions))
        | some _, [] => .panic
      else exportLoop iova size rest map.iova regions

/-- `export` of the source. -/
def exportRange (m : BasicMemoryMapper) (iova size : Nat) :
    Traced Signal Empty (Reply (List MemRegion)) :=
  match m.exportState with
  | none => fails m .noExportState
  | some st =>
    if st.canExport = false then fails m .brokenExportState
    else if size = 0 then fails m .zeroSized
    else
      match checkedAdd iova size with
      | none => fails m .iovaOverflow
      | some iovaEnd => do
        match ← Traced.lift (exportLoop iova size (m.maps.below iovaEnd).reverse iovaEnd []) with
        | .error e => fails m e
        | .ok regions =>
          let exported := st.exported ++ [⟨iova, iovaEnd - 1⟩]
          returns { m with exportState := some { st with exported } } regions

/-- A range that is not exported is only reported in the log. -/
def release (m : BasicMemoryMapper) (iova size : Nat) (evtOk : Bool) :
    Traced Signal Empty (Reply Unit) :=
  match fromStartAndSize iova size with
  | none => fails m .iovaOverflow
  | some toRemove =>
    match m.exportState with
    | none => fails m .noExportState
    | some st =>
      match st.exported.findIdx? fun r => compare r toRemove = .eq with
      | none => returns m ()
      | some idx => do
        let st := { st with exported := swapRemove st.exported idx }
        if st.exported.isEmpty && !st.unfaulted then
          signal (.faultResolved st.session) evtOk
        returns { m with exportState := some st } ()

end BasicMemoryMapper

/-! ## Runs -/

/-- A call of the mapper; `evtOk` says whether an event that it writes can be written. -/
inductive MapperOp where
  | addMap (map : MappingInfo)
  | removeMap (iovaStart size : Nat) (evtOk : Bool)
  | resetDomain (evtOk : Bool)
  | startExportSession (created : Bool)
  | exportRange (iova size : Nat)
  | release (iova size : Nat) (evtOk : Bool)

def BasicMemoryMapper.step (m : BasicMemoryMapper) :
    MapperOp → Traced Signal Empty BasicMemoryMapper
  | .addMap map => Prod.snd <$> m.addMap map
  | .removeMap iovaStart size evtOk => Prod.snd <$> m.removeMap iovaStart size evtOk
  | .resetDomain evtOk => Prod.snd <$> m.resetDomain evtOk
  | .startExportSession created => Prod.snd <$> m.startExportSession created
  | .exportRange iova size => Prod.snd <$> m.exportRange iova size
  | .release iova size evtOk => Prod.snd <$> m.release iova size evtOk

end GunyahVmm.Iommu
