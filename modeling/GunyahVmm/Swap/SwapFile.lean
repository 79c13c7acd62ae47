import GunyahVmm.Lib.Blocks
import GunyahVmm.Lib.Ends
import GunyahVmm.Swap.PageStates

/-! The swap file of a memory region, written with `pwrite` and read through a shared mapping.

Every system call may fail, and a failed call leaves what it has done. -/

namespace GunyahVmm.Swap
open Run

/-- The host, with pages of `2 ^ shift` bytes. `fails n` is the answer to its `n`-th call: `some k`
is a failure, of a write after `k` bytes. -/
structure Host where
  shift : Nat
  shift_le : shift ≤ 32
  fails : Nat → Option Nat

namespace Host

def isPageAligned (host : Host) (v : Nat) : Bool := v &&& (1 <<< host.shift - 1) == 0

def bytesToPages (host : Host) (sizeInBytes : Nat) : Nat := sizeInBytes >>> host.shift

def pagesToBytes (host : Host) (numOfPages : Nat) : Nat := (numOfPages <<< host.shift) % u64Size

end Host

/-- The file, the number of host calls, the mapping, and the tables. Slots before `cursorMlock` are
locked. -/
structure SwapFile where
  file : Memory
  calls : Nat
  mmapSize : Nat
  pageStates : List PageState
  fileStates : FilePageStates
  cursorMlock : Nat
  minPossiblePresentIdxFile : Nat

/-- How a call ends early: with an error, or with the process. -/
inductive Stop where
  | returned (e : Error)
  | abort

abbrev Call (α : Type) := EStateM Stop SwapFile α

def fail {α : Type} (e : Error) : Call α := throw (.returned e)

def lift {α : Type} : Outcome Error α → Call α
  | .ok a => pure a
  | .err e => fail e
  | .panic => throw .abort

namespace SwapFile
variable (host : Host)

def new (file : Memory) (numOfPages : Nat) : Outcome Error SwapFile :=
  if maxPageIdx < numOfPages then .err .invalidSize
  else
    match host.fails 0 with
    | some _ => .err (.mmap "create" .systemCallFailed)
    | none => .ok {
        file
        calls := 1
        mmapSize := host.pagesToBytes numOfPages
        pageStates := List.replicate numOfPages ⟨0⟩
        fileStates := FilePageStates.new
        cursorMlock := 0
        minPossiblePresentIdxFile := 0 }

/-! ## The host -/

def mappingCall (operation : String) (memOffset count : Nat) : Call Unit := do
  let s ← get
  if memOffset + count < u64Size ∧ memOffset + count ≤ s.mmapSize then
    set { s with calls := s.calls + 1 }
    match host.fails s.calls with
    | some _ => fail (.mmap operation .systemCallFailed)
    | none => pure ()
  else fail (.mmap operation (.invalidRange memOffset count s.mmapSize))

def unlock : Nat → Nat → Call Unit := mappingCall host "munlock"

def lockOnFault : Nat → Nat → Call Unit := mappingCall host "mlock"

def asyncPrefetch : Nat → Nat → Call Unit := mappingCall host "madvise willneed"

/-- `MADV_DONTNEED` on a shared mapping: the file keeps its bytes. -/
def dropPageCache : Nat → Nat → Call Unit := mappingCall host "madvise dontneed"

def unlockSlots (start stop : Nat) : Call Unit := do
  let pages ← lift (subU64 stop start)
  unlock host (host.pagesToBytes start) (host.pagesToBytes pages)

def writeAllAt (buf : List (BitVec 8)) (offset : Nat) : Call Unit := do
  let s ← get
  match host.fails s.calls with
  | some n =>
    set { s with file := s.file.store offset (buf.take n), calls := s.calls + 1 }
    fail .io
  | none => set { s with file := s.file.store offset buf, calls := s.calls + 1 }

def mmapSlice (s : SwapFile) (offset count : Nat) : Outcome Error (List (BitVec 8)) :=
  if u64Size ≤ offset + count then .err (.volatileMemory (.overflow offset count))
  else if s.mmapSize < offset + count then .err .outOfRange
  else .ok ((List.range count).map fun i => s.file (offset + i))

/-! ## Pages in the file -/

def pageContent (s : SwapFile) (idxPage : Nat) (allowCleared : Bool) :
    Outcome Error (Option (List (BitVec 8))) :=
  match s.pageStates[idxPage]? with
  | none => .err .outOfRange
  | some state =>
    if !state.isNone && (allowCleared || state.isPresent) then do
      let slot ← state.idxFile
      -- the page is not none
      let idxFile ← Outcome.expect slot
      let slice ← s.mmapSlice (host.pagesToBytes idxFile) (host.pagesToBytes 1)
      .ok (some slice)
    else .ok none

/-- The pages behind the head have to be present and in the slots behind that of the head. -/
def checkConsecutive (s : SwapFile) : List Nat → Nat → Outcome Error Unit
  | [], _ => .ok ()
  | idx :: rest, idxFile =>
    match s.pageStates[idx]? with
    | none => .err .outOfRange
    | some state =>
      if state.isNone || !state.isPresent then .err .invalidIndex
      else do
        let slot ← state.idxFile
        -- the page is not none
        let slot ← Outcome.expect slot
        if slot ≠ idxFile + 1 then .err .invalidIndex
        else checkConsecutive s rest (idxFile + 1)

def convertIdxPageRangeToIdxFile (s : SwapFile) (start stop : Nat) : Outcome Error (Nat × Nat) :=
  match s.pageStates[start]? with
  | none => .err .outOfRange
  | some state =>
    if state.isNone || !state.isPresent then .err .invalidIndex
    else do
      let slot ← state.idxFile
      -- the page is not none
      let headIdxFile ← Outcome.expect slot
      s.checkConsecutive (List.range' (start + 1) (stop - (start + 1))) headIdxFile
      let sum ← addU64 headIdxFile stop
      let last ← subU64 sum start
      .ok (headIdxFile, last)

/-! ## Locking -/

def lockAndAsyncPrefetch (maxPages : Nat) : Call Nat := do
  let s ← get
  match ← lift (s.fileStates.findPresentPagesRange s.cursorMlock s.pageStates maxPages false) with
  | some ((start, stop), _) =>
    let pages ← lift (subU64 stop start)
    lockOnFault host (host.pagesToBytes start) (host.pagesToBytes pages)
    asyncPrefetch host (host.pagesToBytes start) (host.pagesToBytes pages)
    modify fun s => { s with cursorMlock := stop }
    pure pages
  | none =>
    set { s with cursorMlock := s.fileStates.len }
    pure 0

def clearMlock : Call Unit := do
  let s ← get
  if 0 < s.cursorMlock then
    unlock host 0 (host.pagesToBytes s.cursorMlock)
    modify fun s => { s with cursorMlock := 0 }
  else modify fun s => { s with cursorMlock := 0 }

/-! ## Clearing and freeing -/

/-- Unlock the locked part of a range of slots that are to be dropped from the page cache. -/
def unlockDropped (start stop : Nat) : Call Nat := do
  let s ← get
  if start < s.cursorMlock then
    let pages ← lift (subU64 (min stop s.cursorMlock) start)
    unlock host (host.pagesToBytes start) (host.pagesToBytes pages)
    pure pages
  else pure 0

def clearRange (start stop : Nat) : Call Nat := do
  let s ← get
  let range ← lift (s.convertIdxPageRangeToIdxFile start stop)
  if stop < start ∨ s.pageStates.length < stop then throw .abort
  else
    set { s with
      pageStates := s.pageStates.mapIdx fun i (state : PageState) =>
        if start ≤ i ∧ i < stop then state.clear else state }
    let munlocked ← unlockDropped host range.1 range.2
    let pages ← lift (subU64 range.2 range.1)
    dropPageCache host (host.pagesToBytes range.1) (host.pagesToBytes pages)
    pure munlocked

/-- A locked page is freed: its slot joins the slots to be unlocked, which are unlocked first if
apart. -/
def noteLocked (idxFile mlockedPages : Nat) (mlockRange : Option (Nat × Nat)) :
    Call (Nat × Option (Nat × Nat)) :=
  match mlockRange with
  | none => pure (mlockedPages + 1, some (idxFile, idxFile + 1))
  | some (start, stop) =>
    if idxFile + 1 = start then pure (mlockedPages + 1, some (idxFile, stop))
    else if idxFile = stop then pure (mlockedPages + 1, some (start, stop + 1))
    else do
      unlockSlots host start stop
      pure (mlockedPages + 1, some (idxFile, idxFile + 1))

/-- What a freed page adds to the slots to be unlocked. -/
def noteFreed (cursorMlock : Nat) (state : PageState) (idxFile : Nat)
    (locked : Nat × Option (Nat × Nat)) : Call (Nat × Option (Nat × Nat)) :=
  if idxFile < cursorMlock ∧ state.isPresent then noteLocked host idxFile locked.1 locked.2
  else pure locked

def freePage (locked : Nat × Option (Nat × Nat)) (cur : Nat) :
    Call (Nat × Option (Nat × Nat)) := do
  let s ← get
  match s.pageStates[cur]? with
  | none => throw .abort
  | some state =>
    if state.isNone then
      set { s with pageStates := s.pageStates.set cur PageState.free }
      pure locked
    else
      match ← lift state.idxFile with
      -- the page is not none
      | none => throw .abort
      | some idxFile =>
        let fileStates ← lift (s.fileStates.free idxFile)
        set { s with fileStates }
        let locked ← noteFreed host s.cursorMlock state idxFile locked
        modify fun s => { s with pageStates := s.pageStates.set cur PageState.free }
        pure locked

def freeRange (start stop : Nat) : Call Nat := do
  let s ← get
  if s.pageStates.length < stop then fail .outOfRange
  else if stop < start then throw .abort
  else
    let locked ← (List.range' start (stop - start)).foldlM (freePage host) (0, none)
    match locked.2 with
    | none => pure locked.1
    | some (first, last) =>
      unlockSlots host first last
      pure locked.1

/-! ## Writing -/

def markAsPresent (idxPage : Nat) : Call Unit := do
  let s ← get
  match s.pageStates[idxPage]? with
  | none => fail .outOfRange
  | some state =>
    if !state.isNone && !state.isPresent then
      set { s with pageStates := s.pageStates.set idxPage state.markAsPresent }
      match ← lift state.markAsPresent.idxFile with
      -- the page is not none
      | none => throw .abort
      | some idxFile =>
        modify fun s => { s with
          minPossiblePresentIdxFile := min idxFile s.minPossiblePresentIdxFile }
    else fail .invalidIndex

/-- Give a page a slot if it has none, and mark it as present. -/
def allocatePage (cur : Nat) : Call Unit := do
  let s ← get
  match s.pageStates[cur]? with
  | none => throw .abort
  | some state =>
    if state.isNone then
      let (idxFile, fileStates) ← lift (s.fileStates.allocate cur)
      let state ← lift (PageState.update idxFile)
      set { s with fileStates, pageStates := s.pageStates.set cur state }
    else set { s with pageStates := s.pageStates.set cur state.markAsPresent }

/-- Write the pending pages, which lie in slots in a row, and return the bytes left. -/
def writePending (pendingIdxFile pendingPages : Nat) (memSlice : List (BitVec 8)) :
    Call (List (BitVec 8)) :=
  if memSlice.length < host.pagesToBytes pendingPages then throw .abort
  else do
    writeAllAt host (memSlice.take (host.pagesToBytes pendingPages))
      (host.pagesToBytes pendingIdxFile)
    pure (memSlice.drop (host.pagesToBytes pendingPages))

/-- The loop that writes the pages, those in slots in a row with one call. -/
def writePages : List PageState → Option Nat → Nat → List (BitVec 8) → Call (List (BitVec 8))
  | [], none, _, memSlice => pure memSlice
  | [], some pendingIdxFile, pendingPages, memSlice =>
    writePending host pendingIdxFile pendingPages memSlice
  | state :: rest, pending, pendingPages, memSlice => do
    match ← lift state.idxFile with
    -- pages must be allocated
    | none => throw .abort
    | some idxFile =>
      match pending with
      | none => writePages rest (some idxFile) 1 memSlice
      | some pendingIdxFile =>
        if idxFile = pendingIdxFile + pendingPages then
          writePages rest pending (pendingPages + 1) memSlice
        else
          let memSlice ← writePending host pendingIdxFile pendingPages memSlice
          writePages rest (some idxFile) 1 memSlice

def writeToFile (idxPage : Nat) (memSlice : List (BitVec 8)) : Call Unit := do
  if !host.isPageAligned memSlice.length then fail .invalidSize
  else
    let numPages := host.bytesToPages memSlice.length
    let s ← get
    let last ← lift (addU64 idxPage numPages)
    if s.pageStates.length < last then fail .outOfRange
    else
      set { s with minPossiblePresentIdxFile := 0 }
      (List.range' idxPage numPages).forM allocatePage
      let s ← get
      let rest ← writePages host ((s.pageStates.drop idxPage).take numPages) none 0 memSlice
      -- mem_slice must be all consumed
      if rest.isEmpty then pure () else throw .abort

def firstDataRange (maxPages : Nat) : Call (Option (Nat × Nat)) := do
  let s ← get
  match ← lift (s.fileStates.findPresentPagesRange s.minPossiblePresentIdxFile s.pageStates
    maxPages true) with
  | some ((start, stop), headIdxPage) =>
    set { s with minPossiblePresentIdxFile := start }
    let sum ← lift (addU64 headIdxPage stop)
    let last ← lift (subU64 sum start)
    pure (some (headIdxPage, last))
  | none =>
    set { s with minPossiblePresentIdxFile := s.fileStates.len }
    pure none

end SwapFile

/-! ## Runs -/

inductive Request where
  | writeToFile (idxPage : Nat) (memSlice : List (BitVec 8))
  | clearRange (start stop : Nat)
  | markAsPresent (idxPage : Nat)
  | freeRange (start stop : Nat)
  | firstDataRange (maxPages : Nat)
  | lockAndAsyncPrefetch (maxPages : Nat)
  | clearMlock

namespace SwapFile

/-- The file after a call, whether it succeeds or fails; none if the call aborts. -/
def after {α : Type} (call : Call α) (s : SwapFile) : Option SwapFile :=
  match call s with
  | .ok _ s' => some s'
  | .error (.returned _) s' => some s'
  | .error .abort _ => none

def step (host : Host) (s : SwapFile) : Request → Option SwapFile
  | .writeToFile idxPage memSlice => after (writeToFile host idxPage memSlice) s
  | .clearRange start stop => after (clearRange host start stop) s
  | .markAsPresent idxPage => after (markAsPresent idxPage) s
  | .freeRange start stop => after (freeRange host start stop) s
  | .firstDataRange maxPages => after (firstDataRange maxPages) s
  | .lockAndAsyncPrefetch maxPages => after (lockAndAsyncPrefetch host maxPages) s
  | .clearMlock => after (clearMlock host) s

end SwapFile

end GunyahVmm.Swap
