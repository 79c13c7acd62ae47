import GunyahVmm.Lib.Arith
import GunyahVmm.Lib.SlotMap
import Mathlib.Data.BitVec

/-! The packed tables of a swap file: each page has its slot, each slot its page or the next free.
-/

namespace GunyahVmm.Swap
open Run Run.Outcome

/-- On a system with 4 KiB pages, guest memory is less than 8 TiB. -/
def maxPageIdx : Nat := 2 ^ 31 - 2

inductive MmapError where
  | invalidRange (offset count size : Nat)
  | systemCallFailed

inductive VolatileMemoryError where
  | outOfBounds (addr : Nat)
  | overflow (base offset : Nat)

inductive Error where
  | io
  | mmap (operation : String) (e : MmapError)
  | volatileMemory (e : VolatileMemoryError)
  | outOfRange
  | invalidSize
  | invalidIndex

/-! ## Slots -/

/-- The top bit tells a freed slot. The others are its page, or the next freed slot plus one. -/
structure FilePageState where
  word : BitVec 32

namespace FilePageState

def freedBitMask : BitVec 32 := 0x80000000#32

def freedState (firstFreedPage : Option Nat) : Outcome Error FilePageState :=
  match firstFreedPage with
  | none => .ok ⟨freedBitMask ||| 0#32⟩
  | some idxFile => do
    let next ← addU32 (idxFile % u32Size) 1
    .ok ⟨freedBitMask ||| BitVec.ofNat 32 next⟩

def allocatedState (idxPage : Nat) : Option FilePageState :=
  if idxPage ≤ maxPageIdx then some ⟨BitVec.ofNat 32 idxPage⟩ else none

def isFreed (state : FilePageState) : Bool := state.word &&& freedBitMask != 0

def nextFileFreedIdx (state : FilePageState) : Option (Option Nat) :=
  if state.isFreed then
    let nextIdxFile := ~~~freedBitMask &&& state.word
    if nextIdxFile = 0 then some none else some (some (nextIdxFile.toNat - 1))
  else none

def idxPage (state : FilePageState) : Option Nat :=
  if state.isFreed then none else some state.word.toNat

end FilePageState

/-! ## Pages -/

/-- Zero for a page not in the file. Otherwise a bit for present, and its slot plus one. -/
structure PageState where
  word : BitVec 32

namespace PageState

def idxFileMask : BitVec 32 := 0x7fffffff#32

def presentBitMask : BitVec 32 := 0x80000000#32

def isNone (state : PageState) : Bool := state.word == 0

def idxFile (state : PageState) : Outcome Error (Option Nat) :=
  if state.word ≠ 0 then do
    let idx ← subU64 (state.word &&& idxFileMask).toNat 1
    .ok (some idx)
  else .ok none

def isPresent (state : PageState) : Bool := state.word &&& presentBitMask != 0

def update (idxFile : Nat) : Outcome Error PageState := do
  let idx ← addU32 (idxFile % u32Size) 1
  .ok ⟨BitVec.ofNat 32 idx ||| presentBitMask⟩

def markAsPresent (state : PageState) : PageState := ⟨state.word ||| presentBitMask⟩

def clear (state : PageState) : PageState := ⟨state.word &&& ~~~presentBitMask⟩

def free : PageState := ⟨0⟩

end PageState

/-! ## The table of the slots -/

structure FilePageStates where
  firstIdxFileFreed : Option Nat
  states : List FilePageState

namespace FilePageStates

def new : FilePageStates := ⟨none, []⟩

def len (fs : FilePageStates) : Nat := fs.states.length

def free (fs : FilePageStates) (idxFile : Nat) : Outcome Error FilePageStates := do
  let state ← FilePageState.freedState fs.firstIdxFileFreed
  if idxFile < fs.len then .ok ⟨some idxFile, fs.states.set idxFile state⟩ else .panic

/-- Give a page the slot freed last, or a new one when there is none. -/
def allocate (fs : FilePageStates) (idxPage : Nat) : Outcome Error (Nat × FilePageStates) :=
  match fs.firstIdxFileFreed with
  | some idxFileFreed => do
    let freed ← expect fs.states[idxFileFreed]?
    -- pages in free list must be freed pages
    let nextIdxFileFreed ← expect freed.nextFileFreedIdx
    -- idx_page must be less than MAX_PAGE_IDX
    let state ← expect (FilePageState.allocatedState idxPage)
    .ok (idxFileFreed, ⟨nextIdxFileFreed, fs.states.set idxFileFreed state⟩)
  | none => do
    let state ← expect (FilePageState.allocatedState idxPage)
    .ok (fs.len, ⟨none, fs.states ++ [state]⟩)

def isPresentSlot (pageStates : List PageState) (state : FilePageState) : Outcome Error Bool :=
  if state.isFreed then .ok false
  else do
    -- the page is not freed
    let idxPage ← expect state.idxPage
    let page ← expect pageStates[idxPage]?
    .ok page.isPresent

def position (pageStates : List PageState) : List FilePageState → Outcome Error (Option Nat)
  | [] => .ok none
  | state :: rest => do
    if ← isPresentSlot pageStates state then .ok (some 0)
    else
      let found ← position pageStates rest
      .ok (found.map (· + 1))

/-- The loop over the slots behind the head: the number of slots in the range. -/
def countPresent (pageStates : List PageState) (headIdxPage maxPages : Nat) (consecutive : Bool) :
    List FilePageState → Nat → Outcome Error Nat
  | [], pages => .ok pages
  | state :: rest, pages =>
    if state.isFreed then .ok pages
    else do
      -- allocated page must have idx_page
      let idxPage ← expect state.idxPage
      let page ← expect pageStates[idxPage]?
      if !page.isPresent || (consecutive && idxPage != headIdxPage + pages) then .ok pages
      else if maxPages ≤ pages + 1 then .ok (pages + 1)
      else countPresent pageStates headIdxPage maxPages consecutive rest (pages + 1)

/-- The first range of slots from `idxFile` on with present pages, and the page of its first. -/
def findPresentPagesRange (fs : FilePageStates) (idxFile : Nat) (pageStates : List PageState)
    (maxPages : Nat) (consecutive : Bool) : Outcome Error (Option ((Nat × Nat) × Nat)) :=
  if fs.len < idxFile then .panic
  else do
    match ← position pageStates (fs.states.drop idxFile) with
    | none => .ok none
    | some nextHeadIdxOffset =>
      let head := idxFile + nextHeadIdxOffset
      let state ← expect fs.states[head]?
      -- the file page must not be freed
      let headIdxPage ← expect state.idxPage
      if 1 < maxPages then
        let pages ← countPresent pageStates headIdxPage maxPages consecutive
          (fs.states.drop (head + 1)) 1
        .ok (some ((head, head + pages), headIdxPage))
      else .ok (some ((head, head + 1), headIdxPage))

end FilePageStates

end GunyahVmm.Swap
