import GunyahVmm.Lib.Run
import GunyahVmm.Resources.AddressRange
import Mathlib.Data.List.AList

/-! The address allocator (`resources/src/address_allocator.rs`) carves ranges out of an ordered set
of free regions and coalesces released ones. An addition that leaves 64 bits aborts. -/

namespace GunyahVmm.Resources
open Run

inductive Alloc where
  | anon (n : Nat)
  | pciBar (bus dev func bar : Nat)
  | gpuRenderNode
  | pmemDevice (n : Nat)
  | pstore
  | pciBridgeWindow (bus dev func : Nat)
  | pciBridgePrefetchWindow (bus dev func : Nat)
  | fileBacked (n : Nat)
  deriving DecidableEq

inductive Error where
  | allocSizeZero
  | badAlignment
  | badAlloc (alloc : Alloc)
  | existingAlloc (alloc : Alloc)
  | outOfSpace
  | regionOverlap (slot : AddressRange)
  deriving DecidableEq

/-- The allocations with their tags' texts, by tag. -/
abbrev Allocs := AList (fun _ : Alloc => AddressRange × String)

/-- An order in which a hash map is iterated: any rearrangement of its entries. -/
structure HashOrder where
  iter : List (Sigma (fun _ : Alloc => AddressRange × String)) →
    List (Sigma (fun _ : Alloc => AddressRange × String))
  perm : ∀ l, (iter l).Perm l

structure AddressAllocator where
  pools : List AddressRange
  minAlign : Nat
  preferredAlign : Nat
  allocs : Allocs
  regions : BTreeSet AddressRange

def isPowerOfTwo (n : Nat) : Bool := n != 0 && n &&& (n - 1) == 0

/-- `!(alignment - 1)` on 64 bits. -/
def alignMask (alignment : Nat) : Nat := u64Size - 1 - (alignment - 1)

namespace AddressAllocator

def newFromList (pools : List AddressRange) (minAlign preferredAlign : Option Nat) :
    Outcome Error AddressAllocator :=
  let pools := pools.filter (fun p => !p.isEmpty)
  let minAlign := minAlign.getD 4
  if !isPowerOfTwo minAlign || minAlign == 0 then .err .badAlignment
  else
    let preferredAlign := preferredAlign.getD minAlign
    if !isPowerOfTwo preferredAlign || preferredAlign < minAlign then .err .badAlignment
    else .ok {
      pools, minAlign, preferredAlign
      allocs := ∅
      regions := pools.foldl BTreeSet.insert BTreeSet.empty }

def internalAllocateFromSlot (a : AddressAllocator) (slot range : AddressRange) (alloc : Alloc)
    (tag : String) : Outcome Error Nat × AddressAllocator :=
  if !a.regions.contains slot then (.panic, a)
  else
    let regions := a.regions.remove slot
    let (before, after) := slot.nonOverlappingRanges range
    let regions := if before.isEmpty then regions else regions.insert before
    let regions := if after.isEmpty then regions else regions.insert after
    (.ok range.start, { a with regions, allocs := a.allocs.insert alloc (range, tag) })

/-- Whether an aligned range of `size` addresses starts low in `range`.
`none` is the overflow of `size - 1 + alignment`. -/
def fits (size alignment : Nat) (range : AddressRange) : Option Bool :=
  let r := range.start % alignment
  if r = 0 then some ((checkedAdd range.start (size - 1)).any (· ≤ range.stop))
  else if size - 1 + alignment < u64Size then
    some ((checkedAdd range.start (size - 1 + alignment - r)).any (· ≤ range.stop))
  else none

/-- Whether an aligned range of `size` addresses ends high in `range`. -/
def fitsReverse (size alignment : Nat) (range : AddressRange) : Option Bool :=
  some ((checkedSub range.stop (size - 1)).any (fun start =>
    range.start ≤ start &&& alignMask alignment))

/-- The start of the range to take from `slot`; `none` is an overflow. -/
def slotStart (slot : AddressRange) (size alignment : Nat) (reverse : Bool) : Option Nat :=
  if reverse then some ((slot.stop - (size - 1)) &&& alignMask alignment)
  else
    let r := slot.start % alignment
    if r = 0 then some slot.start
    else if slot.start + alignment < u64Size then some (slot.start + alignment - r)
    else none

section
variable (a : AddressAllocator) (size : Nat) (alloc : Alloc) (tag : String) (alignment : Nat)

def internalAllocateWithAlign (reverse : Bool) : Outcome Error Nat × AddressAllocator :=
  let alignment := max a.minAlign alignment
  if alloc ∈ a.allocs then (.err (.existingAlloc alloc), a)
  else if size = 0 then (.err .allocSizeZero, a)
  else if !isPowerOfTwo alignment then (.err .badAlignment, a)
  else
    -- The first region in order that fits, or the last one.
    let region :=
      if reverse then a.regions.toList.reverse.findM? (fitsReverse size alignment)
      else a.regions.toList.findM? (fits size alignment)
    match region with
    | none => (.panic, a)
    | some none => (.err .outOfSpace, a)
    | some (some slot) =>
      match slotStart slot size alignment reverse with
      | none => (.panic, a)
      | some start =>
        if start + size < u64Size then
          a.internalAllocateFromSlot slot ⟨start, start + size - 1⟩ alloc tag
        else (.panic, a)

def reverseAllocateWithAlign : Outcome Error Nat × AddressAllocator :=
  a.internalAllocateWithAlign size alloc tag alignment true

def allocateWithAlign : Outcome Error Nat × AddressAllocator :=
  a.internalAllocateWithAlign size alloc tag alignment false

end

/-- Try the preferred alignment, and the minimal one when that returns an error. -/
def allocatePreferred (allocate : AddressAllocator → Nat → Outcome Error Nat × AddressAllocator)
    (a : AddressAllocator) : Outcome Error Nat × AddressAllocator :=
  match allocate a a.preferredAlign with
  | (.err _, a') => allocate a' a'.minAlign
  | res => res

section
variable (a : AddressAllocator)

def reverseAllocate (size : Nat) (alloc : Alloc) (tag : String) :
    Outcome Error Nat × AddressAllocator :=
  a.allocatePreferred fun a alignment => a.reverseAllocateWithAlign size alloc tag alignment

def allocate (size : Nat) (alloc : Alloc) (tag : String) : Outcome Error Nat × AddressAllocator :=
  a.allocatePreferred fun a alignment => a.allocateWithAlign size alloc tag alignment

/-- An allocation that overlaps `range`; with several, the first one iterated. -/
def findOverlapping (order : HashOrder) (range : AddressRange) : Option Alloc :=
  if range.isEmpty then none
  else ((order.iter a.allocs.entries).find? (fun e => e.2.1.overlaps range)).map Sigma.fst

def allocateAt (order : HashOrder) (range : AddressRange) (alloc : Alloc)
    (tag : String) : Outcome Error Unit × AddressAllocator :=
  if alloc ∈ a.allocs then (.err (.existingAlloc alloc), a)
  else if range.isEmpty then (.err .allocSizeZero, a)
  else
    match a.regions.toList.find? (fun avail => avail.containsRange range) with
    | some slot =>
      match a.internalAllocateFromSlot slot range alloc tag with
      | (.ok _, a') => (.ok (), a')
      | (.err e, a') => (.err e, a')
      | (.panic, a') => (.panic, a')
    | none =>
      match a.findOverlapping order range with
      | some existing => (.err (.existingAlloc existing), a)
      | none => (.err .outOfSpace, a)

end

section
variable (regions : BTreeSet AddressRange) (slot : AddressRange)

def smallerMerge : Outcome Error (Option AddressRange) :=
  match regions.maxLe slot with
  | none => .ok none
  | some smaller =>
    match checkedAdd smaller.stop 1 with
    | none => .err (.regionOverlap slot)
    | some nextAddr =>
      match compare nextAddr slot.start with
      | .lt => .ok none
      | .eq => .ok (some smaller)
      | .gt => .err (.regionOverlap slot)

def largerMerge : Outcome Error (Option AddressRange) :=
  match regions.minGt slot with
  | none => .ok none
  | some larger =>
    match checkedSub larger.start 1 with
    | none => .err (.regionOverlap slot)
    | some prevAddr =>
      match compare slot.stop prevAddr with
      | .lt => .ok none
      | .eq => .ok (some larger)
      | .gt => .err (.regionOverlap slot)

def coalesce (smaller larger : Option AddressRange) : BTreeSet AddressRange :=
  let (regions, slot) :=
    match smaller with
    | some smaller => (regions.remove smaller, { slot with start := smaller.start })
    | none => (regions, slot)
  let (regions, slot) :=
    match larger with
    | some larger => (regions.remove larger, { slot with stop := larger.stop })
    | none => (regions, slot)
  regions.insert slot

end

def insertAt (a : AddressAllocator) (slot : AddressRange) : Outcome Error Unit × AddressAllocator :=
  if slot.isEmpty then (.err .allocSizeZero, a)
  else
    match smallerMerge a.regions slot with
    | .err e => (.err e, a)
    | .panic => (.panic, a)
    | .ok smaller =>
      match largerMerge a.regions slot with
      | .err e => (.err e, a)
      | .panic => (.panic, a)
      | .ok larger => (.ok (), { a with regions := coalesce a.regions slot smaller larger })

/-- Release an allocation. The allocation is gone even when `insertAt` fails. -/
def release (a : AddressAllocator) (alloc : Alloc) :
    Outcome Error AddressRange × AddressAllocator :=
  match a.allocs.lookup alloc with
  | none => (.err (.badAlloc alloc), a)
  | some (range, _) =>
    match { a with allocs := a.allocs.erase alloc }.insertAt range with
    | (.ok _, a') => (.ok range, a')
    | (.err e, a') => (.err e, a')
    | (.panic, a') => (.panic, a')

def releaseContaining (a : AddressAllocator) (order : HashOrder) (value : Nat) :
    Outcome Error AddressRange × AddressAllocator :=
  match a.findOverlapping order ⟨value, value⟩ with
  | some alloc => a.release alloc
  | none => (.err .outOfSpace, a)

/-! ## Histories -/

inductive Op where
  | allocate (size : Nat) (alloc : Alloc) (tag : String)
  | allocateWithAlign (size : Nat) (alloc : Alloc) (tag : String) (alignment : Nat)
  | reverseAllocate (size : Nat) (alloc : Alloc) (tag : String)
  | reverseAllocateWithAlign (size : Nat) (alloc : Alloc) (tag : String) (alignment : Nat)
  | allocateAt (range : AddressRange) (alloc : Alloc) (tag : String)
  | release (alloc : Alloc)
  | releaseContaining (value : Nat)

def outcome {α : Type} (res : Outcome Error α × AddressAllocator) :
    Outcome Error Unit × AddressAllocator :=
  match res with
  | (.ok _, a) => (.ok (), a)
  | (.err e, a) => (.err e, a)
  | (.panic, a) => (.panic, a)

/-- One operation, with the order in which the hash map happens to be iterated. -/
def call (a : AddressAllocator) (order : HashOrder) : Op → Outcome Error Unit × AddressAllocator
  | .allocate size alloc tag => outcome (a.allocate size alloc tag)
  | .allocateWithAlign size alloc tag alignment =>
    outcome (a.allocateWithAlign size alloc tag alignment)
  | .reverseAllocate size alloc tag => outcome (a.reverseAllocate size alloc tag)
  | .reverseAllocateWithAlign size alloc tag alignment =>
    outcome (a.reverseAllocateWithAlign size alloc tag alignment)
  | .allocateAt range alloc tag => outcome (a.allocateAt order range alloc tag)
  | .release alloc => outcome (a.release alloc)
  | .releaseContaining value => outcome (a.releaseContaining order value)

/-- The state after an operation; `none` when the process was aborted. -/
def step (a : AddressAllocator) (op : HashOrder × Op) : Option AddressAllocator :=
  match a.call op.1 op.2 with
  | (.panic, _) => none
  | (_, a') => some a'

end AddressAllocator

end GunyahVmm.Resources
