import GunyahVmm.VmMemory.GuestMemory

/-! The ways of the host into guest memory. After `set_protected` only shared regions are open, but
two methods that give out a pointer do not check this. -/

namespace GunyahVmm.VmMemory
open Run Run.Outcome MemoryRegion List

/-- Bytes in the mapping of a region, from an offset on. -/
structure VolatileSlice where
  region : MemoryRegion
  offset : Nat
  len : Nat

/-- An address in the process of the VMM: an offset in the mapping of a region. -/
structure HostAddress where
  region : MemoryRegion
  offset : Nat

inductive MemError where
  | invalidOffset (offset len : Nat)

namespace MemoryRegion

def sliceCount (r : MemoryRegion) (offset len : Nat) : Option Nat :=
  (checkedSub r.size offset).map fun sizePastOffset => min sizePastOffset len

end MemoryRegion

namespace GuestMemory

/-! ## Construction -/

def setProtected (mem : GuestMemory) : GuestMemory := { mem with isProtected := true }

/-! ## Methods -/

def writeAtAddr (mem : GuestMemory) (buf : List (BitVec 8)) (addr : Nat) :
    Outcome Error (Nat × GuestMemory) := do
  mem.checkHostAccess addr
  let (region, offset) ← mem.findRegion addr
  match region.sliceCount offset buf.length with
  | none => .err (.memoryAccess addr)
  | some count => .ok (count, mem.store addr (buf.take count))

/-- Part of the data has been written when the region ends too soon. -/
def writeAllAtAddr (mem : GuestMemory) (buf : List (BitVec 8)) (addr : Nat) :
    Outcome Error GuestMemory := do
  let (completed, mem) ← mem.writeAtAddr buf addr
  if buf.length = completed then .ok mem else .err (.shortWrite buf.length completed)

def readAtAddr (mem : GuestMemory) (len addr : Nat) : Outcome Error (List (BitVec 8)) := do
  mem.checkHostAccess addr
  let (region, offset) ← mem.findRegion addr
  match region.sliceCount offset len with
  | none => .err (.memoryAccess addr)
  | some count => .ok ((List.range count).map fun k => mem.bytes (addr + k))

def readExactAtAddr (mem : GuestMemory) (len addr : Nat) : Outcome Error (List (BitVec 8)) := do
  let buf ← mem.readAtAddr len addr
  if len = buf.length then .ok buf else .err (.shortRead len buf.length)

def getSliceAtAddr (mem : GuestMemory) (addr len : Nat) : Outcome Error VolatileSlice := do
  mem.checkHostAccess addr
  let (region, offset) ← mem.findRegion addr
  match region.rangeEnd offset len with
  | none => .err .volatileMemoryAccess
  | some _ => .ok ⟨region, offset, len⟩

def getVolatileSlice (mem : GuestMemory) (offset len : Nat) : Outcome MemError VolatileSlice :=
  match mem.getSliceAtAddr offset len with
  | .ok slice => .ok slice
  | .err _ => .err (.invalidOffset offset len)
  | .panic => .panic

def getHostAddress (mem : GuestMemory) (addr : Nat) : Outcome Error HostAddress := do
  let (region, offset) ← mem.findRegion addr
  .ok ⟨region, offset⟩

def getHostAddressRange (mem : GuestMemory) (addr size : Nat) : Outcome Error HostAddress :=
  if size = 0 then .err (.invalidSize size)
  else do
    let (region, offset) ← mem.findRegion addr
    match checkedSub region.size offset with
    | none => .err (.invalidGuestAddress addr)
    | some rest =>
      if rest < size then .err (.invalidGuestAddress addr) else .ok ⟨region, offset⟩

end GuestMemory

/-! ## Calls of the host -/

/-- A method with its arguments other than the address. -/
inductive HostCall : Type 1 where
  | writeAtAddr (buf : List (BitVec 8))
  | writeAllAtAddr (buf : List (BitVec 8))
  | readAtAddr (len : Nat)
  | readExactAtAddr (len : Nat)
  | readObjFromAddr (α : Type) [FromBytes α]
  | readObjFromAddrVolatile (α : Type) [FromBytes α]
  | writeObjAtAddr (α : Type) [IntoBytes α] (val : α)
  | writeObjAtAddrVolatile (α : Type) [IntoBytes α] (val : α)
  | getSliceAtAddr (len : Nat)
  | getVolatileSlice (len : Nat)
  | getHostAddress
  | getHostAddressRange (size : Nat)

namespace HostCall

def success {ε α : Type} : Outcome ε α → Option α
  | .ok a => some a
  | _ => none

def reach (mem : GuestMemory) (addr : Nat) : HostCall → Option Nat
  | .writeAtAddr buf => (success (mem.writeAtAddr buf addr)).map Prod.fst
  | .writeAllAtAddr buf => (success (mem.writeAllAtAddr buf addr)).map fun _ => buf.length
  | .readAtAddr len => (success (mem.readAtAddr len addr)).map List.length
  | .readExactAtAddr len => (success (mem.readExactAtAddr len addr)).map List.length
  | @readObjFromAddr α _ =>
    (success (mem.readObjFromAddr α addr).value).map fun _ => FromBytes.size α
  | @readObjFromAddrVolatile α _ =>
    (success (mem.readObjFromAddrVolatile α addr).value).map fun _ => FromBytes.size α
  | @writeObjAtAddr _ _ val =>
    (success (mem.writeObjAtAddr val addr).value).map fun _ => (IntoBytes.asBytes val).length
  | @writeObjAtAddrVolatile _ _ val =>
    (success (mem.writeObjAtAddrVolatile val addr).value).map fun _ =>
      (IntoBytes.asBytes val).length
  | .getSliceAtAddr len => (success (mem.getSliceAtAddr addr len)).map (·.len)
  | .getVolatileSlice len => (success (mem.getVolatileSlice addr len)).map (·.len)
  | .getHostAddress => (success (mem.getHostAddress addr)).map fun _ => 1
  | .getHostAddressRange size => (success (mem.getHostAddressRange addr size)).map fun _ => size

def GivesPointer : HostCall → Prop
  | .getHostAddress | .getHostAddressRange _ => True
  | _ => False

end HostCall

/-- A region that contains an address does not reach the end of the address space. -/
lemma MemoryRegion.contains_iff {region : MemoryRegion} {addr : Nat} :
    region.contains addr = true ↔ region.guestBase ≤ addr ∧
      addr < region.guestBase + region.size ∧ region.guestBase + region.size < u64Size := by
  have hb := region.guestBase_lt
  have hs := region.size_lt
  rw [contains, Bool.and_eq_true, decide_eq_true_eq, decide_eq_true_eq]
  simp only [regionEnd, wrappingAdd, u64Size] at hb hs ⊢
  omega

namespace GuestMemory
variable {mem : GuestMemory} {addr n : Nat} {α : Type}

/-! ## Regions -/

def InOrder (regions : List MemoryRegion) : Prop :=
  regions.Pairwise fun a b => a.guestBase + a.size ≤ b.guestBase

variable {region : MemoryRegion} {len : Nat} {rs : List MemoryRegion} {buf : List (BitVec 8)}
  {ptr : HostAddress}

lemma findRegion_eq_ok {p : MemoryRegion × Nat} :
    mem.findRegion addr = .ok p ↔
      ∃ region, mem.regions.find? (·.contains addr) = some region ∧
        p = (region, addr - region.guestBase) := by
  unfold findRegion
  cases mem.regions.find? (·.contains addr) <;> simp [eq_comm]

lemma contains_of_find (h : mem.regions.find? (·.contains addr) = some region) :
    region.contains addr = true :=
  find?_some (p := fun region : MemoryRegion => region.contains addr) h

lemma checked_eq_ok {f : MemoryRegion × Nat → Outcome Error α} {a : α} :
    (do
      mem.checkHostAccess addr
      let p ← mem.findRegion addr
      f p) = .ok a ↔
      mem.checkHostAccess addr = .ok () ∧
        ∃ region, mem.regions.find? (·.contains addr) = some region ∧
          f (region, addr - region.guestBase) = .ok a := by
  rw [bind_eq_ok]
  constructor
  · rintro ⟨_, hc, hr⟩
    obtain ⟨p, hp, hf⟩ := bind_eq_ok.mp hr
    obtain ⟨region, hfn, rfl⟩ := findRegion_eq_ok.mp hp
    exact ⟨hc, region, hfn, hf⟩
  · rintro ⟨hc, region, hfn, hf⟩
    exact ⟨(), hc, bind_eq_ok.mpr ⟨_, findRegion_eq_ok.mpr ⟨region, hfn, rfl⟩, hf⟩⟩

def InRegion (mem : GuestMemory) (addr n : Nat) : Prop :=
  ∃ region, mem.regions.find? (·.contains addr) = some region ∧
    addr - region.guestBase + n ≤ region.size

lemma le_of_sliceCount {offset : Nat} (h : region.sliceCount offset len = some n) :
    offset + n ≤ region.size := by
  unfold sliceCount checkedSub at h
  split at h
  · simp only [Option.map_some, Option.some.injEq] at h
    omega
  · cases h

lemma le_of_rangeEnd {offset memEnd : Nat} (h : region.rangeEnd offset n = some memEnd) :
    offset + n ≤ region.size := by
  unfold rangeEnd at h
  split at h
  · cases h
  rename_i ha
  obtain ⟨_, rfl⟩ := checkedAdd_eq_some.mp ha
  split at h
  · cases h
  · omega

lemma writeAtAddr_eq_ok {p : Nat × GuestMemory} (h : mem.writeAtAddr buf addr = .ok p) :
    mem.checkHostAccess addr = .ok () ∧ mem.InRegion addr p.1 := by
  obtain ⟨hc, region, hfn, hf⟩ := checked_eq_ok.mp h
  dsimp only at hf
  split at hf
  · cases hf
  rename_i count hcnt
  cases hf
  exact ⟨hc, region, hfn, le_of_sliceCount hcnt⟩

lemma readAtAddr_eq_ok (h : mem.readAtAddr len addr = .ok buf) :
    mem.checkHostAccess addr = .ok () ∧ mem.InRegion addr buf.length := by
  obtain ⟨hc, region, hfn, hf⟩ := checked_eq_ok.mp h
  dsimp only at hf
  split at hf
  · cases hf
  rename_i count hcnt
  cases hf
  rw [length_map, length_range]
  exact ⟨hc, region, hfn, le_of_sliceCount hcnt⟩

lemma checkObj_eq_ok (h : mem.checkObj addr n = .ok ()) :
    mem.checkHostAccess addr = .ok () ∧ mem.InRegion addr n := by
  obtain ⟨hc, region, hfn, hf⟩ := checked_eq_ok.mp h
  dsimp only at hf
  split at hf
  · cases hf
  · rename_i memEnd hend
    exact ⟨hc, region, hfn, le_of_rangeEnd hend⟩

lemma getSliceAtAddr_eq_ok {slice : VolatileSlice} (h : mem.getSliceAtAddr addr len = .ok slice) :
    mem.checkHostAccess addr = .ok () ∧ mem.InRegion addr slice.len := by
  obtain ⟨hc, region, hfn, hf⟩ := checked_eq_ok.mp h
  dsimp only at hf
  split at hf
  · cases hf
  rename_i memEnd hend
  cases hf
  exact ⟨hc, region, hfn, le_of_rangeEnd hend⟩

lemma getHostAddress_eq_ok (h : mem.getHostAddress addr = .ok ptr) : mem.InRegion addr 1 := by
  obtain ⟨p, hp, _⟩ := bind_eq_ok.mp h
  obtain ⟨region, hf, _⟩ := findRegion_eq_ok.mp hp
  refine ⟨region, hf, ?_⟩
  obtain ⟨hlo, hhi, _⟩ := contains_iff.mp (contains_of_find hf)
  omega

lemma getHostAddressRange_eq_ok (h : mem.getHostAddressRange addr n = .ok ptr) :
    mem.InRegion addr n := by
  unfold getHostAddressRange at h
  split at h
  · cases h
  obtain ⟨p, hp, hf⟩ := bind_eq_ok.mp h
  obtain ⟨region, hfn, rfl⟩ := findRegion_eq_ok.mp hp
  dsimp only at hf
  split at hf
  · cases hf
  rename_i rest hr
  split at hf
  · cases hf
  refine ⟨region, hfn, ?_⟩
  unfold checkedSub at hr
  split at hr
  all_goals cases hr
  · omega

end GuestMemory

namespace HostCall
open GuestMemory
variable {mem : GuestMemory} {addr n : Nat}

lemma map_success {ε α : Type} {x : Outcome ε α} {f : α → Nat} {c : Prop}
    (h : (success x).map f = some n) (hx : ∀ a, x = .ok a → c ∧ mem.InRegion addr (f a)) :
    c ∧ mem.InRegion addr n := by
  obtain ⟨a, ha, rfl⟩ := Option.map_eq_some_iff.mp h
  cases x with
  | ok b =>
    cases ha
    exact hx a rfl
  | _ => cases ha

/-- **Every method** that succeeds stays in the region of its address, which those for a pointer do
not check. -/
lemma reach_eq_some {call : HostCall} (h : call.reach mem addr = some n) :
    (¬ call.GivesPointer → mem.checkHostAccess addr = .ok ()) ∧ mem.InRegion addr n := by
  have hb (hc : mem.checkHostAccess addr = .ok () ∧ mem.InRegion addr n) :
      (¬ call.GivesPointer → mem.checkHostAccess addr = .ok ()) ∧ mem.InRegion addr n :=
    ⟨fun _ => hc.1, hc.2⟩
  cases call with
  | writeAtAddr buf => exact hb (map_success h fun _ hp => writeAtAddr_eq_ok hp)
  | writeAllAtAddr buf =>
    refine hb (map_success h fun mem' hp => ?_)
    obtain ⟨⟨count, _⟩, hw, ha⟩ := bind_eq_ok.mp hp
    have hin := writeAtAddr_eq_ok hw
    dsimp only at ha hin
    split at ha
    · rename_i hcnt
      exact hcnt ▸ hin
    · cases ha
  | readAtAddr len => exact hb (map_success h fun _ hp => readAtAddr_eq_ok hp)
  | readExactAtAddr len =>
    refine hb (map_success h fun buf hp => ?_)
    obtain ⟨buf', hr, ha⟩ := bind_eq_ok.mp hp
    split at ha
    all_goals cases ha
    · exact readAtAddr_eq_ok hr
  | readObjFromAddr α | readObjFromAddrVolatile α =>
    refine hb (map_success h fun a hp => ?_)
    exact checkObj_eq_ok (readObjFromAddr_value_eq_ok.mp hp).1
  | writeObjAtAddr α val | writeObjAtAddrVolatile α val =>
    refine hb (map_success h fun mem' hp => ?_)
    exact checkObj_eq_ok (writeObjAtAddrVolatile_value_eq_ok.mp hp).1
  | getSliceAtAddr len => exact hb (map_success h fun _ hp => getSliceAtAddr_eq_ok hp)
  | getVolatileSlice len =>
    refine hb (map_success h fun slice hp => ?_)
    unfold GuestMemory.getVolatileSlice at hp
    split at hp
    all_goals cases hp
    · exact getSliceAtAddr_eq_ok ‹_›
  | getHostAddress =>
    exact map_success h fun _ hp => ⟨fun hn => absurd trivial hn, getHostAddress_eq_ok hp⟩
  | getHostAddressRange size =>
    exact map_success h fun _ hp => ⟨fun hn => absurd trivial hn, getHostAddressRange_eq_ok hp⟩

def SharedByte (mem : GuestMemory) (x : Nat) : Prop :=
  ∃ region ∈ mem.regions, region.contains x = true ∧ region.purpose.isShared = true

/-- **Protected memory.** A call that succeeds gets at shared bytes only, if those that give
out a pointer are made with an address that passes the check. In memory whose regions do not
overlap the condition is also necessary. -/
theorem protected_bytes_shared (mem : GuestMemory) (call : HostCall) (addr n : Nat)
    (h : call.reach mem.setProtected addr = some n) :
    ((call.GivesPointer → mem.setProtected.checkHostAccess addr = .ok ()) →
        ∀ k < n, SharedByte mem (addr + k)) ∧
      (mem.NoOverlap → 0 < n → (∀ k < n, SharedByte mem (addr + k)) →
        mem.setProtected.checkHostAccess addr = .ok ()) := by
  obtain ⟨hchk, region, hf, hs⟩ := reach_eq_some h
  have hi := checkHostAccess_eq_ok hf
  constructor
  · intro hp k hk
    have hc : mem.setProtected.checkHostAccess addr = .ok () := by
      by_cases hg : call.GivesPointer
      · exact hp hg
      · exact hchk hg
    refine ⟨region, mem_of_find?_eq_some hf, ?_, hi.mp hc rfl⟩
    obtain ⟨hlo, hhi, hend⟩ := contains_iff.mp (contains_of_find hf)
    exact contains_iff.mpr ⟨by omega, by omega, hend⟩
  · intro hno hn ha
    obtain ⟨region', hr', hc', hsh⟩ := ha 0 hn
    have hf' := find_eq_some hno hr' hc'
    cases hf.symm.trans hf'
    exact hi.mpr fun _ => hsh

lemma nextPage_lt : 0x2000 < u64Size := by decide

def lentPage : GuestMemory :=
  ⟨[⟨0x1000, 0x1000, .guestMemoryRegion, page_lt, page_lt⟩], false, fun _ => 0⟩

/-- Two pages, of which the host shares the second. -/
def sharedPage : GuestMemory :=
  ⟨[⟨0x1000, 0x1000, .guestMemoryRegion, page_lt, page_lt⟩,
    ⟨0x2000, 0x1000, .staticSwiotlbRegion, nextPage_lt, page_lt⟩], false, fun _ => 0⟩

theorem protected_bytes_shared_swiotlb :
    reach sharedPage.setProtected 0x2ff0 (.writeAtAddr (List.replicate 32 1)) = some 16 ∧
      ∀ k < 16, SharedByte sharedPage (0x2ff0 + k) := by
  have hr : reach sharedPage.setProtected 0x2ff0 (.writeAtAddr (replicate 32 1)) = some 16 := rfl
  exact ⟨hr, (protected_bytes_shared sharedPage _ 0x2ff0 16 hr).1 nofun⟩

/-- After `set_protected` the host still gets pointers to lent memory. -/
theorem lent_page_pointer :
    reach lentPage.setProtected 0x1800 .getHostAddress = some 1 ∧
      reach lentPage.setProtected 0x1800 (.getHostAddressRange 0x800) = some 0x800 ∧
      ∀ k < 0x800, ¬ SharedByte lentPage (0x1800 + k) := by
  refine ⟨rfl, rfl, ?_⟩
  rintro k _ ⟨region, hr, _, hsh⟩
  cases mem_singleton.mp hr
  cases hsh

end HostCall

end GunyahVmm.VmMemory
