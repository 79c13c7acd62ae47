import GunyahVmm.Lib.Bytes
import GunyahVmm.Lib.Memory
import GunyahVmm.Lib.Traced

/-! Guest memory as devices see it. One check compares an address with the regions. -/

namespace GunyahVmm.VmMemory
open Run Run.Traced List

inductive MemoryRegionPurpose where
  | bios
  | guestMemoryRegion
  | protectedFirmwareRegion
  | reservedMemory
  | sharedFramebuffer
  | staticSwiotlbRegion
  deriving DecidableEq

/-- The host keeps its access to these regions when the VM becomes a protected one. -/
def MemoryRegionPurpose.isShared : MemoryRegionPurpose → Bool
  | .sharedFramebuffer => true
  | .staticSwiotlbRegion => true
  | _ => false

structure MemoryRegion where
  guestBase : Nat
  size : Nat
  purpose : MemoryRegionPurpose
  guestBase_lt : guestBase < u64Size
  size_lt : size < u64Size

inductive Error where
  | invalidGuestAddress (addr : Nat)
  | invalidSize (size : Nat)
  | memoryAccess (addr : Nat)
  | memoryRegionOverlap
  | memoryRegionTooLarge (size : Nat)
  | protectedMemoryAccess (addr : Nat) (purpose : MemoryRegionPurpose)
  | shortRead (expected completed : Nat)
  | shortWrite (expected completed : Nat)
  | volatileMemoryAccess
  deriving DecidableEq

/-- The regions, whether the VM is a protected one, and the bytes at the guest addresses. -/
structure GuestMemory where
  regions : List MemoryRegion
  isProtected : Bool
  bytes : Memory

inductive Access where
  | read (addr len : Nat)
  | write (addr : Nat) (data : List (BitVec 8))

namespace Access

def addr : Access → Nat
  | read addr _ => addr
  | write addr _ => addr

def len : Access → Nat
  | read _ len => len
  | write _ data => data.length

def isWrite : Access → Bool
  | read _ _ => false
  | write _ _ => true

end Access

namespace MemoryRegion
section
variable (r : MemoryRegion)

/-- The address after the region, computed without an overflow check. -/
def regionEnd : Nat := wrappingAdd r.guestBase r.size

def contains (addr : Nat) : Bool := r.guestBase ≤ addr && addr < r.regionEnd

def rangeEnd (offset count : Nat) : Option Nat :=
  match checkedAdd offset count with
  | none => none
  | some memEnd => if memEnd > r.size then none else some memEnd

/-- The block lies in the region, and the region does not reach the end of the address
space. -/
def Holds (start length : Nat) : Prop :=
  r.guestBase ≤ start ∧ start + length ≤ r.guestBase + r.size ∧ r.guestBase + r.size < u64Size

end

instance (r : MemoryRegion) (start length : Nat) : Decidable (r.Holds start length) :=
  inferInstanceAs (Decidable (_ ∧ _ ∧ _))

lemma zero_lt : 0 < u64Size := by decide

lemma page_lt : 0x1000 < u64Size := by decide

def firstPage : MemoryRegion := ⟨0, 0x1000, .guestMemoryRegion, zero_lt, page_lt⟩

end MemoryRegion

namespace GuestMemory

/-- Of a protected VM the host may touch only the regions it shares. -/
def checkHostAccess (mem : GuestMemory) (addr : Nat) : Outcome Error Unit :=
  if mem.isProtected = false then .ok ()
  else
    match mem.regions.find? (·.contains addr) with
    | none => .err (.invalidGuestAddress addr)
    | some region =>
      match region.purpose with
      | .sharedFramebuffer => .ok ()
      | .staticSwiotlbRegion => .ok ()
      | other => .err (.protectedMemoryAccess addr other)

def findRegion (mem : GuestMemory) (addr : Nat) : Outcome Error (MemoryRegion × Nat) :=
  match mem.regions.find? (·.contains addr) with
  | none => .err (.invalidGuestAddress addr)
  | some region => .ok (region, addr - region.guestBase)

def checkObj (mem : GuestMemory) (addr size : Nat) : Outcome Error Unit := do
  mem.checkHostAccess addr
  let (region, offset) ← mem.findRegion addr
  match region.rangeEnd offset size with
  | none => .err (.memoryAccess addr)
  | some _ => .ok ()

def readObjFromAddr (α : Type) [FromBytes α] (mem : GuestMemory) (addr : Nat) :
    Traced Access Error α := do
  Traced.act (.read addr (FromBytes.size α))
  Traced.lift (mem.checkObj addr (FromBytes.size α))
  pure (FromBytes.fromBytes fun k => mem.bytes (addr + k))

def readObjFromAddrVolatile (α : Type) [FromBytes α] (mem : GuestMemory) (addr : Nat) :
    Traced Access Error α :=
  mem.readObjFromAddr α addr

def store (mem : GuestMemory) (addr : Nat) (data : List (BitVec 8)) : GuestMemory :=
  { mem with
    bytes := fun a => if addr ≤ a then (data[a - addr]?).getD (mem.bytes a) else mem.bytes a }

def writeObjAtAddrVolatile {α : Type} [IntoBytes α] (mem : GuestMemory) (val : α) (addr : Nat) :
    Traced Access Error GuestMemory := do
  let data := IntoBytes.asBytes val
  Traced.act (.write addr data)
  Traced.lift (mem.checkObj addr data.length)
  pure (mem.store addr data)

def writeObjAtAddr {α : Type} [IntoBytes α] (mem : GuestMemory) (val : α) (addr : Nat) :
    Traced Access Error GuestMemory :=
  mem.writeObjAtAddrVolatile val addr

def isValidRange (mem : GuestMemory) (start length : Nat) : Bool :=
  if length = 0 then false
  else
    match checkedAdd start (length - 1) with
    | none => false
    | some last => mem.regions.any fun region => region.guestBase ≤ start && last < region.regionEnd

/-! ## Checks -/

variable {mem : GuestMemory} {region : MemoryRegion}

/-- A region that reaches or wraps around the end of the address space holds no range. -/
lemma isValidRange_iff {start length : Nat} (hlen : 0 < length) :
    mem.isValidRange start length = true ↔ ∃ region ∈ mem.regions, region.Holds start length := by
  obtain ⟨n, rfl⟩ := Nat.exists_eq_succ_of_ne_zero (Nat.pos_iff_ne_zero.mp hlen)
  simp only [isValidRange, Nat.succ_ne_zero, ↓reduceIte, Nat.succ_sub_one]
  cases hl : checkedAdd start n with
  | none =>
    have hge := checkedAdd_eq_none.mp hl
    constructor
    · intro h
      cases h
    · rintro ⟨region, _, _, hend, hf⟩
      simp only [u64Size] at hge hf
      omega
  | some last =>
    obtain ⟨hlt, rfl⟩ := checkedAdd_eq_some.mp hl
    simp only [any_eq_true]
    refine exists_congr fun region => and_congr_right fun _ => ?_
    have hb := region.guestBase_lt
    have hs := region.size_lt
    rw [Bool.and_eq_true, decide_eq_true_eq, decide_eq_true_eq]
    simp only [MemoryRegion.Holds, MemoryRegion.regionEnd, wrappingAdd, u64Size] at hlt hb hs ⊢
    omega

lemma checkHostAccess_ne_panic (addr : Nat) : mem.checkHostAccess addr ≠ .panic := by
  unfold checkHostAccess
  split
  · simp
  split
  · simp
  · split <;> simp

lemma checked_ne_panic {β : Type} {f : MemoryRegion × Nat → Outcome Error β} (addr : Nat)
    (hf : ∀ p, f p ≠ .panic) :
    (mem.checkHostAccess addr >>= fun _ => mem.findRegion addr >>= f) ≠ .panic := by
  cases ha : mem.checkHostAccess addr with
  | panic => exact absurd ha (checkHostAccess_ne_panic addr)
  | err e => simp
  | ok _ =>
    rw [Outcome.ok_bind, findRegion]
    split
    · simp
    · exact hf _

lemma checkObj_ne_panic (addr size : Nat) : mem.checkObj addr size ≠ .panic := by
  refine checked_ne_panic addr fun p => ?_
  dsimp only
  split <;> simp

/-! ## Blocks the host gets at -/

/-- No address is in two regions, as the constructors of guest memory check. -/
def NoOverlap (mem : GuestMemory) : Prop :=
  mem.regions.Pairwise fun a b => ∀ addr, ¬ (a.contains addr = true ∧ b.contains addr = true)

lemma find_eq_some {addr : Nat} (hno : mem.NoOverlap) (hreg : region ∈ mem.regions)
    (ha : region.contains addr = true) : mem.regions.find? (·.contains addr) = some region := by
  unfold NoOverlap at hno
  generalize mem.regions = l at hno hreg
  induction hno with
  | nil => cases hreg
  | @cons r l hr _ ih =>
    rcases mem_cons.mp hreg with rfl | hm
    · exact find?_cons_of_pos ha
    have hn : r.contains addr = false := Bool.eq_false_iff.mpr fun h => hr region hm addr ⟨h, ha⟩
    rw [find?_cons, hn]
    exact ih hm

lemma checkHostAccess_eq_ok {addr : Nat}
    (hf : mem.regions.find? (·.contains addr) = some region) :
    mem.checkHostAccess addr = .ok () ↔
      (mem.isProtected = true → region.purpose.isShared = true) := by
  unfold checkHostAccess
  rw [hf]
  cases mem.isProtected with
  | false => simp
  | true => cases hp : region.purpose <;> simp [MemoryRegionPurpose.isShared, hp]

section Objects
variable {α : Type} {addr : Nat} {val : α} {P : Access → Prop}

lemma access_value_eq_ok {i : Access} {x : Outcome Error Unit} {a b : α} :
    (do Traced.act i; Traced.lift x; pure b : Traced Access Error α).value = .ok a ↔
      x = .ok () ∧ a = b := by
  simp only [bind_value_eq_ok, act_value, lift_value, pure_value, Outcome.ok.injEq]
  constructor
  · rintro ⟨_, _, _, hc, rfl⟩
    exact ⟨hc, rfl⟩
  · rintro ⟨hc, rfl⟩
    exact ⟨(), trivial, (), hc, rfl⟩

lemma access_trace {i : Access} {x : Outcome Error Unit} {b : α} :
    (do Traced.act i; Traced.lift x; pure b : Traced Access Error α).trace = [i] := by
  rw [trace_bind_of_ok (act_value _)]
  cases x <;> rfl

lemma readObjFromAddr_value_eq_ok [FromBytes α] {a : α} :
    (mem.readObjFromAddr α addr).value = .ok a ↔
      mem.checkObj addr (FromBytes.size α) = .ok () ∧
        a = FromBytes.fromBytes fun k => mem.bytes (addr + k) :=
  access_value_eq_ok

lemma readObjFromAddr_ne_panic [FromBytes α] : (mem.readObjFromAddr α addr).value ≠ .panic := by
  simp [readObjFromAddr, bind_value_eq_panic, checkObj_ne_panic]

lemma readObjFromAddr_trace [FromBytes α] :
    (mem.readObjFromAddr α addr).trace = [.read addr (FromBytes.size α)] :=
  access_trace

lemma readObjFromAddr_safe [FromBytes α] (h : P (.read addr (FromBytes.size α))) :
    (mem.readObjFromAddr α addr).Safe P := by
  refine ⟨?_, readObjFromAddr_ne_panic⟩
  intro i hi
  rw [readObjFromAddr_trace, mem_singleton] at hi
  exact hi ▸ h

lemma writeObjAtAddrVolatile_ne_panic [IntoBytes α] :
    (mem.writeObjAtAddrVolatile val addr).value ≠ .panic := by
  simp [writeObjAtAddrVolatile, bind_value_eq_panic, checkObj_ne_panic]

lemma writeObjAtAddrVolatile_trace [IntoBytes α] :
    (mem.writeObjAtAddrVolatile val addr).trace = [.write addr (IntoBytes.asBytes val)] :=
  access_trace

lemma writeObjAtAddrVolatile_value_eq_ok [IntoBytes α] {mem' : GuestMemory} :
    (mem.writeObjAtAddrVolatile val addr).value = .ok mem' ↔
      mem.checkObj addr (IntoBytes.asBytes val).length = .ok () ∧
        mem' = mem.store addr (IntoBytes.asBytes val) :=
  access_value_eq_ok

lemma writeObjAtAddrVolatile_safe [IntoBytes α] (h : P (.write addr (IntoBytes.asBytes val))) :
    (mem.writeObjAtAddrVolatile val addr).Safe P := by
  refine ⟨?_, writeObjAtAddrVolatile_ne_panic⟩
  intro i hi
  rw [writeObjAtAddrVolatile_trace, mem_singleton] at hi
  exact hi ▸ h

end Objects

end GuestMemory

end GunyahVmm.VmMemory
