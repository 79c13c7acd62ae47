import GunyahVmm.VmMemory.HostAccess
import Mathlib.Data.List.Pairwise

/-! The questions about addresses that guest memory answers. No constructor looks at the end of the
last region. -/

namespace GunyahVmm.VmMemory.GuestMemory
open Run.Outcome List

def rangeOverlap (mem : GuestMemory) (start stop : Nat) : Bool :=
  mem.regions.any fun region => region.guestBase < stop && start < region.regionEnd

variable {mem : GuestMemory} {start length : Nat} {regions : List MemoryRegion}

/-- One of two regions ends before the other begins. -/
def Apart (a b : MemoryRegion) : Prop :=
  a.guestBase + a.size ≤ b.guestBase ∨ b.guestBase + b.size ≤ a.guestBase

instance : Std.Symm Apart := ⟨fun _ _ => Or.symm⟩

lemma InOrder.apart (h : InOrder regions) {a b : MemoryRegion} (ha : a ∈ regions)
    (hb : b ∈ regions) (hne : a ≠ b) : Apart a b :=
  (h.imp (S := Apart) .inl).forall ha hb hne

section
variable (mem : GuestMemory)

end

section
variable (hend : ∀ r ∈ mem.regions, r.guestBase + r.size < u64Size)
include hend

end

end GunyahVmm.VmMemory.GuestMemory
