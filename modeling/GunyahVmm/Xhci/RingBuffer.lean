import GunyahVmm.Lib.Iterate
import GunyahVmm.VmMemory.GuestMemory
import GunyahVmm.Xhci.Trb
import Mathlib.Data.Finite.Prod

/-! Dequeuing a transfer descriptor from a ring in guest memory. The loop ends exactly if it never
comes back to a dequeue pointer with the same cycle state. -/

namespace GunyahVmm.Xhci
open Run VmMemory Iterate
namespace RingBuffer

inductive Error where
  | badDequeuePointer (addr : BitVec 64)
  | readGuestMemory (e : VmMemory.Error)

end RingBuffer

structure AddressedTrb where
  trb : Trb
  gpa : BitVec 64

abbrev TransferDescriptor := List AddressedTrb

structure RingBuffer where
  mem : GuestMemory
  dequeuePointer : BitVec 64
  consumerCycleState : Bool

/-- How a round of the loop ends: with another round, or with the loop and what the call
returns. -/
inductive Round where
  | next (ring : RingBuffer) (td : TransferDescriptor)
  | done (ring : RingBuffer) (result : Outcome RingBuffer.Error (Option TransferDescriptor))

namespace RingBuffer

/-- The TRB at the dequeue pointer; none if its cycle bit says that the ring is empty. -/
def getCurrentTrb (ring : RingBuffer) : Outcome Error (Option AddressedTrb) :=
  match (ring.mem.readObjFromAddr Trb ring.dequeuePointer.toNat).value with
  | .err e => .err (.readGuestMemory e)
  | .panic => .panic
  | .ok trb =>
    if trb.getCycle ≠ ring.consumerCycleState then .ok none
    else .ok (some ⟨trb, ring.dequeuePointer⟩)

/-- What the call returns after the loop: a descriptor whose last TRB is not chained. -/
def checkDescriptor (td : TransferDescriptor) : Option TransferDescriptor :=
  match td.getLast? with
  | some t => if t.trb.getChainBit then none else some td
  | none => none

def dequeueRound (ring : RingBuffer) (td : TransferDescriptor) : Round :=
  match ring.getCurrentTrb with
  | .err e => .done ring (.err e)
  | .panic => .done ring .panic
  | .ok none => .done ring (.ok (checkDescriptor td))
  | .ok (some addressed) =>
    if addressed.trb.getTrbType = some .link then
      .next { ring with
        dequeuePointer := addressed.trb.getRingSegmentPointer
        consumerCycleState := ring.consumerCycleState != addressed.trb.getToggleCycle } td
    else
      match checkedAdd ring.dequeuePointer.toNat sizeOfTrb with
      | none => .done ring (.err (.badDequeuePointer ring.dequeuePointer))
      | some addr =>
        let ring := { ring with dequeuePointer := BitVec.ofNat 64 addr }
        let td := td ++ [addressed]
        if addressed.trb.getChainBit then .next ring td
        else .done ring (.ok (checkDescriptor td))

/-- The loop, for a number of rounds; `none` if it has not ended by then. -/
def dequeueLoop : Nat → RingBuffer → TransferDescriptor →
    Option (RingBuffer × Outcome Error (Option TransferDescriptor))
  | 0, _, _ => none
  | fuel + 1, ring, td =>
    match ring.dequeueRound td with
    | .next ring td => dequeueLoop fuel ring td
    | .done ring result => some (ring, result)

def dequeueTransferDescriptor (ring : RingBuffer) (fuel : Nat) :
    Option (RingBuffer × Outcome Error (Option TransferDescriptor)) :=
  dequeueLoop fuel ring []

/-! ## Positions -/

abbrev Position := BitVec 64 × Bool

def position (ring : RingBuffer) : Position := (ring.dequeuePointer, ring.consumerCycleState)

def ofPosition (mem : GuestMemory) (pos : Position) : RingBuffer := ⟨mem, pos.1, pos.2⟩

instance : Finite Position :=
  Finite.of_injective (fun pos => (pos.1.toFin, pos.2)) fun pos pos' h => by
    rw [Prod.mk.injEq, BitVec.toFin_inj] at h
    exact Prod.ext h.1 h.2

/-- Where a round that does not end the loop leaves the ring. -/
def advance (mem : GuestMemory) (pos : Position) : Option Position :=
  match (ofPosition mem pos).dequeueRound [] with
  | .next ring _ => some ring.position
  | .done _ _ => none

/-- The descriptor collected so far has no say in where the loop goes. -/
lemma advance_eq (ring : RingBuffer) (td : TransferDescriptor) :
    advance ring.mem ring.position =
      match ring.dequeueRound td with
      | .next ring _ => some ring.position
      | .done _ _ => none := by
  have hs : ofPosition ring.mem ring.position = ring := rfl
  unfold advance
  rw [hs]
  unfold dequeueRound
  cases hcur : ring.getCurrentTrb with
  | err e => rfl
  | panic => rfl
  | ok found =>
    cases found with
    | none => rfl
    | some addressed =>
      dsimp only
      by_cases hl : addressed.trb.getTrbType = some .link
      · rw [if_pos hl, if_pos hl]
      rw [if_neg hl, if_neg hl]
      cases ha : checkedAdd ring.dequeuePointer.toNat sizeOfTrb with
      | none => rfl
      | some addr => cases hc : addressed.trb.getChainBit <;> rfl

lemma dequeueRound_mem {ring ring' : RingBuffer} {td td' : TransferDescriptor}
    (h : ring.dequeueRound td = .next ring' td') : ring'.mem = ring.mem := by
  unfold dequeueRound at h
  split at h
  · cases h
  · cases h
  · cases h
  · split at h
    · cases h
      rfl
    · split at h
      · cases h
      split at h
      · cases h
        rfl
      · cases h

/-- The loop is still going after `fuel` rounds exactly if the positions are. -/
lemma dequeueLoop_eq_none (fuel : Nat) (ring : RingBuffer) (td : TransferDescriptor) :
    dequeueLoop fuel ring td = none ↔ (after (advance ring.mem) fuel ring.position).isSome := by
  induction fuel generalizing ring td with
  | zero => simp [dequeueLoop, after]
  | succ fuel ih =>
    rw [dequeueLoop, after, advance_eq ring td]
    cases hr : ring.dequeueRound td with
    | next ring' td' =>
      rw [ih, dequeueRound_mem hr, Option.bind_some]
    | done ring' result => simp

/-- **Termination.** Whatever the guest has placed in memory, the call returns after finitely
many rounds exactly if following its links and chains never leads back to a dequeue pointer with
the cycle state it was passed with. -/
theorem dequeue_returns_iff (ring : RingBuffer) :
    (∃ fuel result, ring.dequeueTransferDescriptor fuel = some result) ↔
      ¬ Recurs (advance ring.mem) ring.position := by
  rw [← stops_iff]
  refine exists_congr fun fuel => ?_
  have hl := dequeueLoop_eq_none fuel ring []
  rw [← Option.isSome_iff_exists, dequeueTransferDescriptor]
  cases hr : dequeueLoop fuel ring [] <;>
    cases hp : after (advance ring.mem) fuel ring.position <;>
      simp_all

/-- Guest memory whose one page is empty but for a link TRB at `0x100` that points to itself. -/
def selfLink : GuestMemory where
  regions := [MemoryRegion.firstPage]
  isProtected := false
  bytes a := if a = 0x101 then 0x01 else if a = 0x10D then 0x18 else 0

/-- The loop stays at the link for ever. -/
theorem selfLink_never_returns :
    ¬ ∃ fuel result,
      (RingBuffer.mk selfLink 0x100 false).dequeueTransferDescriptor fuel = some result := by
  have hr : ∀ td, (RingBuffer.mk selfLink 0x100 false).dequeueRound td =
      .next (RingBuffer.mk selfLink 0x100 false) td := fun _ => rfl
  have hl : ∀ fuel td, dequeueLoop fuel (RingBuffer.mk selfLink 0x100 false) td = none := by
    intro fuel
    induction fuel with
    | zero => exact fun _ => rfl
    | succ fuel ih =>
      intro td
      rw [dequeueLoop, hr]
      exact ih td
  rintro ⟨fuel, result, h⟩
  rw [dequeueTransferDescriptor, hl] at h
  cases h

/-! ## What is dequeued -/

/-- What the loop adds to a descriptor: a TRB of guest memory, under its address, that is no
link. -/
def Collected (mem : GuestMemory) (t : AddressedTrb) : Prop :=
  (mem.readObjFromAddr Trb t.gpa.toNat).value = .ok t.trb ∧ t.trb.getTrbType ≠ some .link

/-- A chain of collected TRBs up to the first without the chain bit, and a ring that goes on right
behind it. -/
def Whole (mem : GuestMemory) (td : TransferDescriptor) (ring : RingBuffer) : Prop :=
  ring.mem = mem ∧ (∀ t ∈ td, Collected mem t) ∧ ∃ front last, td = front ++ [last] ∧
    (∀ t ∈ front, t.trb.getChainBit = true) ∧ last.trb.getChainBit = false ∧
    ring.dequeuePointer.toNat = last.gpa.toNat + sizeOfTrb

variable {ring ring' : RingBuffer} {td td' : TransferDescriptor} {t : AddressedTrb}

lemma getCurrentTrb_eq_some (h : ring.getCurrentTrb = .ok (some t)) :
    (ring.mem.readObjFromAddr Trb t.gpa.toNat).value = .ok t.trb ∧ t.gpa = ring.dequeuePointer := by
  unfold getCurrentTrb at h
  split at h
  · cases h
  · cases h
  · rename_i trb hv
    split at h
    · cases h
    · cases h
      exact ⟨hv, rfl⟩

/-- A round that goes on has passed a link or collected a chained TRB. -/
lemma dequeueRound_next (h : ring.dequeueRound td = .next ring' td') :
    td' = td ∨ ∃ t, td' = td ++ [t] ∧ Collected ring.mem t ∧ t.trb.getChainBit = true := by
  unfold dequeueRound at h
  split at h
  · cases h
  · cases h
  · cases h
  · rename_i t hcur
    split at h
    · cases h
      exact .inl rfl
    rename_i hl
    split at h
    · cases h
    split_ifs at h with hc
    cases h
    exact .inr ⟨t, rfl, ⟨(getCurrentTrb_eq_some hcur).1, hl⟩, hc⟩

/-- A round that ends with a descriptor has collected its last TRB, unless there was one before. -/
lemma dequeueRound_done (h : ring.dequeueRound td = .done ring' (.ok (some td'))) :
    checkDescriptor td = some td' ∨
      ring'.mem = ring.mem ∧ ∃ t, td' = td ++ [t] ∧ Collected ring.mem t ∧
        t.trb.getChainBit = false ∧ ring'.dequeuePointer.toNat = t.gpa.toNat + sizeOfTrb := by
  unfold dequeueRound at h
  split at h
  · cases h
  · cases h
  · simp only [Round.done.injEq, Outcome.ok.injEq] at h
    exact .inl h.2
  · rename_i t hcur
    split at h
    · cases h
    rename_i hl
    split at h
    · cases h
    rename_i addr ha
    split_ifs at h with hc
    simp only [checkDescriptor, List.getLast?_concat, hc, Bool.false_eq_true, if_false,
      Round.done.injEq, Outcome.ok.injEq, Option.some.injEq] at h
    obtain ⟨rfl, rfl⟩ := h
    obtain ⟨hlt, rfl⟩ := checkedAdd_eq_some.mp ha
    obtain ⟨hv, hgpa⟩ := getCurrentTrb_eq_some hcur
    refine .inr ⟨rfl, t, rfl, ⟨hv, hl⟩, Bool.eq_false_iff.mpr hc, ?_⟩
    rw [hgpa]
    exact Nat.mod_eq_of_lt hlt

lemma checkDescriptor_eq_none (h : ∀ t ∈ td, t.trb.getChainBit = true) :
    checkDescriptor td = none := by
  unfold checkDescriptor
  split
  · rename_i t ht
    rw [if_pos (h t (List.mem_of_getLast? ht))]
  · rfl

/-- What has been collected before a round is chained, so only the TRB that ends the loop can be
without the bit. -/
lemma dequeueLoop_spec {fuel : Nat} (hc : ∀ t ∈ td, Collected ring.mem t)
    (hch : ∀ t ∈ td, t.trb.getChainBit = true)
    (h : dequeueLoop fuel ring td = some (ring', .ok (some td'))) : Whole ring.mem td' ring' := by
  induction fuel generalizing ring td with
  | zero => cases h
  | succ fuel ih =>
    rw [dequeueLoop] at h
    split at h
    · rename_i ring₁ td₁ hr
      rw [← dequeueRound_mem hr] at hc ⊢
      obtain rfl | ⟨t, rfl, ht, hb⟩ := dequeueRound_next hr
      · exact ih hc hch h
      rw [← dequeueRound_mem hr] at ht
      exact ih (List.forall_mem_append.mpr ⟨hc, by simpa using ht⟩)
        (List.forall_mem_append.mpr ⟨hch, by simpa using hb⟩) h
    · rename_i ring₁ result hr
      cases h
      obtain hn | ⟨hm, t, rfl, ht, hb, hp⟩ := dequeueRound_done hr
      · rw [checkDescriptor_eq_none hch] at hn
        cases hn
      · exact ⟨hm, List.forall_mem_append.mpr ⟨hc, by simpa using ht⟩, td, t, rfl, hch, hb, hp⟩

/-- **Whole descriptors.** Whatever the guest has placed in memory, a call hands out a whole chain
of its TRBs without the links, and the next call starts right behind it. -/
theorem dequeued_descriptor_whole {fuel : Nat}
    (h : ring.dequeueTransferDescriptor fuel = some (ring', .ok (some td))) :
    Whole ring.mem td ring' :=
  dequeueLoop_spec (by simp) (by simp) h

/-- A chained normal TRB at `0x100`, a link at `0x110` to `0x200`, and an empty page besides. -/
def chainOverLink : GuestMemory where
  regions := [MemoryRegion.firstPage]
  isProtected := false
  bytes a := if a = 0x10C then 0x10 else if a = 0x10D then 0x04 else if a = 0x111 then 0x02
    else if a = 0x11D then 0x18 else 0

theorem dequeued_descriptor_whole_over_link : ∃ ring' first second,
    (RingBuffer.mk chainOverLink 0x100 false).dequeueTransferDescriptor 3 =
      some (ring', .ok (some [⟨first, 0x100⟩, ⟨second, 0x200⟩])) ∧
    Whole chainOverLink [⟨first, 0x100⟩, ⟨second, 0x200⟩] ring' := by
  have h : (RingBuffer.mk chainOverLink 0x100 false).dequeueTransferDescriptor 3 =
      some (⟨chainOverLink, 0x210, false⟩,
        .ok (some [⟨⟨0, 0, 0x410⟩, 0x100⟩, ⟨⟨0, 0, 0⟩, 0x200⟩])) := rfl
  exact ⟨_, _, _, h, dequeued_descriptor_whole h⟩

end RingBuffer

end GunyahVmm.Xhci
