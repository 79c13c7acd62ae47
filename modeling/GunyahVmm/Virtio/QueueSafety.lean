import GunyahVmm.Virtio.SplitQueue

/-! Safety of split queues: only the used ring is written, and only a missing vector aborts. -/

namespace GunyahVmm.Virtio
open Run VmMemory Run.Traced SplitQueue
namespace SplitQueue

/-! ## Addresses -/

/-- The access lies in one of the rings, which does not wrap; a write lies in the used
ring. -/
def InRings (rings : List Ring) (a : Access) : Prop :=
  ∃ r ∈ rings, r.start ≤ a.addr ∧ a.addr + a.len ≤ r.start + r.len ∧
    r.start + r.len < u64Size ∧ (a.isWrite = true → r.name = .usedRing)

variable {offset : Nat} {chain : DescriptorChain} {evtOk : Bool}

lemma size_pos (q : SplitQueue) : 0 < q.size.toNat := by
  have hp := q.size_pow
  simp only [isPowerOfTwo, decide_eq_true_eq] at hp
  obtain ⟨k, _, hk⟩ := hp
  rw [hk]
  exact Nat.two_pow_pos k

lemma wrapQueueIndex_lt (q : SplitQueue) (index : BitVec 16) :
    (q.wrapQueueIndex index).toNat < q.size.toNat := by
  have hp := q.size_pos
  have hs : (q.size - 1#16).toNat = q.size.toNat - 1 := by
    rw [BitVec.toNat_sub, BitVec.toNat_ofNat]
    omega
  have hle : (q.wrapQueueIndex index).toNat ≤ (q.size - 1#16).toNat := by
    rw [wrapQueueIndex, BitVec.toNat_and]
    exact Nat.and_le_right
  omega

variable {q : SplitQueue} {len : BitVec 32}

lemma descTable_mem : (⟨.descriptorTable, q.descTable, 16 * q.size.toNat⟩ : Ring) ∈ q.rings := by
  simp [rings, ringSizes]

lemma availRing_mem : (⟨.availableRing, q.availRing, 6 + 2 * q.size.toNat⟩ : Ring) ∈ q.rings := by
  simp [rings, ringSizes]

lemma usedRing_mem : (⟨.usedRing, q.usedRing, 6 + 8 * q.size.toNat⟩ : Ring) ∈ q.rings := by
  simp [rings, ringSizes]

lemma inRings_avail {len : Nat} (h : offset + len ≤ 6 + 2 * q.size.toNat) :
    InRings q.rings (.read (wrappingAdd q.availRing offset) len) := by
  have hf := q.rings_fit _ availRing_mem
  dsimp only at hf
  refine ⟨_, availRing_mem, ?_⟩
  simp only [Access.addr, Access.len]
  rw [wrappingAdd_of_lt (by omega)]
  exact ⟨by omega, by omega, hf, nofun⟩

lemma inRings_used {data : List (BitVec 8)} (h : offset + data.length ≤ 6 + 8 * q.size.toNat) :
    InRings q.rings (.write (wrappingAdd q.usedRing offset) data) := by
  have hf := q.rings_fit _ usedRing_mem
  dsimp only at hf
  refine ⟨_, usedRing_mem, ?_⟩
  simp only [Access.addr, Access.len]
  rw [wrappingAdd_of_lt (by omega)]
  exact ⟨by omega, by omega, hf, fun _ => trivial⟩

lemma inRings_desc {i : BitVec 16} {descAddr : Nat} (hi : i < q.size)
    (ha : checkedAdd q.descTable (i.toNat * 16) = some descAddr) :
    InRings q.rings (.read descAddr 16) := by
  have hf := q.rings_fit _ descTable_mem
  obtain ⟨_, rfl⟩ := checkedAdd_eq_some.mp ha
  rw [BitVec.lt_def] at hi
  refine ⟨_, descTable_mem, ?_⟩
  simp only [Access.addr, Access.len]
  exact ⟨by omega, by omega, hf, nofun⟩

/-! ## One operation -/

lemma readAvail_safe (h : offset + 2 ≤ 6 + 2 * q.size.toNat) :
    (q.mem.readObjFromAddrVolatile (BitVec 16) (wrappingAdd q.availRing offset)).Safe
      (InRings q.rings) :=
  GuestMemory.readObjFromAddr_safe (inRings_avail h)

lemma writeUsed_safe {α : Type} [IntoBytes α] {val : α}
    (h : offset + (IntoBytes.asBytes val).length ≤ 6 + 8 * q.size.toNat) :
    (q.mem.writeObjAtAddrVolatile val (wrappingAdd q.usedRing offset)).Safe (InRings q.rings) :=
  GuestMemory.writeObjAtAddrVolatile_safe (inRings_used h)

lemma getAvailIndex_safe : q.getAvailIndex.Safe (InRings q.rings) := by
  unfold getAvailIndex
  refine (readAvail_safe (by omega)).attempt.bind fun r _ => ?_
  cases r <;> exact safe_pure _

lemma getUsedEvent_safe : q.getUsedEvent.Safe (InRings q.rings) := by
  unfold getUsedEvent
  refine (readAvail_safe (by omega)).attempt.bind fun r _ => ?_
  cases r <;> exact safe_pure _

lemma getAvailFlag_safe {flag : BitVec 16} : (q.getAvailFlag flag).Safe (InRings q.rings) := by
  have hf := q.rings_fit _ availRing_mem
  dsimp only at hf
  have hz : wrappingAdd q.availRing 0 = q.availRing := wrappingAdd_of_lt (by omega)
  unfold getAvailFlag
  rw [← hz]
  refine (readAvail_safe (by omega)).attempt.bind fun r _ => ?_
  cases r <;> exact safe_pure _

lemma setAvailEvent_safe {availIndex : BitVec 16} :
    (q.setAvailEvent availIndex).Safe (InRings q.rings) := by
  have hd : (IntoBytes.asBytes availIndex).length = 2 := rfl
  unfold setAvailEvent
  refine (writeUsed_safe (by omega)).attempt.bind fun r _ => ?_
  cases r <;> exact safe_pure _

lemma setUsedIndex_safe {usedIndex : BitVec 16} :
    (q.setUsedIndex usedIndex).Safe (InRings q.rings) := by
  have hd : (IntoBytes.asBytes usedIndex).length = 2 := rfl
  unfold setUsedIndex
  refine (writeUsed_safe (by omega)).attempt.bind fun r _ => ?_
  cases r <;> exact safe_pure _

lemma queueWantsInterrupt_safe : q.queueWantsInterrupt.Safe (InRings q.rings) := by
  unfold queueWantsInterrupt
  split
  · exact getUsedEvent_safe.bind fun _ _ => safe_pure _
  · exact getAvailFlag_safe.bind fun _ _ => safe_pure _

lemma splitChain_safe {head : BitVec 16} :
    (DescriptorChain.new (SplitDescriptorChain.new q.mem q.descTable q.size head) q.mem head).Safe
      (InRings q.rings) := by
  refine DescriptorChain.new_safe (DescriptorChain.collectRegions_safe
    (fun c => c.descTable = q.descTable ∧ c.queueSize = q.size) ?_ ?_ _ _ ⟨rfl, rfl⟩)
  · rintro c ⟨htab, hs⟩
    refine ⟨?_, c.next_ne_panic⟩
    intro a ha
    rcases c.next_trace with ht | ⟨i, descAddr, hi, _, hadd, ht⟩
    · change a ∈ c.next.trace at ha
      rw [ht] at ha
      cases ha
    · change a ∈ c.next.trace at ha
      rw [ht, List.mem_singleton] at ha
      subst ha
      rw [hs] at hi
      rw [htab] at hadd
      exact inRings_desc hi hadd
  · rintro c d c' hc hn
    rcases SplitDescriptorChain.next_eq_ok.mp hn with ⟨_, h⟩ | ⟨_, _, _, _, _, _, _, h⟩
    · cases h
    · cases h
      exact hc

lemma peek_safe : q.peek.Safe (InRings q.rings) := by
  unfold peek
  refine getAvailIndex_safe.bind fun availIndex _ => ?_
  split
  · exact safe_pure _
  split
  · exact safe_pure _
  rename_i descIdxAddr ha
  have hi := q.wrapQueueIndex_lt q.nextAvail
  obtain ⟨hlt, rfl⟩ := checkedAdd_eq_some.mp ha
  rw [← wrappingAdd_of_lt hlt]
  refine (readAvail_safe (by omega)).attempt.bind fun r _ => ?_
  cases r with
  | error e => exact safe_pure _
  | ok head =>
    refine splitChain_safe.attempt.bind fun r _ => ?_
    cases r <;> exact safe_pure _

lemma popPeeked_safe : (q.popPeeked chain).Safe (InRings q.rings) := by
  unfold popPeeked
  dsimp only
  split
  · exact @setAvailEvent_safe { q with nextAvail := q.nextAvail + 1#16 } _
  · exact safe_pure _

lemma addUsed_safe (hc : chain.index < q.size) :
    (q.addUsed chain len).Safe (InRings q.rings) := by
  unfold addUsed
  rw [if_neg (BitVec.not_le.mpr hc)]
  have hi := q.wrapQueueIndex_lt q.nextUsed
  have hd : ∀ e : VirtqUsedElem, (IntoBytes.asBytes e).length = 8 := fun _ => rfl
  refine (writeUsed_safe (by rw [hd]; omega)).attempt.bind fun r _ => ?_
  cases r with
  | error e => exact safe_pure _
  | ok mem => exact @setUsedIndex_safe { q with mem, nextUsed := q.nextUsed + 1#16 } _

lemma triggerInterrupt_only : (q.triggerInterrupt evtOk).Only (InRings q.rings) := by
  unfold triggerInterrupt
  refine only_bind queueWantsInterrupt_safe.only fun wants _ => ?_
  cases wants with
  | false => exact only_pure _
  | true => exact only_bind (only_lift _) fun _ _ => only_pure _

/-- **Triggering** aborts exactly when the interrupt is wanted and cannot be delivered. -/
lemma triggerInterrupt_eq_panic_iff :
    (q.triggerInterrupt evtOk).value = .panic ↔
      q.queueWantsInterrupt.value = .ok true ∧ ¬ q.interrupt.Deliverable q.vector evtOk := by
  unfold triggerInterrupt
  rw [bind_value_eq_panic, or_iff_right queueWantsInterrupt_safe.returns,
    ← Interrupt.signalUsedQueue_eq_panic_iff]
  constructor
  · rintro ⟨wants, hw, h⟩
    cases wants with
    | false => cases h
    | true =>
      refine ⟨hw, ?_⟩
      rw [if_pos rfl] at h
      rcases bind_value_eq_panic.mp h with h | ⟨_, _, h⟩
      · exact h
      · cases h
  · rintro ⟨hw, hs⟩
    refine ⟨true, hw, ?_⟩
    rw [if_pos rfl]
    exact bind_value_eq_panic.mpr (.inl hs)

/-! ## What stays -/

def SameRings (q q' : SplitQueue) : Prop := q'.rings = q.rings ∧ q'.size = q.size

variable {q' : SplitQueue}

lemma popPeeked_same (h : (q.popPeeked chain).value = .ok q') : SameRings q q' := by
  obtain ⟨mem, rfl⟩ := popPeeked_eq_ok h
  exact ⟨rfl, rfl⟩

lemma addUsed_same (h : (q.addUsed chain len).value = .ok q') : SameRings q q' := by
  rcases addUsed_eq_ok h with rfl | ⟨mem, rfl⟩ <;> exact ⟨rfl, rfl⟩

lemma triggerInterrupt_same {sent : Bool}
    (h : (q.triggerInterrupt evtOk).value = .ok (q', sent)) : SameRings q q' := by
  rcases (triggerInterrupt_eq_ok h).2 with ⟨_, rfl⟩ | ⟨_, interrupt, rfl⟩ <;> exact ⟨rfl, rfl⟩

lemma peek_index_lt (h : q.peek.value = .ok (some chain)) : chain.index < q.size := by
  unfold peek at h
  obtain ⟨availIndex, _, h⟩ := bind_value_eq_ok.mp h
  split at h
  · cases h
  split at h
  · cases h
  obtain ⟨r, _, h⟩ := bind_value_eq_ok.mp h
  cases r with
  | error e => cases h
  | ok head =>
    obtain ⟨r, hr, h⟩ := bind_value_eq_ok.mp h
    cases r with
    | error e => cases h
    | ok chain' =>
      cases h
      obtain ⟨path, ha, rfl⟩ := SplitDescriptorChain.new_eq_ok_iff.mp (attempt_value_eq_ok.mp hr)
      obtain ⟨d, hd⟩ := ha.links.head_mem
      exact ha.below _ hd

end SplitQueue

/-! ## Runs of a device -/

/-- A device with its queue and the chains the queue has handed out to it. -/
structure Device where
  queue : SplitQueue
  chains : List DescriptorChain

/-- The calls of the device, and the rest of the world. A chain is named by its place. -/
inductive QueueOp where
  | guestWrites (bytes : Memory)
  | protectMemory
  | interruptChanges (interrupt : Interrupt)
  | peek
  | popPeeked (k : Nat)
  | addUsed (k : Nat) (len : BitVec 32)
  | triggerInterrupt (evtOk : Bool)

namespace Device

def step (s : Device) : QueueOp → Traced Access Empty Device
  | .guestWrites bytes =>
    pure { s with queue := { s.queue with mem := { s.queue.mem with bytes } } }
  | .protectMemory =>
    pure { s with queue := { s.queue with mem := { s.queue.mem with isProtected := true } } }
  | .interruptChanges interrupt => pure { s with queue := { s.queue with interrupt } }
  | .peek => do
    match ← s.queue.peek with
    | some chain => pure { s with chains := s.chains ++ [chain] }
    | none => pure s
  | .popPeeked k =>
    match s.chains[k]? with
    | some chain => do
      let queue ← s.queue.popPeeked chain
      pure { s with queue }
    | none => pure s
  | .addUsed k len =>
    match s.chains[k]? with
    | some chain => do
      let queue ← s.queue.addUsed chain len
      pure { s with queue }
    | none => pure s
  | .triggerInterrupt evtOk => do
    let (queue, _) ← s.queue.triggerInterrupt evtOk
    pure { s with queue }

def Deliverable (s : Device) : QueueOp → Prop
  | .triggerInterrupt evtOk => s.queue.queueWantsInterrupt.value = .ok true →
      s.queue.interrupt.Deliverable s.queue.vector evtOk
  | _ => True

/-- The rings are at their place, and the chains handed out start in the table. -/
structure Inv (rings : List Ring) (s : Device) : Prop where
  rings_eq : s.queue.rings = rings
  index_lt : ∀ chain ∈ s.chains, chain.index < s.queue.size

variable {rings : List Ring}
variable {s : Device} {deliverable : Prop}

lemma Inv.of_same (hs : Inv rings s) {q' : SplitQueue} (h : SplitQueue.SameRings s.queue q') :
    Inv rings { s with queue := q' } := by
  obtain ⟨hr, hsz⟩ := h
  refine ⟨hr.trans hs.rings_eq, ?_⟩
  intro chain hc
  rw [hsz]
  exact hs.index_lt chain hc

lemma safe_keeps {x : Traced Access Empty Device} (hx : x.Safe (SplitQueue.InRings rings))
    (hd : deliverable) (hk : ∀ s', x.value = .ok s' → Inv rings s') :
    x.Only (SplitQueue.InRings rings) ∧ (x.value = .panic ↔ ¬ deliverable) ∧
      ∀ s', x.value = .ok s' → Inv rings s' :=
  ⟨hx.only, iff_of_false hx.returns (not_not.mpr hd), hk⟩

lemma pure_keeps (hs : Inv rings s) (hd : deliverable) :
    (pure s : Traced Access Empty Device).Only (SplitQueue.InRings rings) ∧
      ((pure s : Traced Access Empty Device).value = .panic ↔ ¬ deliverable) ∧
      ∀ s', (pure s : Traced Access Empty Device).value = .ok s' → Inv rings s' := by
  refine safe_keeps (safe_pure s) hd fun s' h => ?_
  cases h
  exact hs

/-- **One step** keeps to the rings and the invariant, and aborts exactly at an interrupt that
cannot be delivered. -/
lemma step_spec (hs : Inv rings s) (op : QueueOp) :
    (s.step op).Only (SplitQueue.InRings rings) ∧
      ((s.step op).value = .panic ↔ ¬ s.Deliverable op) ∧
      ∀ s', (s.step op).value = .ok s' → Inv rings s' := by
  have hrn := hs.rings_eq
  subst hrn
  cases op with
  | guestWrites | protectMemory | interruptChanges =>
    exact pure_keeps (hs.of_same ⟨rfl, rfl⟩) trivial
  | peek =>
    refine safe_keeps (peek_safe.bind fun r _ => ?_) trivial fun s' h => ?_
    · cases r <;> exact safe_pure _
    · obtain ⟨r, hr, h⟩ := bind_value_eq_ok.mp h
      cases r with
      | none =>
        cases h
        exact hs
      | some chain =>
        cases h
        refine ⟨rfl, fun c hc => ?_⟩
        rcases List.mem_append.mp hc with hc | hc
        · exact hs.index_lt c hc
        · cases List.mem_singleton.mp hc
          exact peek_index_lt hr
  | popPeeked k =>
    simp only [step]
    cases s.chains[k]? with
    | none => exact pure_keeps hs trivial
    | some chain =>
      refine safe_keeps (popPeeked_safe.bind fun _ _ => safe_pure _) trivial fun s' h => ?_
      obtain ⟨q', hq', h⟩ := bind_value_eq_ok.mp h
      cases h
      exact hs.of_same (popPeeked_same hq')
  | addUsed k len =>
    simp only [step]
    cases hch : s.chains[k]? with
    | none => exact pure_keeps hs trivial
    | some chain =>
      have hi := hs.index_lt chain (List.mem_of_getElem? hch)
      refine safe_keeps ((addUsed_safe hi).bind fun _ _ => safe_pure _) trivial fun s' h => ?_
      obtain ⟨q', hq', h⟩ := bind_value_eq_ok.mp h
      cases h
      exact hs.of_same (addUsed_same hq')
  | triggerInterrupt evtOk =>
    refine ⟨only_bind triggerInterrupt_only fun _ _ => only_pure _, ?_, fun s' h => ?_⟩
    · simp only [step, Deliverable, bind_value_eq_panic, triggerInterrupt_eq_panic_iff, pure_value,
        reduceCtorEq, and_false, exists_false, or_false, Classical.not_imp]
    · obtain ⟨⟨q', sent⟩, hq', h⟩ := bind_value_eq_ok.mp h
      cases h
      exact hs.of_same (triggerInterrupt_same hq')

/-- **Split queues.** In every run of a queue that was accepted, whatever the guest does to its
memory, every access lies in the descriptor table, the available ring or the used ring, and
every write in the used ring. The run goes through exactly if each interrupt the queue wants
to send has a vector of the MSI-X table and an event that takes the write. -/
theorem accesses_in_rings_iff (config : QueueConfig) (mem : GuestMemory) (interrupt : Interrupt)
    (q : SplitQueue) (hq : SplitQueue.new config mem interrupt = .ok q) (ops : List QueueOp) :
    (∀ a ∈ (Traced.runAll step ops ⟨q, []⟩).trace, SplitQueue.InRings
      (ringSizes config.size config.descTable config.availRing config.usedRing) a) ∧
    ((Traced.runAll step ops ⟨q, []⟩).value ≠ .panic ↔ ∀ pre op post s,
      ops = pre ++ op :: post → (Traced.runAll step pre ⟨q, []⟩).value = .ok s →
        s.Deliverable op) := by
  have hi : Inv q.rings ⟨q, []⟩ := ⟨rfl, nofun⟩
  rw [← new_eq_ok hq]
  refine ⟨(runAll_only (Inv q.rings) (fun _ op hs => ?_) ops _ hi).1,
    runAll_returns_iff (Inv q.rings) (fun _ op hs => (step_spec hs op).2) hi ops⟩
  exact ⟨(step_spec hs op).1, (step_spec hs op).2.2⟩

/-- A queue of two entries in one page of memory, with a vector that the guest chose. -/
def pageConfig (vector : BitVec 16) : QueueConfig where
  size := 2
  vector := vector
  ackedFeatures := 0
  descTable := 0
  availRing := 0x100
  usedRing := 0x200
  nextAvail := 0
  nextUsed := 0

def pageMemory : GuestMemory where
  regions := [.firstPage]
  isProtected := false
  bytes := fun _ => 0#8

def twoVectors : Interrupt where
  interruptStatus := 0
  transport := .pci (some
    { tableEntries := [⟨0⟩, ⟨0⟩]
      pbaEntries := [0]
      irqVec := [none, none]
      masked := false
      enabled := true
      table_le := by decide
      pba_length := by decide })
  asyncIntrStatus := false
  pmState := ⟨false, []⟩

theorem accesses_in_rings_page : ∃ q, SplitQueue.new (pageConfig 1) pageMemory twoVectors = .ok q ∧
    ∀ a ∈ (Traced.runAll step [.peek, .triggerInterrupt true] ⟨q, []⟩).trace,
      SplitQueue.InRings (ringSizes 2 0 0x100 0x200) a :=
  ⟨_, rfl, (accesses_in_rings_iff (pageConfig 1) pageMemory twoVectors _ rfl _).1⟩

/-- The guest may give a queue any vector, and the first interrupt for one that is not in the
table ends the process. -/
theorem vector_out_of_table : ∃ q, SplitQueue.new (pageConfig 2) pageMemory twoVectors = .ok q ∧
    (Traced.runAll step [.triggerInterrupt true] ⟨q, []⟩).value = .panic :=
  ⟨_, rfl, rfl⟩

end Device

end GunyahVmm.Virtio
