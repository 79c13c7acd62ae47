import GunyahVmm.Virtio.PackedQueue
import GunyahVmm.Virtio.QueueSafety

/-! Runs of packed queues. The guest can abort the process with a chain that breaks off, or an
interrupt vector that the device does not have. -/

namespace GunyahVmm.Virtio
open Run VmMemory Run.Traced Run.Outcome GuestMemory Device PackedQueue PackedQueueIndex List

/-! ## Positions -/

namespace PackedQueueIndex

def next (size : BitVec 16) (p : PackedQueueIndex) : PackedQueueIndex :=
  if p.index + 1#16 < size then { p with index := p.index + 1#16 } else ⟨!p.wrapCounter, 0#16⟩

def positions (size : BitVec 16) : PackedQueueIndex → Nat → List PackedQueueIndex
  | _, 0 => []
  | p, n + 1 => p :: positions size (p.next size) n

/-- The position lies in the ring; a ring without positions has only its start. -/
def Inside (size : BitVec 16) (p : PackedQueueIndex) : Prop := p.index < size ∨ p.index = 0#16

variable {size : BitVec 16} {p : PackedQueueIndex}

lemma Inside.lt (h : p.Inside size) (hsize : 0 < size.toNat) : p.index.toNat < size.toNat := by
  rcases h with h | h
  · exact h
  · rw [h]
    exact hsize

/-- `n` positions further on, at most once around the ring. -/
lemma iterate_next (hp : p.index.toNat < size.toNat) :
    ∀ n ≤ size.toNat, (next size)^[n] p =
      if p.index.toNat + n < size.toNat then ⟨p.wrapCounter, BitVec.ofNat 16 (p.index.toNat + n)⟩
      else ⟨!p.wrapCounter, BitVec.ofNat 16 (p.index.toNat + n - size.toNat)⟩ := by
  intro n
  induction n with
  | zero =>
    intro _
    simp [hp]
  | succ n ih =>
    intro hn
    rw [Function.iterate_succ_apply', ih (by omega)]
    by_cases hlt : p.index.toNat + n < size.toNat
    · rw [if_pos hlt]
      have ho : (BitVec.ofNat 16 (p.index.toNat + n) + 1#16).toNat = p.index.toNat + n + 1 ∨
          p.index.toNat + n + 1 = size.toNat := by
        rw [BitVec.toNat_add, BitVec.toNat_ofNat, BitVec.toNat_ofNat]
        omega
      unfold next
      simp only [BitVec.lt_def]
      by_cases hl : p.index.toNat + n + 1 = size.toNat
      · rw [if_neg, if_neg (by omega), show p.index.toNat + (n + 1) - size.toNat = 0 by omega]
        rw [BitVec.toNat_add, BitVec.toNat_ofNat, BitVec.toNat_ofNat]
        omega
      · have hs := ho.resolve_right hl
        rw [if_pos (by omega), if_pos (by omega)]
        rw [← Nat.add_assoc, BitVec.ofNat_add (p.index.toNat + n) 1]
    · rw [if_neg hlt, if_neg (by omega)]
      unfold next
      have hs : (BitVec.ofNat 16 (p.index.toNat + n - size.toNat) + 1#16).toNat =
          p.index.toNat + n - size.toNat + 1 := by
        rw [BitVec.toNat_add, BitVec.toNat_ofNat, BitVec.toNat_ofNat]
        omega
      rw [if_pos (by rw [BitVec.lt_def, hs]; omega)]
      rw [show p.index.toNat + (n + 1) - size.toNat = p.index.toNat + n - size.toNat + 1 by omega,
        BitVec.ofNat_add]

/-- **Moving on** by a chain of at most the size of the ring goes through its positions. -/
lemma addIndex_eq_ok {count : BitVec 16} (hsize : size.toNat ≤ queueMaxSize)
    (hp : p.index.toNat < size.toNat) (hc : count.toNat ≤ size.toNat) :
    p.addIndex count size = .ok ((next size)^[count.toNat] p) := by
  unfold queueMaxSize at hsize
  have hs : (p.index + count).toNat = p.index.toNat + count.toNat := by
    rw [BitVec.toNat_add]
    omega
  rw [iterate_next hp _ hc, addIndex, if_neg (by omega)]
  simp only [BitVec.lt_def, hs]
  split
  · congr 2
  congr 2
  apply BitVec.eq_of_toNat_eq
  rw [BitVec.toNat_sub, hs, BitVec.toNat_ofNat]
  omega

lemma inside_iterate_next (hp : p.Inside size) (n : Nat) : ((next size)^[n] p).Inside size := by
  induction n with
  | zero => exact hp
  | succ n ih =>
    rw [Function.iterate_succ_apply']
    unfold next
    split
    · exact .inl (by assumption)
    · exact .inr rfl

end PackedQueueIndex

namespace PackedQueue
open PackedQueueIndex

/-! ## A queue in its ring -/

structure Ready (q : PackedQueue) : Prop where
  size_le : q.size.toNat ≤ queueMaxSize
  avail : q.availIndex.Inside q.size
  use : q.useIndex.Inside q.size

structure ChainOf (size : BitVec 16) (chain : DescriptorChain) : Prop where
  index_lt : chain.index < size
  count_le : chain.count.toNat ≤ size.toNat

/-- The parts of the queue that no operation changes. -/
structure SameConfig (q q' : PackedQueue) : Prop where
  size : q'.size = q.size
  vector : q'.vector = q.vector
  interrupt : q'.interrupt = q.interrupt

/-- The fields of the next descriptor to use that are written lie in memory that the host can
access. -/
def DescWritable (q : PackedQueue) : Prop :=
  let desc := q.descTable + q.useIndex.index.toNat * 16
  q.mem.checkObj (desc + 8) 4 = .ok () ∧ q.mem.checkObj (desc + 12) 2 = .ok () ∧
    q.mem.checkObj (desc + 14) 2 = .ok ()

variable {q q' : PackedQueue}
variable {chain : DescriptorChain} {i : BitVec 16}

lemma Ready.of_same (hq : q.Ready) (h : SameConfig q q') (hav : q'.availIndex.Inside q.size)
    (hu : q'.useIndex.Inside q.size) : q'.Ready :=
  ⟨h.size ▸ hq.size_le, h.size ▸ hav, h.size ▸ hu⟩

lemma descTable_mem :
    (⟨.descriptorTable, q.descTable, 16 * q.size.toNat⟩ : PackedArea) ∈ q.areas := by
  simp [areas, areaSizes]

lemma checkedAdd_desc (h : i < q.size ∨ i = 0#16) :
    checkedAdd q.descTable (i.toNat * 16) = some (q.descTable + i.toNat * 16) := by
  have hf := q.areas_fit _ descTable_mem
  dsimp only at hf
  refine checkedAdd_eq_some.mpr ⟨?_, rfl⟩
  rcases h with h | rfl
  · rw [BitVec.lt_def] at h
    omega
  · rw [BitVec.toNat_ofNat]
    omega

/-- A write whose error is unwrapped. -/
lemma unwrap_write_value {α : Type} [IntoBytes α] (mem : GuestMemory) (val : α) (addr : Nat) :
    (mem.checkObj addr (IntoBytes.asBytes val).length = .ok () →
      ((mem.writeObjAtAddrVolatile val addr).unwrap : Traced Access Empty GuestMemory).value =
        .ok (mem.store addr (IntoBytes.asBytes val))) ∧
    (mem.checkObj addr (IntoBytes.asBytes val).length ≠ .ok () →
      ((mem.writeObjAtAddrVolatile val addr).unwrap : Traced Access Empty GuestMemory).value =
        .panic) := by
  refine ⟨fun h => unwrap_value_of_ok (writeObjAtAddrVolatile_value_eq_ok.mpr ⟨h, rfl⟩),
    fun h => ?_⟩
  unfold Traced.unwrap
  cases hv : (mem.writeObjAtAddrVolatile val addr).value with
  | ok mem' => exact absurd (writeObjAtAddrVolatile_value_eq_ok.mp hv).1 h
  | err e => rfl
  | panic => rfl

/-! ## One operation -/

lemma peek_ne_panic (hq : q.Ready) (view : Nat → Memory) : (q.peek view).value ≠ .panic := by
  unfold peek
  rw [value_bind, lift_value, checkedAdd_desc hq.avail]
  intro h
  rcases bind_value_eq_panic.mp h with h | ⟨r, _, h⟩
  · exact readObjFromAddr_ne_panic (attempt_value_eq_panic.mp h)
  cases r with
  | error e => cases h
  | ok desc =>
    dsimp only at h
    split at h
    · cases h
    rcases bind_value_eq_panic.mp h with h | ⟨r, _, h⟩
    · exact PackedDescriptorChain.new_ne_panic (attempt_value_eq_panic.mp h)
    · cases r <;> cases h

lemma chain_of_peek {view : Nat → Memory} (h : (q.peek view).value = .ok (some chain)) :
    ChainOf q.size chain := by
  obtain ⟨descAddr, _, h⟩ := bind_value_eq_ok.mp h
  obtain ⟨r, _, h⟩ := bind_value_eq_ok.mp h
  cases r with
  | error e => cases h
  | ok desc =>
    dsimp only at h
    split at h
    · cases h
    obtain ⟨r, hr, h⟩ := bind_value_eq_ok.mp h
    cases r with
    | error e => cases h
    | ok chain' =>
      cases h
      obtain ⟨hi, hlt, _, hc⟩ := PackedDescriptorChain.new_eq_ok (attempt_value_eq_ok.mp hr)
      exact ⟨hi ▸ hlt, hc⟩

lemma ChainOf.size_pos {size : BitVec 16} (h : ChainOf size chain) : 0 < size.toNat := by
  have hlt := h.index_lt
  rw [BitVec.lt_def] at hlt
  omega

lemma setAvailEvent_value (q : PackedQueue) (event : PackedDescEvent) :
    (q.mem.checkObj q.deviceEventSuppression 4 = .ok () → (q.setAvailEvent event).value =
      .ok { q with mem := q.mem.store q.deviceEventSuppression (IntoBytes.asBytes event) }) ∧
    (q.mem.checkObj q.deviceEventSuppression 4 ≠ .ok () →
      (q.setAvailEvent event).value = .panic) := by
  have hl : (IntoBytes.asBytes event).length = 4 := rfl
  obtain ⟨hok, hpn⟩ := unwrap_write_value q.mem event q.deviceEventSuppression
  rw [hl] at hok hpn
  refine ⟨fun h => bind_value_eq_ok.mpr ⟨_, hok h, rfl⟩, fun h => ?_⟩
  exact bind_value_eq_panic.mpr (.inl (hpn h))

lemma popPeeked_value (hq : q.Ready) (hc : ChainOf q.size chain) :
    ((q.popPeeked chain).value = .panic ↔
      q.usesEventIdx = true ∧ q.mem.checkObj q.deviceEventSuppression 4 ≠ .ok ()) ∧
    ∀ q', (q.popPeeked chain).value = .ok q' → q'.Ready ∧ SameConfig q q' := by
  unfold popPeeked
  have hm := addIndex_eq_ok hq.size_le (hq.avail.lt hc.size_pos) hc.count_le
  have hi := inside_iterate_next hq.avail chain.count.toNat
  have hidx : ∀ a, usesEventIdx { q with availIndex := a } = q.usesEventIdx := fun _ => rfl
  rw [value_bind, lift_value, hm, ok_bind]
  dsimp only
  rw [hidx]
  by_cases he : q.usesEventIdx = true
  · rw [if_pos he]
    obtain ⟨hok, hpn⟩ := setAvailEvent_value
      { q with availIndex := (next q.size)^[chain.count.toNat] q.availIndex }
      ((next q.size)^[chain.count.toNat] q.availIndex).toDesc
    by_cases hch : q.mem.checkObj q.deviceEventSuppression 4 = .ok ()
    · rw [hok hch]
      refine ⟨iff_of_false nofun fun h => h.2 hch, fun q' h => ?_⟩
      cases h
      exact ⟨hq.of_same ⟨rfl, rfl, rfl⟩ hi hq.use, ⟨rfl, rfl, rfl⟩⟩
    · rw [hpn hch]
      refine ⟨iff_of_true rfl ⟨he, hch⟩, fun q' h => ?_⟩
      cases h
  · rw [if_neg he]
    refine ⟨iff_of_false nofun fun h => he h.1, fun q' h => ?_⟩
    cases h
    exact ⟨hq.of_same ⟨rfl, rfl, rfl⟩ hi hq.use, ⟨rfl, rfl, rfl⟩⟩

def markUsed (q : PackedQueue) (len : BitVec 32) (id : BitVec 16) : GuestMemory :=
  let descAddr := q.descTable + q.useIndex.index.toNat * 16
  ((q.mem.store (descAddr + 8) (IntoBytes.asBytes len)).store (descAddr + 12)
    (IntoBytes.asBytes id)).store (descAddr + 14)
      (IntoBytes.asBytes (usedFlags q.useIndex.wrapCounter len))

/-- **Returning** a chain with an id writes one descriptor and moves on by the chain. -/
lemma addUsed_value (hq : q.Ready) (hc : ChainOf q.size chain) (len : BitVec 32)
    {id : BitVec 16} (hid : chain.id = some id) :
    (q.DescWritable → (q.addUsed chain len).value = .ok
      { q with
        mem := q.markUsed len id
        useIndex := (next q.size)^[chain.count.toNat] q.useIndex }) ∧
    (¬ q.DescWritable → (q.addUsed chain len).value = .panic) := by
  have hu : q.useIndex.index < q.size := hq.use.lt hc.size_pos
  have hf := q.areas_fit _ descTable_mem
  have hlt := hu
  rw [BitVec.lt_def] at hlt
  dsimp only at hf
  have ha : ∀ k < 16, checkedAdd (q.descTable + q.useIndex.index.toNat * 16) k =
      some (q.descTable + q.useIndex.index.toNat * 16 + k) := fun k hk =>
    checkedAdd_eq_some.mpr ⟨by omega, rfl⟩
  have hw : wrappingAdd (q.descTable + q.useIndex.index.toNat * 16) 14 =
      q.descTable + q.useIndex.index.toNat * 16 + 14 := wrappingAdd_of_lt (by omega)
  unfold addUsed
  rw [if_neg (BitVec.not_le.mpr hc.index_lt)]
  simp only [value_bind, lift_value, pure_value, hid, expect,
    checkedAdd_desc (.inl hu), ha 8 (by omega), ha 12 (by omega), hw, ok_bind,
    addIndex_eq_ok hq.size_le hlt hc.count_le, GuestMemory.writeObjAtAddr]
  -- the stores change no region, so each field is looked at in the memory as it was
  simp only [DescWritable, not_and]
  constructor
  · rintro ⟨hlen, hident, hflags⟩
    rw [(unwrap_write_value q.mem len _).1 hlen, ok_bind,
      (unwrap_write_value (q.mem.store _ _) id _).1 hident, ok_bind,
      (unwrap_write_value ((q.mem.store _ _).store _ _) (usedFlags _ _) _).1 hflags, ok_bind]
    rfl
  · intro hn
    by_cases hlen : q.mem.checkObj (q.descTable + q.useIndex.index.toNat * 16 + 8) 4 = .ok ()
    · rw [(unwrap_write_value q.mem len _).1 hlen, ok_bind]
      by_cases hident : q.mem.checkObj (q.descTable + q.useIndex.index.toNat * 16 + 12) 2 = .ok ()
      · rw [(unwrap_write_value (q.mem.store _ _) id _).1 hident, ok_bind,
          (unwrap_write_value ((q.mem.store _ _).store _ _) (usedFlags _ _) _).2 (hn hlen hident),
          panic_bind]
      · rw [(unwrap_write_value (q.mem.store _ _) id _).2 hident, panic_bind]
    · rw [(unwrap_write_value q.mem len _).2 hlen, panic_bind]

lemma addUsed_of_no_id (hc : ChainOf q.size chain) (len : BitVec 32) (hid : chain.id = none) :
    (q.addUsed chain len).value = .panic := by
  unfold addUsed
  rw [if_neg (BitVec.not_le.mpr hc.index_lt), value_bind, lift_value, hid]
  rfl

lemma getDriverEvent_value :
    (q.mem.checkObj q.driverEventSuppression 4 = .ok () → ∃ e, q.getDriverEvent.value = .ok e) ∧
    (q.mem.checkObj q.driverEventSuppression 4 ≠ .ok () → q.getDriverEvent.value = .panic) := by
  refine ⟨fun h => ⟨_, unwrap_value_of_ok (readObjFromAddr_value_eq_ok.mpr ⟨h, rfl⟩)⟩, fun h => ?_⟩
  · unfold getDriverEvent Traced.unwrap GuestMemory.readObjFromAddrVolatile
    cases hv : (q.mem.readObjFromAddr PackedDescEvent q.driverEventSuppression).value with
    | ok e => exact absurd (readObjFromAddr_value_eq_ok.mp hv).1 h
    | err e => rfl
    | panic => rfl

lemma notificationDecision_same (e : PackedDescEvent) :
    SameConfig q (q.notificationDecision e).1 ∧
      (q.notificationDecision e).1.availIndex = q.availIndex ∧
      (q.notificationDecision e).1.useIndex = q.useIndex := by
  unfold notificationDecision
  split
  · exact ⟨⟨rfl, rfl, rfl⟩, rfl, rfl⟩
  · exact ⟨⟨rfl, rfl, rfl⟩, rfl, rfl⟩
  · split <;> exact ⟨⟨rfl, rfl, rfl⟩, rfl, rfl⟩

/-- **Triggering** sends the interrupt, whatever the driver asked for. -/
lemma triggerInterrupt_value (hq : q.Ready) (evtOk : Bool) {e : PackedDescEvent}
    (he : q.getDriverEvent.value = .ok e) :
    ∃ q₁, q₁.Ready ∧ SameConfig q q₁ ∧ (q.triggerInterrupt evtOk).value =
      q.interrupt.signalUsedQueue q.vector evtOk >>= fun interrupt =>
        .ok ({ q₁ with interrupt }, true) := by
  obtain ⟨hs, ha, hu⟩ := @notificationDecision_same q e
  refine ⟨(q.notificationDecision e).1, ?_, hs, ?_⟩
  · exact hq.of_same hs (ha ▸ hq.avail) (hu ▸ hq.use)
  · unfold triggerInterrupt queueWantsInterrupt
    simp [value_bind, he, pure_value, lift_value, hs.vector, hs.interrupt]

end PackedQueue

/-! ## Runs of a device -/

/-- A device with its queue, the peeked chain, the popped ones, and the positions used since it was
last asked for an interrupt. -/
structure PackedDevice where
  queue : PackedQueue
  peeked : Option DescriptorChain
  popped : List DescriptorChain
  used : List PackedQueueIndex

/-- The calls of the device, and what the rest of the world does in between, also during one peek.
-/
inductive PackedOp where
  | guestWrites (bytes : Memory)
  | interruptChanges (interrupt : Interrupt)
  | peek (view : Nat → Memory)
  | popPeeked
  | addUsed (k : Nat) (len : BitVec 32)
  | triggerInterrupt (evtOk : Bool)

namespace PackedDevice

def start (q : PackedQueue) : PackedDevice := ⟨q, none, [], []⟩

def step (s : PackedDevice) : PackedOp → Traced Access Empty PackedDevice
  | .guestWrites bytes =>
    pure { s with queue := { s.queue with mem := { s.queue.mem with bytes } } }
  | .interruptChanges interrupt => pure { s with queue := { s.queue with interrupt } }
  | .peek view => do
    let peeked ← s.queue.peek view
    pure { s with peeked }
  | .popPeeked =>
    match s.peeked with
    | some chain => do
      let queue ← s.queue.popPeeked chain
      pure { s with queue, peeked := none, popped := s.popped ++ [chain] }
    | none => pure s
  | .addUsed k len =>
    match s.popped[k]? with
    | some chain => do
      let queue ← s.queue.addUsed chain len
      let used := positions s.queue.size s.queue.useIndex chain.count.toNat
      pure { queue, peeked := none, popped := s.popped.eraseIdx k, used := s.used ++ used }
    | none => pure s
  | .triggerInterrupt evtOk => do
    let (queue, _) ← s.queue.triggerInterrupt evtOk
    pure { s with queue, peeked := none, used := [] }

/-- The structure that an operation accesses lies in memory that the host can access, a chain that
is returned has an id, and an interrupt can be delivered. -/
def Acceptable (s : PackedDevice) : PackedOp → Prop
  | .popPeeked => s.peeked ≠ none → s.queue.usesEventIdx = true →
    s.queue.mem.checkObj s.queue.deviceEventSuppression 4 = .ok ()
  | .addUsed k _ => ∀ chain, s.popped[k]? = some chain → chain.id ≠ none ∧ s.queue.DescWritable
  | .triggerInterrupt evtOk => s.queue.mem.checkObj s.queue.driverEventSuppression 4 = .ok () ∧
    s.queue.interrupt.Deliverable s.queue.vector evtOk
  | _ => True

structure Inv (s : PackedDevice) : Prop where
  ready : s.queue.Ready
  peeked : ∀ chain, s.peeked = some chain → PackedQueue.ChainOf s.queue.size chain
  popped : ∀ chain ∈ s.popped, PackedQueue.ChainOf s.queue.size chain

variable {s : PackedDevice}

lemma Inv.of_same (hs : Inv s) {queue : PackedQueue} {peeked : Option DescriptorChain}
    {popped : List DescriptorChain} {used : List PackedQueueIndex} (hr : queue.Ready)
    (hsize : queue.size = s.queue.size) (hp : peeked = none ∨ peeked = s.peeked)
    (hpp : ∀ chain ∈ popped, chain ∈ s.popped ∨ s.peeked = some chain) :
    Inv ⟨queue, peeked, popped, used⟩ := by
  refine ⟨hr, ?_, ?_⟩
  all_goals intro chain hc
  all_goals rw [hsize]
  · rcases hp with rfl | rfl
    · cases hc
    · exact hs.peeked chain hc
  · rcases hpp chain hc with h | h
    · exact hs.popped chain h
    · exact hs.peeked chain h

/-- A step whose call to the queue aborts has no state after it. -/
lemma spec_of_panic {α : Type} {x : Traced Access Empty α}
    {f : α → Traced Access Empty PackedDevice} (h : x.value = .panic)
    {acceptable : Prop} (ha : ¬ acceptable) :
    ((x >>= f).value = .panic ↔ ¬ acceptable) ∧ ∀ s', (x >>= f).value = .ok s' → Inv s' := by
  have hv : (x >>= f).value = .panic := bind_value_eq_panic.mpr (.inl h)
  refine ⟨iff_of_true hv ha, fun s' hs => ?_⟩
  rw [hv] at hs
  cases hs

/-- **One step** goes through exactly when it is acceptable, and keeps the invariant. -/
lemma step_spec (hs : Inv s) (op : PackedOp) :
    ((s.step op).value = .panic ↔ ¬ s.Acceptable op) ∧
      ∀ s', (s.step op).value = .ok s' → Inv s' := by
  cases op with
  | guestWrites bytes =>
    refine ⟨by simp [step, Acceptable], fun s' h => ?_⟩
    cases h
    exact hs.of_same (hs.ready.of_same ⟨rfl, rfl, rfl⟩ hs.ready.avail hs.ready.use)
      rfl (.inr rfl) fun _ hc => .inl hc
  | interruptChanges interrupt =>
    refine ⟨by simp [step, Acceptable], fun s' h => ?_⟩
    cases h
    obtain ⟨hsize, ha, hu⟩ := hs.ready
    exact hs.of_same ⟨hsize, ha, hu⟩ rfl (.inr rfl) fun _ hc => .inl hc
  | peek view =>
    have hp := peek_ne_panic hs.ready view
    refine ⟨by simp [step, Acceptable, bind_value_eq_panic, hp], fun s' h => ?_⟩
    obtain ⟨peeked, hpk, h⟩ := bind_value_eq_ok.mp h
    cases h
    refine ⟨hs.ready, fun chain hch => ?_, hs.popped⟩
    subst hch
    exact chain_of_peek hpk
  | popPeeked =>
    simp only [step, Acceptable]
    cases hpk : s.peeked with
    | none =>
      refine ⟨by simp, fun s' h => ?_⟩
      cases h
      exact hs
    | some chain =>
      obtain ⟨hpn, hok⟩ := popPeeked_value hs.ready (hs.peeked chain hpk)
      refine ⟨by simp [bind_value_eq_panic, hpn], fun s' h => ?_⟩
      obtain ⟨q₁, hq₁, h⟩ := bind_value_eq_ok.mp h
      obtain ⟨hrd, hsm⟩ := hok q₁ hq₁
      cases h
      refine hs.of_same hrd hsm.size (.inl rfl) fun c hc => ?_
      rcases mem_append.mp hc with hc | hc
      · exact .inl hc
      · cases mem_singleton.mp hc
        exact .inr hpk
  | addUsed k len =>
    simp only [step, Acceptable]
    cases hpp : s.popped[k]? with
    | none =>
      refine ⟨by simp, fun s' h => ?_⟩
      cases h
      exact hs
    | some chain =>
      have hc := hs.popped chain (mem_of_getElem? hpp)
      cases hid : chain.id with
      | none =>
        exact spec_of_panic (addUsed_of_no_id hc len hid) (by simp [hid])
      | some id =>
        obtain ⟨hv, hpn⟩ := addUsed_value hs.ready hc len hid
        by_cases hwr : s.queue.DescWritable
        · have hv := hv hwr
          refine ⟨by simp [bind_value_eq_panic, hv, hid, hwr], fun s' h => ?_⟩
          obtain ⟨q', hq', h⟩ := bind_value_eq_ok.mp h
          rw [hv] at hq'
          cases hq'
          cases h
          refine hs.of_same (hs.ready.of_same ⟨rfl, rfl, rfl⟩ hs.ready.avail
            (inside_iterate_next hs.ready.use _)) rfl (.inl rfl) fun c hc => ?_
          exact .inl (mem_of_mem_eraseIdx hc)
        · exact spec_of_panic (hpn hwr) (by simp [hwr])
  | triggerInterrupt evtOk =>
    simp only [step, Acceptable]
    by_cases hch : s.queue.mem.checkObj s.queue.driverEventSuppression 4 = .ok ()
    · obtain ⟨e, he⟩ := getDriverEvent_value.1 hch
      obtain ⟨q₁, hrd, hsm, hv⟩ := triggerInterrupt_value hs.ready evtOk he
      refine ⟨?_, fun s' h => ?_⟩
      · simp only [bind_value_eq_panic, hv, pure_value, reduceCtorEq, and_false, exists_false,
          or_false, hch, true_and]
        rw [← Interrupt.signalUsedQueue_eq_panic_iff]
        cases s.queue.interrupt.signalUsedQueue s.queue.vector evtOk <;> simp
      · obtain ⟨⟨q', sent⟩, hq', h⟩ := bind_value_eq_ok.mp h
        rw [hv] at hq'
        obtain ⟨interrupt, _, hq'⟩ := bind_eq_ok.mp hq'
        cases hq'
        cases h
        obtain ⟨hsize, ha, hu⟩ := hrd
        exact hs.of_same ⟨hsize, ha, hu⟩ hsm.size (.inl rfl) fun _ hc => .inl hc
    · have hpn : (s.queue.triggerInterrupt evtOk).value = .panic := by
        unfold triggerInterrupt queueWantsInterrupt
        rw [value_bind, value_bind, getDriverEvent_value.2 hch]
        rfl
      exact spec_of_panic hpn (by simp [hch])

section
variable (config : QueueConfig) (mem : GuestMemory) (interrupt : Interrupt) (q : PackedQueue)
  (hq : new config mem interrupt = .ok q) (hsize : config.size.toNat ≤ queueMaxSize)

include hq hsize

lemma start_inv : Inv (start q) := by
  obtain ⟨rfl, hqs, ha, hu, -⟩ := new_eq_ok hq
  refine ⟨⟨hqs ▸ hsize, ?_, ?_⟩, nofun, nofun⟩
  · exact .inr (by simp [start, ha, PackedQueueIndex.default])
  · exact .inr (by simp [start, hu, PackedQueueIndex.default])

/-- **Packed queues.** Whatever the guest puts into memory, and whenever, a run of a queue with an
accepted configuration goes through exactly if every chain that is returned has an id, every
interrupt can be delivered, and the structures that are accessed lie in memory that the host can
access. -/
theorem packed_runs_through_iff (ops : List PackedOp) :
    (Traced.runAll step ops (start q)).value ≠ .panic ↔ ∀ pre op post s,
      ops = pre ++ op :: post → (Traced.runAll step pre (start q)).value = .ok s →
        s.Acceptable op :=
  runAll_returns_iff Inv (fun _ op hs => step_spec hs op)
    (start_inv config mem interrupt q hq hsize) ops

end

/-- A packed queue of two descriptors in one page. -/
def ringMemory (bytes : Memory) : GuestMemory := { pageMemory with bytes }

/-- A descriptor that announces another one, and one that was never made available. -/
def brokenRing : Memory := fun a => if a = 8 then 1#8 else if a = 14 then 0x81#8 else 0#8

def brokenChain : DescriptorChain := ⟨0#16, [⟨0#64, 1⟩], [], none, 1#16⟩

lemma brokenRing_accepted : (DescriptorChain.new (PackedDescriptorChain.new
    (ringMemory fun _ => 0#8) 0 2#16 true 0#16 fun _ => brokenRing)
    (ringMemory fun _ => 0#8) 0#16).value = .ok brokenChain :=
  DescriptorChain.new_eq_ok.mpr ⟨_, _, .step rfl (.done rfl), by simp [DescriptorChain.Ordered],
    rfl, rfl⟩

lemma peek_brokenRing {q : PackedQueue} (hq : new (pageConfig 1)
    (ringMemory fun _ => 0#8) twoVectors = .ok q) :
    (q.peek fun _ => brokenRing).value = .ok (some brokenChain) := by
  cases hq
  refine bind_value_eq_ok.mpr ⟨_, rfl, bind_value_eq_ok.mpr ⟨.ok _, rfl, ?_⟩⟩
  exact bind_value_eq_ok.mpr ⟨.ok brokenChain, attempt_value_eq_ok.mpr brokenRing_accepted, rfl⟩

lemma peek_step {q : PackedQueue} (hq : new (pageConfig 1)
    (ringMemory fun _ => 0#8) twoVectors = .ok q) :
    ((start q).step (.peek fun _ => brokenRing)).value =
      .ok { start q with peeked := some brokenChain } :=
  bind_value_eq_ok.mpr ⟨_, peek_brokenRing hq, rfl⟩

lemma popped_run {q : PackedQueue} (hq : new (pageConfig 1)
    (ringMemory fun _ => 0#8) twoVectors = .ok q) :
    ∃ s, (Traced.runAll step [.peek fun _ => brokenRing, .popPeeked] (start q)).value = .ok s ∧
      s.popped = [brokenChain] := by
  obtain ⟨q₁, hq₁⟩ : ∃ q₁, (q.popPeeked brokenChain).value = .ok q₁ := by
    cases hq
    exact ⟨_, rfl⟩
  refine ⟨⟨q₁, none, [brokenChain], []⟩, bind_value_eq_ok.mpr ⟨_, peek_step hq, ?_⟩, rfl⟩
  exact bind_value_eq_ok.mpr ⟨_, bind_value_eq_ok.mpr ⟨q₁, hq₁, rfl⟩, rfl⟩

/-- The chain is popped, and the driver is asked whether it wants an interrupt. -/
theorem packed_runs_through_page : ∃ q s,
    new (pageConfig 1) (ringMemory fun _ => 0#8) twoVectors = .ok q ∧
    (Traced.runAll step [.peek fun _ => brokenRing, .popPeeked] (start q)).value = .ok s ∧
    s.popped = [brokenChain] ∧ s.Acceptable (.triggerInterrupt true) := by
  obtain ⟨q, hq⟩ : ∃ q, new (pageConfig 1) (ringMemory fun _ => 0#8) twoVectors = .ok q := ⟨_, rfl⟩
  have hthrough := packed_runs_through_iff (pageConfig 1) (ringMemory fun _ => 0#8) twoVectors
    q hq (by decide) [.peek fun _ => brokenRing, .popPeeked, .triggerInterrupt true]
  obtain ⟨s, hs, hp⟩ := popped_run hq
  refine ⟨q, s, hq, hs, hp, hthrough.mp ?_ [.peek fun _ => brokenRing, .popPeeked] _ [] s rfl hs⟩
  intro h
  rcases bind_value_eq_panic.mp h with h | ⟨s₁, hs₁, h⟩
  · rw [peek_step hq] at h
    cases h
  · rw [peek_step hq] at hs₁
    cases hs₁
    cases hq
    cases h

/-- The device pops such a chain, and the process ends when it returns it. -/
theorem broken_chain_aborts : ∃ q,
    new (pageConfig 1) (ringMemory fun _ => 0#8) twoVectors = .ok q ∧
    (Traced.runAll step [.peek fun _ => brokenRing, .popPeeked, .addUsed 0 0#32]
      (start q)).value = .panic := by
  obtain ⟨q, hq⟩ : ∃ q, new (pageConfig 1) (ringMemory fun _ => 0#8) twoVectors = .ok q := ⟨_, rfl⟩
  refine ⟨q, hq, bind_value_eq_panic.mpr (.inr ⟨_, peek_step hq, ?_⟩)⟩
  cases hq
  rfl

/-! ## Interrupt suppression -/

/-- What the event suppression structure asks for, where it asks for something. -/
def driverWish (s : PackedDevice) (e : PackedDescEvent) : Option Bool :=
  if e.flag = ringEventFlagsDisable then some false
  else if e.flag = ringEventFlagsEnable then some true
  else if e.flag = ringEventFlagsDesc ∧ s.queue.usesEventIdx = true then
    some (decide (newFromDesc e.desc ∈ s.used))
  else none

/-- The driver has not switched interrupts off, and a position it waits for has been used. -/
def Wanted (s : PackedDevice) (e : PackedDescEvent) : Prop :=
  e.flag ≠ ringEventFlagsDisable ∧
    (e.flag = ringEventFlagsDesc → s.queue.usesEventIdx = true → newFromDesc e.desc ∈ s.used)

lemma driverWish_eq_true_iff {e : PackedDescEvent} {wish : Bool}
    (h : s.driverWish e = some wish) : true = wish ↔ s.Wanted e := by
  have hne : ringEventFlagsEnable ≠ ringEventFlagsDesc := by decide
  have hne' : ringEventFlagsEnable ≠ ringEventFlagsDisable := by decide
  unfold driverWish at h
  unfold Wanted
  split at h
  all_goals rename_i hds
  · cases h
    simp [hds]
  · split at h
    · rename_i hen
      cases h
      simp [hen, hne, hne']
    · split at h
      · rename_i hd
        cases h
        rw [eq_comm, decide_eq_true_eq]
        exact ⟨fun hm => ⟨hds, fun _ _ => hm⟩, fun hw => hw.2 hd.1 hd.2⟩
      · cases h

/-- **Decisions.** In every state, and for every content of the event suppression structure that
asks for something, the decision is what the driver asked for exactly when that is to send the
interrupt. A trigger that can deliver the interrupt does what was decided. -/
theorem decision_right_iff (s : PackedDevice) (e : PackedDescEvent)
    (he : s.queue.getDriverEvent.value = .ok e) :
    ∃ q' wants, s.queue.queueWantsInterrupt.value = .ok (q', wants) ∧
      (∀ wish, s.driverWish e = some wish → (wants = wish ↔ s.Wanted e)) ∧
      ∀ evtOk, s.queue.interrupt.Deliverable s.queue.vector evtOk →
        ∃ q'', (s.queue.triggerInterrupt evtOk).value = .ok (q'', wants) := by
  obtain ⟨hs, -⟩ := @notificationDecision_same s.queue e
  have hd : s.queue.queueWantsInterrupt.value =
      .ok ((s.queue.notificationDecision e).1, true) := by
    unfold queueWantsInterrupt
    simp [value_bind, he]
  refine ⟨_, _, hd, fun wish hw => driverWish_eq_true_iff hw, fun evtOk hdel => ?_⟩
  have hsig := mt Interrupt.signalUsedQueue_eq_panic_iff.mp (not_not.mpr hdel)
  unfold triggerInterrupt
  simp only [value_bind, hd, ok_bind, if_true, lift_value, hs.vector, hs.interrupt]
  cases hr : s.queue.interrupt.signalUsedQueue s.queue.vector evtOk with
  | panic => exact absurd hr hsig
  | err e => cases e
  | ok interrupt => exact ⟨_, rfl⟩

/-- The driver area of the page says `DISABLE`. -/
def disabledRing : Memory := fun a => if a = 0x102 then 1#8 else 0#8

/-- The decision for a driver that asks for no interrupt. -/
theorem decision_right_page : ∃ q e q',
    new (pageConfig 1) (ringMemory disabledRing) twoVectors = .ok q ∧
    q.getDriverEvent.value = .ok e ∧ (start q).driverWish e = some false ∧
    q.queueWantsInterrupt.value = .ok (q', true) ∧ ¬ (start q).Wanted e := by
  obtain ⟨q, hq⟩ : ∃ q, new (pageConfig 1) (ringMemory disabledRing) twoVectors = .ok q := ⟨_, rfl⟩
  obtain ⟨e, he, hw⟩ : ∃ e, q.getDriverEvent.value = .ok e ∧
      (start q).driverWish e = some false := by
    cases hq
    exact ⟨_, rfl, rfl⟩
  obtain ⟨q', wants, hd, hright, -⟩ := decision_right_iff (start q) e he
  obtain rfl : wants = true := by
    cases hq
    cases he
    cases hd
    rfl
  exact ⟨q, e, q', hq, he, hw, hd, mt (hright false hw).mpr nofun⟩

/-- An interrupt is sent although the driver has switched interrupts off. -/
theorem disabled_interrupt_sent : ∃ q q' e,
    new (pageConfig 1) (ringMemory disabledRing) twoVectors = .ok q ∧
    q.getDriverEvent.value = .ok e ∧ e.notificationType = .disable ∧
    (q.triggerInterrupt true).value = .ok (q', true) :=
  ⟨_, _, _, rfl, rfl, rfl, rfl⟩

end PackedDevice

end GunyahVmm.Virtio
