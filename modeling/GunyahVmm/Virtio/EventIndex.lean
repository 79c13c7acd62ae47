import GunyahVmm.Lib.Window
import GunyahVmm.Virtio.QueueSafety

/-! Interrupt suppression of split queues: the driver names a used entry, and two distances on the
ring of 16-bit indices are compared. -/

namespace GunyahVmm.Virtio
open Run VmMemory Window Run.Traced SplitQueue List

/-- A device, and the indices of the used entries that were added since `lastUsed` was set. -/
structure Watch where
  device : Device
  pending : List (BitVec 16)

namespace Watch

/-- `lastUsed` starts at zero even after another device, so earlier entries count as unannounced. -/
def start (q : SplitQueue) : Watch := ⟨⟨q, []⟩, window 0#16 q.nextUsed.toNat⟩

def step (s : Watch) : QueueOp → Traced Access Empty Watch
  | .addUsed k len => do
    let device ← s.device.step (.addUsed k len)
    let index := s.device.queue.nextUsed
    pure ⟨device, if device.queue.nextUsed = index then s.pending else s.pending ++ [index]⟩
  | .triggerInterrupt evtOk => do
    let (queue, sent) ← s.device.queue.triggerInterrupt evtOk
    pure ⟨{ s.device with queue }, if sent then [] else s.pending⟩
  | op => do
    let device ← s.device.step op
    pure { s with device }

variable {s : Watch} {d d' device : Device}

/-- The pending entries are those from `lastUsed` up to `nextUsed`. -/
structure Inv (s : Watch) : Prop where
  eventIdx : s.device.queue.usesEventIdx = true
  pending : s.pending = window s.device.queue.lastUsed s.pending.length
  nextUsed : s.device.queue.nextUsed = s.device.queue.lastUsed + BitVec.ofNat 16 s.pending.length

def SameIndices (q q' : SplitQueue) : Prop :=
  q'.features = q.features ∧ q'.lastUsed = q.lastUsed ∧ q'.nextUsed = q.nextUsed

lemma Inv.of_same (hs : Inv s) (h : SameIndices s.device.queue device.queue) :
    Inv { s with device } := by
  obtain ⟨hf, hl, hn⟩ := h
  refine ⟨?_, ?_, ?_⟩
  · have hi := hs.eventIdx
    unfold usesEventIdx at hi ⊢
    rw [hf]
    exact hi
  · rw [hl]
    exact hs.pending
  · rw [hl, hn]
    exact hs.nextUsed

lemma Inv.push (hs : Inv s) {mem : GuestMemory}
    (h : device.queue = { s.device.queue with mem, nextUsed := s.device.queue.nextUsed + 1#16 }) :
    Inv ⟨device, s.pending ++ [s.device.queue.nextUsed]⟩ := by
  refine ⟨?_, ?_, ?_⟩
  · rw [h]
    exact hs.eventIdx
  · rw [h, length_append, length_singleton, window_succ, ← hs.pending, ← hs.nextUsed]
  · rw [h, length_append, length_singleton]
    rw [hs.nextUsed, BitVec.add_assoc]
    rw [BitVec.ofNat_add]

lemma sameIndices_of_peek (h : (d.step .peek).value = .ok d') : SameIndices d.queue d'.queue := by
  obtain ⟨r, _, h⟩ := bind_value_eq_ok.mp h
  cases r <;> cases h <;> exact ⟨rfl, rfl, rfl⟩

lemma sameIndices_of_popPeeked {k : Nat} (h : (d.step (.popPeeked k)).value = .ok d') :
    SameIndices d.queue d'.queue := by
  simp only [Device.step] at h
  cases hc : d.chains[k]? with
  | none =>
    rw [hc] at h
    cases h
    exact ⟨rfl, rfl, rfl⟩
  | some chain =>
    rw [hc] at h
    obtain ⟨q', hq', h⟩ := bind_value_eq_ok.mp h
    cases h
    obtain ⟨mem, rfl⟩ := popPeeked_eq_ok hq'
    exact ⟨rfl, rfl, rfl⟩

lemma addUsed_cases {k : Nat} {len : BitVec 32} (h : (d.step (.addUsed k len)).value = .ok d') :
    d' = d ∨ ∃ mem, d'.queue = { d.queue with mem, nextUsed := d.queue.nextUsed + 1#16 } := by
  simp only [Device.step] at h
  cases hc : d.chains[k]? with
  | none =>
    rw [hc] at h
    cases h
    exact .inl rfl
  | some chain =>
    rw [hc] at h
    obtain ⟨q', hq', h⟩ := bind_value_eq_ok.mp h
    cases h
    rcases addUsed_eq_ok hq' with rfl | ⟨mem, rfl⟩
    · exact .inl rfl
    · exact .inr ⟨mem, rfl⟩

/-- **One step** keeps the invariant, and only a trigger takes entries off the list. -/
lemma step_inv {s' : Watch} (hs : Inv s) {op : QueueOp} (h : (s.step op).value = .ok s') :
    Inv s' ∧ ((∀ evtOk, op ≠ .triggerInterrupt evtOk) → s.pending ⊆ s'.pending) := by
  cases op with
  | guestWrites | protectMemory | interruptChanges =>
    cases h
    exact ⟨hs.of_same ⟨rfl, rfl, rfl⟩, fun _ _ he => he⟩
  | peek =>
    obtain ⟨device, hd, h⟩ := bind_value_eq_ok.mp h
    cases h
    exact ⟨hs.of_same (sameIndices_of_peek hd), fun _ _ he => he⟩
  | popPeeked k =>
    obtain ⟨device, hd, h⟩ := bind_value_eq_ok.mp h
    cases h
    exact ⟨hs.of_same (sameIndices_of_popPeeked hd), fun _ _ he => he⟩
  | addUsed k len =>
    obtain ⟨device, hd, h⟩ := bind_value_eq_ok.mp h
    cases h
    rcases addUsed_cases hd with rfl | ⟨mem, hq⟩
    · rw [if_pos rfl]
      exact ⟨hs, fun _ _ he => he⟩
    · have hm : device.queue.nextUsed ≠ s.device.queue.nextUsed := by
        rw [hq]
        bv_omega
      rw [if_neg hm]
      exact ⟨hs.push hq, fun _ _ he => mem_append_left _ he⟩
  | triggerInterrupt evtOk =>
    refine ⟨?_, fun hop => absurd rfl (hop evtOk)⟩
    obtain ⟨⟨q', sent⟩, hq', h⟩ := bind_value_eq_ok.mp h
    cases h
    rcases (triggerInterrupt_eq_ok hq').2 with ⟨rfl, rfl⟩ | ⟨rfl, interrupt, rfl⟩
    · exact hs.of_same ⟨rfl, rfl, rfl⟩
    · exact ⟨hs.eventIdx, rfl, by simp⟩

lemma run_inv {ops : List QueueOp} {t : Watch} (hs : Inv s)
    (h : (Traced.runAll step ops s).value = .ok t) :
    Inv t ∧ ((∀ op ∈ ops, ∀ evtOk, op ≠ .triggerInterrupt evtOk) → s.pending ⊆ t.pending) := by
  induction ops generalizing s with
  | nil =>
    cases h
    exact ⟨hs, fun _ _ he => he⟩
  | cons op ops ih =>
    obtain ⟨s', hs', h⟩ := bind_value_eq_ok.mp h
    obtain ⟨hi, hk⟩ := step_inv hs hs'
    obtain ⟨hi', hk'⟩ := ih hi h
    refine ⟨hi', fun hops => ?_⟩
    exact List.Subset.trans (hk (hops op mem_cons_self))
      (hk' (forall_mem_cons.mp hops).2)

lemma start_inv {q : SplitQueue} (hi : q.usesEventIdx = true) (hl : q.lastUsed = 0#16) :
    Inv (start q) := by
  refine ⟨hi, ?_, ?_⟩
  all_goals simp [start, hl]

/-- The decision of the queue, in terms of the entries it has not announced. -/
lemma queueWantsInterrupt_value (hs : Inv s) (hf : s.pending.length < 65536)
    {usedEvent : BitVec 16} (hr : s.device.queue.getUsedEvent.value = .ok usedEvent) :
    s.device.queue.queueWantsInterrupt.value = .ok (decide (usedEvent ∈ s.pending)) := by
  unfold queueWantsInterrupt
  rw [if_pos hs.eventIdx, value_bind, hr, Outcome.ok_bind, pure_value]
  have hi := sub_lt_sub_iff (a := s.device.queue.lastUsed) (e := usedEvent) hf
  rw [← hs.nextUsed, ← hs.pending] at hi
  rw [Outcome.ok.injEq, decide_eq_decide]
  exact hi

end Watch

/-- The watch started, with the event index, by a configuration that was accepted. -/
lemma SplitQueue.new_lastUsed {config : QueueConfig} {mem : GuestMemory} {interrupt : Interrupt}
    {q : SplitQueue} (h : new config mem interrupt = .ok q) : q.lastUsed = 0#16 := by
  unfold new at h
  split at h
  · cases h
  dsimp only at h
  split at h
  all_goals cases h
  · rfl

namespace Watch

/-- **Event index.** Let the run add fewer than 65536 entries between two interrupts, those
that the queue started with included. A trigger after it then sends an interrupt exactly when
the event index it reads is the index of an entry not yet announced. An entry that was
published since the last trigger is one of these. -/
theorem sends_iff_pending (config : QueueConfig) (mem : GuestMemory) (interrupt : Interrupt)
    (q : SplitQueue) (hq : new config mem interrupt = .ok q)
    (hidx : q.usesEventIdx = true) (ops : List QueueOp)
    (hfew : ∀ pre, pre <+: ops → ∀ t, (Traced.runAll step pre (start q)).value = .ok t →
      t.pending.length < 65536)
    (s : Watch) (hrun : (Traced.runAll step ops (start q)).value = .ok s) :
    (∃ usedEvent, s.device.queue.getUsedEvent.value = .ok usedEvent ∧ ∀ evtOk,
      (s.device.queue.triggerInterrupt evtOk).value =
        if usedEvent ∈ s.pending then
          s.device.queue.interrupt.signalUsedQueue s.device.queue.vector evtOk >>= fun interrupt =>
            .ok ({ s.device.queue with lastUsed := s.device.queue.nextUsed, interrupt }, true)
        else .ok (s.device.queue, false)) ∧
    ∀ pre k len mid t t', ops = pre ++ .addUsed k len :: mid →
      (∀ op ∈ mid, ∀ evtOk, op ≠ .triggerInterrupt evtOk) →
      (Traced.runAll step pre (start q)).value = .ok t →
      (t.step (.addUsed k len)).value = .ok t' →
      t'.device.queue.nextUsed ≠ t.device.queue.nextUsed → t.device.queue.nextUsed ∈ s.pending := by
  have hs := start_inv hidx (new_lastUsed hq)
  have hi := (run_inv hs hrun).1
  refine ⟨?_, ?_⟩
  · obtain ⟨usedEvent, hrd⟩ : ∃ e, s.device.queue.getUsedEvent.value = .ok e := by
      have hret : s.device.queue.getUsedEvent.value ≠ .panic := getUsedEvent_safe.returns
      cases hv : s.device.queue.getUsedEvent.value with
      | ok e => exact ⟨e, rfl⟩
      | err e => cases e
      | panic => exact absurd hv hret
    refine ⟨usedEvent, hrd, fun evtOk => ?_⟩
    have hw := queueWantsInterrupt_value hi (hfew ops (prefix_refl ops) s hrun) hrd
    rw [triggerInterrupt_value hw]
    simp
  · rintro pre k len mid t t' rfl hmid hp ha hm
    obtain ⟨t₁, ht₁, hr⟩ := runAll_append.mp hrun
    rw [hp] at ht₁
    cases ht₁
    obtain ⟨t₂, ht₂, hr⟩ := bind_value_eq_ok.mp hr
    rw [ha] at ht₂
    cases ht₂
    have hi₁ := (run_inv hs hp).1
    refine (run_inv (step_inv hi₁ ha).1 hr).2 hmid ?_
    -- the entry was put on the list when it was published
    obtain ⟨device, _, hl⟩ := bind_value_eq_ok.mp ha
    cases hl
    rw [if_neg hm]
    exact mem_append_right _ (mem_singleton_self _)

/-- A queue with the event index, taken over after `nextUsed` entries. -/
def eventConfig (nextUsed : BitVec 16) : QueueConfig :=
  { Device.pageConfig 1 with ackedFeatures := 1#64 <<< virtioRingFEventIdx, nextUsed }

/-- The first interrupt announces what was pending; then the driver asks for the sixth entry and
offers a buffer, which is used. -/
def resumedRun : List QueueOp :=
  [.triggerInterrupt true, .guestWrites fun a =>
      if a = 8 ∨ a = 0x102 then 1 else if a = 0x108 then 5 else 0,
    .peek, .popPeeked 0, .addUsed 0 16]

def resumedQueue : SplitQueue :=
  (new (eventConfig 5) Device.pageMemory Device.twoVectors).toOption.get rfl

theorem sends_iff_pending_resumed : ∃ s,
    (Traced.runAll step resumedRun (start resumedQueue)).value = .ok s ∧ s.pending = [5] ∧
    ∃ usedEvent, s.device.queue.getUsedEvent.value = .ok usedEvent ∧ ∀ evtOk,
      (s.device.queue.triggerInterrupt evtOk).value = if usedEvent ∈ s.pending then
        s.device.queue.interrupt.signalUsedQueue s.device.queue.vector evtOk >>= fun interrupt =>
          .ok ({ s.device.queue with lastUsed := s.device.queue.nextUsed, interrupt }, true)
      else .ok (s.device.queue, false) := by
  have hv : ((Traced.runAll step resumedRun (start resumedQueue)).value >>= fun s =>
      (.ok s.pending : Outcome Empty _)) = .ok [5] := by decide +kernel
  have hfew : ∀ pre ∈ resumedRun.inits, ((Traced.runAll step pre (start resumedQueue)).value >>=
      fun t => (.ok (decide (t.pending.length < 65536)) : Outcome Empty _)) = .ok true := by
    decide +kernel
  obtain ⟨s, hs, hp⟩ := Outcome.bind_eq_ok.mp hv
  refine ⟨s, hs, Outcome.ok.inj hp, (sends_iff_pending (eventConfig 5) Device.pageMemory
    Device.twoVectors resumedQueue rfl rfl resumedRun ?_ s hs).1⟩
  intro pre hpre t ht
  have hl := hfew pre ((mem_inits _ _).mpr hpre)
  rw [ht] at hl
  exact of_decide_eq_true (Outcome.ok.inj hl)

/-- A queue that was taken over after five entries sends an interrupt although it has added
none of them. -/
theorem resumed_queue_sends : ∃ q q',
    new (eventConfig 5) Device.pageMemory Device.twoVectors = .ok q ∧
    q.usesEventIdx = true ∧ q.getUsedEvent.value = .ok 0#16 ∧
    (q.triggerInterrupt true).value = .ok (q', true) :=
  ⟨_, _, rfl, rfl, rfl, rfl⟩

end Watch

end GunyahVmm.Virtio
