import GunyahVmm.Virtio.PackedSafety

/-! Positions in a packed ring. The queue jumps over chains, and the iterator takes single steps. -/

namespace GunyahVmm.Virtio
open Run VmMemory Run.Traced List Nat

/-! ## Counted descriptors -/

namespace PackedQueueIndex
variable {size count : BitVec 16}

/-- The position behind the first `total` descriptors, with the parity of the completed laps. -/
def after (size : BitVec 16) (total : Nat) : PackedQueueIndex :=
  ⟨decide (total / size.toNat % 2 = 0), BitVec.ofNat 16 (total % size.toNat)⟩

lemma after_zero (size : BitVec 16) : after size 0 = .default := by
  simp [after, default]

section
variable (hpos : 0 < size.toNat) (total : Nat)
include hpos

lemma index_after : (after size total).index.toNat = total % size.toNat := by
  have hlt := mod_lt total hpos
  rw [after, BitVec.toNat_ofNat, mod_eq_of_lt (by omega)]

lemma next_after : (after size total).next size = after size (total + 1) := by
  have hlt := mod_lt total hpos
  have hs := div_add_mod total size.toNat
  have hsum : ((after size total).index + 1#16).toNat = total % size.toNat + 1 := by
    rw [BitVec.toNat_add, index_after hpos, BitVec.toNat_ofNat]
    omega
  unfold next
  simp only [BitVec.lt_def, hsum]
  by_cases hl : total % size.toNat + 1 < size.toNat
  · have hn : total + 1 = size.toNat * (total / size.toNat) + (total % size.toNat + 1) := by omega
    rw [if_pos hl, after, after, hn, mul_add_div hpos, mul_add_mod,
      div_eq_of_lt hl, mod_eq_of_lt hl, add_zero, BitVec.ofNat_add]
  · have hn : total + 1 = size.toNat * (total / size.toNat + 1) := by
      rw [mul_succ]
      omega
    rw [if_neg hl, after, after, hn, Nat.mul_div_cancel_left _ hpos, Nat.mul_mod_right]
    congr 1
    by_cases hev : total / size.toNat % 2 = 0
    · simp [hev, add_mod]
    · simp [show total / size.toNat % 2 = 1 by omega, add_mod]

lemma iterate_next_after (total n : Nat) :
    (next size)^[n] (after size total) = after size (total + n) := by
  induction n with
  | zero => rfl
  | succ n ih => rw [Function.iterate_succ_apply', ih, next_after hpos, add_assoc]

/-- A jump by a chain does not overflow and counts its descriptors. -/
lemma addIndex_after (hm : size.toNat ≤ queueMaxSize)
    (hc : count.toNat ≤ size.toNat) (total : Nat) :
    (after size total).addIndex count size = .ok (after size (total + count.toNat)) := by
  have hi : (after size total).index.toNat < size.toNat := by
    rw [index_after hpos]
    exact mod_lt _ hpos
  rw [addIndex_eq_ok hm hi hc, iterate_next_after hpos]

end

end PackedQueueIndex

open PackedQueueIndex

/-! ## The iterator -/

namespace PackedDescriptorChain

/-- Where the iterator stands, unless it has seen the last descriptor. -/
def position (c : PackedDescriptorChain) : Option PackedQueueIndex :=
  c.index.map fun index => ⟨c.availWrapCounter, index⟩

/-- The iterator after it has yielded a number of descriptors. -/
inductive Steps (c : PackedDescriptorChain) : Nat → PackedDescriptorChain → Prop
  | start : Steps c 0 c
  | next {n : Nat} {c₁ c₂ : PackedDescriptorChain} {d : Descriptor} :
      Steps c n c₁ → c₁.next.value = .ok (some d, c₂) → Steps c (n + 1) c₂

lemma advance_position (c : PackedDescriptorChain) (index : BitVec 16) (desc : PackedDesc) :
    (c.advance index desc).position = none ∨ (c.advance index desc).position =
      some ((⟨c.availWrapCounter, index⟩ : PackedQueueIndex).next c.queueSize) := by
  unfold advance PackedQueueIndex.next
  dsimp only
  split
  · right
    split <;> rfl
  · exact .inl rfl

/-- **Single steps.** Each descriptor stands where the count of those before it says. -/
lemma steps_position {c c' : PackedDescriptorChain} {total n : Nat}
    (hpos : 0 < c.queueSize.toNat) (hc : c.position = some (after c.queueSize total))
    (h : Steps c n c') : c'.queueSize = c.queueSize ∧
      (c'.position = none ∨ c'.position = some (after c.queueSize (total + n))) := by
  induction h with
  | start => exact ⟨rfl, .inr hc⟩
  | next _ hn ih =>
    obtain ⟨hs, hp⟩ := ih
    rcases next_cases hn with h | ⟨index, desc, hi, -, -, h⟩
    · cases h
    cases h
    rw [position, hi, Option.map_some] at hp
    have hat := Option.some.inj (hp.resolve_left (Option.some_ne_none _))
    refine ⟨(advance_queueSize _ _ _).trans hs, (advance_position _ _ _).imp_right ?_⟩
    intro ha
    rw [ha, hat, hs, next_after hpos, add_assoc]

end PackedDescriptorChain

/-! ## The queue -/

namespace PackedQueue
variable {q q' : PackedQueue} {chain : DescriptorChain}

lemma popPeeked_eq_ok (h : (q.popPeeked chain).value = .ok q') :
    q.availIndex.addIndex chain.count q.size = .ok q'.availIndex ∧ q'.useIndex = q.useIndex ∧
      q'.size = q.size := by
  unfold popPeeked at h
  obtain ⟨availIndex, ha, h⟩ := bind_value_eq_ok.mp h
  dsimp only at h
  split at h
  · obtain ⟨mem, -, h⟩ := bind_value_eq_ok.mp h
    cases h
    exact ⟨ha, rfl, rfl⟩
  · cases h
    exact ⟨ha, rfl, rfl⟩

/-- A chain that starts outside the ring is dropped. -/
lemma addUsed_eq_ok {len : BitVec 32} (h : (q.addUsed chain len).value = .ok q') :
    q'.availIndex = q.availIndex ∧ q'.size = q.size ∧
      if q.size ≤ chain.index then q'.useIndex = q.useIndex
      else q.useIndex.addIndex chain.count q.size = .ok q'.useIndex := by
  unfold addUsed at h
  split at h
  · rename_i ho
    cases h
    exact ⟨rfl, rfl, by rw [if_pos ho]⟩
  · rename_i hin
    simp only [bind_value_eq_ok] at h
    obtain ⟨_, -, _, -, _, -, _, -, _, -, _, -, _, -, useIndex, ha, h⟩ := h
    cases h
    exact ⟨rfl, rfl, by rw [if_neg hin]; exact ha⟩

end PackedQueue

/-! ## Runs -/

/-- The calls that move a position. Chains are returned in the order in which they were popped. -/
inductive RingOp where
  | popPeeked (chain : DescriptorChain)
  | addUsed (len : BitVec 32)

/-- The chain has at least one descriptor and at most as many as the ring. -/
def RingOp.Fits (size : BitVec 16) : RingOp → Prop
  | .popPeeked chain => 1 ≤ chain.count.toNat ∧ chain.count.toNat ≤ size.toNat
  | .addUsed _ => True

/-- The queue, the chains that are not returned yet, and the descriptors popped and used so far. -/
structure RingState where
  queue : PackedQueue
  outstanding : List DescriptorChain
  popped : Nat
  used : Nat

namespace RingState

def start (q : PackedQueue) : RingState := ⟨q, [], 0, 0⟩

/-- A chain that the queue drops uses no descriptors. -/
def step (s : RingState) : RingOp → Option RingState
  | .popPeeked chain =>
    match (s.queue.popPeeked chain).value with
    | .ok queue => some ⟨queue, s.outstanding ++ [chain], s.popped + chain.count.toNat, s.used⟩
    | _ => none
  | .addUsed len =>
    match s.outstanding with
    | [] => none
    | chain :: rest =>
      match (s.queue.addUsed chain len).value with
      | .ok queue => some ⟨queue, rest, s.popped,
          if s.queue.size ≤ chain.index then s.used else s.used + chain.count.toNat⟩
      | _ => none

structure Inv (size : BitVec 16) (s : RingState) : Prop where
  size_eq : s.queue.size = size
  avail : s.queue.availIndex = after size s.popped
  use : s.queue.useIndex = after size s.used
  fits : ∀ chain ∈ s.outstanding, chain.count.toNat ≤ size.toNat
  behind : s.used + (s.outstanding.map (·.count.toNat)).sum ≤ s.popped

variable {size : BitVec 16} {s s' : RingState} {op : RingOp}

lemma Inv.step (hpos : 0 < size.toNat) (hmax : size.toNat ≤ queueMaxSize) (hs : Inv size s)
    (hop : op.Fits size) (h : s.step op = some s') : Inv size s' := by
  obtain ⟨hsz, ha, huse, hf, hb⟩ := hs
  cases op with
  | popPeeked chain =>
    dsimp only [RingState.step] at h
    split at h
    · rename_i queue hp
      cases h
      obtain ⟨hadd, hsm, hs'⟩ := PackedQueue.popPeeked_eq_ok hp
      rw [hsz, ha, addIndex_after hpos hmax hop.2] at hadd
      refine ⟨hs'.trans hsz, (Outcome.ok.inj hadd).symm, hsm.trans huse, ?_, ?_⟩
      · exact forall_mem_append.mpr ⟨hf, forall_mem_singleton.mpr hop.2⟩
      · simp only [map_append, sum_append_nat, map_cons, map_nil, sum_singleton]
        omega
    · cases h
  | addUsed len =>
    dsimp only [RingState.step] at h
    split at h
    · cases h
    rename_i chain rest ho
    rw [ho] at hf hb
    rw [map_cons, sum_cons] at hb
    obtain ⟨hch, hr⟩ := forall_mem_cons.mp hf
    split at h
    · rename_i queue hu
      cases h
      obtain ⟨hsm, hs', hm⟩ := PackedQueue.addUsed_eq_ok hu
      refine ⟨hs'.trans hsz, hsm.trans ha, ?_, hr, ?_⟩
      · split
        · rename_i hd
          rw [if_pos hd] at hm
          exact hm.trans huse
        · rename_i ht
          rw [if_neg ht, hsz, huse, addIndex_after hpos hmax hch] at hm
          exact (Outcome.ok.inj hm).symm
      · dsimp only
        split <;> omega
    · cases h

/-- Both positions are those of the counted descriptors, and the next chain moves them on without an
overflow. -/
structure OnTrack (size : BitVec 16) (s : RingState) : Prop where
  avail : s.queue.availIndex = after size s.popped
  use : s.queue.useIndex = after size s.used
  behind : s.used ≤ s.popped
  pops : ∀ count : BitVec 16, count.toNat ≤ size.toNat →
    s.queue.availIndex.addIndex count size = .ok (after size (s.popped + count.toNat))
  uses : ∀ count : BitVec 16, count.toNat ≤ size.toNat →
    s.queue.useIndex.addIndex count size = .ok (after size (s.used + count.toNat))
  walks : ∀ mem descTable view n c, (PackedDescriptorChain.new mem descTable size
      s.queue.availIndex.wrapCounter s.queue.availIndex.index view).Steps n c →
    c.position = none ∨ c.position = some (after size (s.popped + n))

/-- **Ring positions.** In a ring of 1 to 32768 descriptors, whatever chains of fitting length are
popped and returned in order. -/
theorem ring_positions (config : QueueConfig) (mem : GuestMemory) (interrupt : Interrupt)
    (q : PackedQueue) (hq : PackedQueue.new config mem interrupt = .ok q)
    (hpos : 1 ≤ config.size.toNat) (hmax : config.size.toNat ≤ 32768) (ops : List RingOp)
    (hops : ∀ op ∈ ops, op.Fits config.size) (s : RingState)
    (hrun : run step ops (start q) = some s) : s.OnTrack config.size := by
  obtain ⟨-, hsz, ha, hu, -⟩ := PackedQueue.new_eq_ok hq
  have hst : (∀ op ∈ ([] : List RingOp), op.Fits config.size) → Inv config.size (start q) := by
    intro _
    refine ⟨hsz, ha.trans (after_zero _).symm, hu.trans (after_zero _).symm, ?_, le_rfl⟩
    exact forall_mem_nil _
  have hi := run_history (fun (past : List RingOp) s =>
    (∀ op ∈ past, op.Fits config.size) → Inv config.size s)
    (fun past s op s' hs hstp hp =>
      (hs fun o ho => hp o (mem_append_left _ ho)).step hpos hmax
        (hp op (mem_append_right _ (mem_singleton_self _))) hstp)
    ops [] (start q) s hst hrun hops
  refine ⟨hi.avail, hi.use, ?_, ?_, ?_, ?_⟩
  · have hb := hi.behind
    omega
  · intro count hc
    rw [hi.avail, addIndex_after hpos hmax hc]
  · intro count hc
    rw [hi.use, addIndex_after hpos hmax hc]
  · intro mem descTable view n c hsteps
    refine (PackedDescriptorChain.steps_position (c := .new mem descTable config.size _ _ view)
      hpos ?_ hsteps).2
    rw [hi.avail]
    rfl

def lapChain : DescriptorChain := ⟨0#16, [⟨0#64, 1⟩], [], some 0#16, 2#16⟩

theorem ring_positions_one_lap : ∃ q s,
    PackedQueue.new (Device.pageConfig 1) (PackedDevice.ringMemory fun _ => 0#8) Device.twoVectors =
      .ok q ∧
    run step [.popPeeked lapChain, .addUsed 0#32] (start q) = some s ∧ s.OnTrack 2 := by
  refine ⟨_, _, rfl, rfl, ?_⟩
  refine ring_positions (Device.pageConfig 1) (PackedDevice.ringMemory fun _ => 0#8)
    Device.twoVectors _ rfl (by decide) (by decide) [.popPeeked lapChain, .addUsed 0#32] ?_ _ rfl
  simp [RingOp.Fits, lapChain, Device.pageConfig]

end RingState

end GunyahVmm.Virtio
