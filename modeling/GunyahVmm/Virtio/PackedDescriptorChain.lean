import GunyahVmm.Virtio.DescriptorChain

/-! Descriptor chains of packed virtqueues: stretches of the ring, available by two flag bits and
the wrap counter. Each read has its own view of memory. -/

namespace GunyahVmm.Virtio
open Run VmMemory

def virtqDescFAvail : BitVec 16 := 0x80

def virtqDescFUsed : BitVec 16 := 0x8000

def ringEventFlagsEnable : BitVec 16 := 0x0

def ringEventFlagsDisable : BitVec 16 := 0x1

def ringEventFlagsDesc : BitVec 16 := 0x2

structure PackedDesc where
  addr : BitVec 64
  len : BitVec 32
  id : BitVec 16
  flags : BitVec 16

instance : FromBytes PackedDesc where
  size := 16
  fromBytes b := ⟨le64 b 0, le32 b 8, le16 b 12, le16 b 14⟩

namespace PackedDesc
section
variable (d : PackedDesc)

def hasNext : Bool := d.flags &&& virtqDescFNext ≠ 0#16

def isAvailable (wrap : Bool) : Bool :=
  let avail : Bool := d.flags &&& virtqDescFAvail ≠ 0#16
  let used : Bool := d.flags &&& virtqDescFUsed ≠ 0#16
  avail != used && avail == wrap

def unexpectedFlags : BitVec 16 :=
  d.flags &&& ~~~(virtqDescFWrite ||| virtqDescFNext ||| virtqDescFAvail ||| virtqDescFUsed)

def access : DescriptorAccess :=
  if d.flags &&& virtqDescFWrite ≠ 0#16 then .deviceWrite else .deviceRead

def descriptor : Descriptor := ⟨d.addr, d.len, d.access⟩

end

end PackedDesc

structure PackedDescEvent where
  desc : BitVec 16
  flag : BitVec 16

instance : FromBytes PackedDescEvent where
  size := 4
  fromBytes b := ⟨le16 b 0, le16 b 2⟩

instance : IntoBytes PackedDescEvent where
  asBytes e := leBytes16 e.desc ++ leBytes16 e.flag

inductive PackedNotificationType where
  | enable
  | disable
  | desc (desc : BitVec 16)

/-- Flags that are not known count as the request to notify. -/
def PackedDescEvent.notificationType (e : PackedDescEvent) : PackedNotificationType :=
  if e.flag = ringEventFlagsDisable then .disable
  else if e.flag = ringEventFlagsDesc then .desc e.desc
  else if e.flag = ringEventFlagsEnable then .enable
  else .enable

/-- The iterator. `view k` is what memory holds when it reads for the `k`-th time. -/
structure PackedDescriptorChain where
  availWrapCounter : Bool
  index : Option (BitVec 16)
  count : BitVec 16
  id : Option (BitVec 16)
  queueSize : BitVec 16
  mem : GuestMemory
  descTable : Nat
  view : Nat → Memory

namespace PackedDescriptorChain

def new (mem : GuestMemory) (descTable : Nat) (queueSize : BitVec 16) (availWrapCounter : Bool)
    (index : BitVec 16) (view : Nat → Memory) : PackedDescriptorChain :=
  ⟨availWrapCounter, some index, 0#16, none, queueSize, mem, descTable, view⟩

def memNow (c : PackedDescriptorChain) : GuestMemory :=
  { c.mem with bytes := c.view c.count.toNat }

/-- The iterator after `desc`. A chain goes on at the next position of the ring. -/
def advance (c : PackedDescriptorChain) (index : BitVec 16) (desc : PackedDesc) :
    PackedDescriptorChain :=
  let c := { c with count := c.count + 1#16 }
  if desc.hasNext then
    if index + 1#16 < c.queueSize then { c with index := some (index + 1#16) }
    else { c with index := some 0#16, availWrapCounter := !c.availWrapCounter }
  else { c with id := some desc.id, index := none }

def next (c : PackedDescriptorChain) :
    Traced Access ChainError (Option Descriptor × PackedDescriptorChain) :=
  match c.index with
  | none => pure (none, c)
  | some index =>
    if c.queueSize ≤ index then Traced.lift (.err (.outOfBoundsIndex index c.queueSize))
    else if c.queueSize ≤ c.count then Traced.lift (.err .loopDetected)
    else
      match checkedAdd c.descTable (index.toNat * 16) with
      | none => Traced.lift (.err .integerOverflow)
      | some descAddr => do
        let desc ← (c.memNow.readObjFromAddr PackedDesc descAddr).mapErr (.readDesc descAddr)
        -- the chain ends here for the caller too, with the descriptors so far
        if desc.isAvailable c.availWrapCounter = false then pure (none, c)
        else if desc.len = 0#32 then Traced.lift (.err .zeroLengthDescriptor)
        else if desc.unexpectedFlags ≠ 0#16 then
          Traced.lift (.err (.unexpectedFlags index desc.unexpectedFlags))
        else
          -- index and count are below the queue size, so the increments do not overflow
          pure (some desc.descriptor, c.advance index desc)

/-! ## One step -/

section
variable (c : PackedDescriptorChain) (index : BitVec 16) (desc : PackedDesc)

@[simp] lemma advance_queueSize : (c.advance index desc).queueSize = c.queueSize := by
  unfold advance
  dsimp only
  split_ifs <;> rfl

@[simp] lemma advance_count : (c.advance index desc).count = c.count + 1#16 := by
  unfold advance
  dsimp only
  split_ifs <;> rfl

end

variable {c c' : PackedDescriptorChain} {ds : List Descriptor} {mem mem' : GuestMemory}
  {descTable : Nat} {queueSize : BitVec 16} {view : Nat → Memory}

/-- Everything a successful step can do. -/
lemma next_cases {r : Option Descriptor × PackedDescriptorChain} (h : c.next.value = .ok r) :
    r = (none, c) ∨ ∃ index desc, c.index = some index ∧ index < c.queueSize ∧
      c.count < c.queueSize ∧ r = (some desc.descriptor, c.advance index desc) := by
  unfold next at h
  split at h
  · cases h
    exact .inl rfl
  · rename_i index hidx
    split at h
    · cases h
    split at h
    · cases h
    rename_i hi hc
    split at h
    · cases h
    obtain ⟨desc, _, h⟩ := Traced.bind_value_eq_ok.mp h
    split at h
    · cases h
      exact .inl rfl
    split at h
    · cases h
    split at h
    · cases h
    · cases h
      exact .inr ⟨index, desc, hidx, BitVec.not_le.mp hi, BitVec.not_le.mp hc, rfl⟩

lemma next_ne_panic (c : PackedDescriptorChain) : c.next.value ≠ .panic := by
  unfold next
  split
  · simp
  split
  · simp
  split
  · simp
  split
  · simp
  simp only [ne_eq, Traced.bind_value_eq_panic, Traced.mapErr_value_eq_panic,
    GuestMemory.readObjFromAddr_ne_panic, false_or, not_exists, not_and]
  intro desc _
  split
  · simp
  split
  · simp
  split <;> simp

instance : DescriptorChainIter PackedDescriptorChain where
  next := next
  count := count
  id := id
  remaining c := c.queueSize.toNat - c.count.toNat
  next_remaining := by
    intro c c' d h
    rcases next_cases h with h | ⟨index, desc, _, _, hcount, h⟩
    · cases h
    cases h
    rw [advance_queueSize, advance_count, toNat_add_one_of_lt hcount]
    rw [BitVec.lt_def] at hcount
    omega

/-! ## The walk through the ring -/

open DescriptorChain

lemma count_of_yields (h : Yields c ds c') (hc : c.count.toNat ≤ c.queueSize.toNat) :
    c'.count.toNat = c.count.toNat + ds.length ∧ c'.count.toNat ≤ c.queueSize.toNat := by
  induction h with
  | done hn =>
    rcases next_cases hn with h | ⟨_, _, _, _, _, h⟩
    all_goals cases h
    · exact ⟨by simp, hc⟩
  | @step c c₁ c' d ds hn _ ih =>
    rcases next_cases hn with h | ⟨index, desc, _, _, hcn, h⟩
    · cases h
    cases h
    rw [advance_queueSize, advance_count, toNat_add_one_of_lt hcn] at ih
    rw [BitVec.lt_def] at hcn
    obtain ⟨hl, hle⟩ := ih hcn
    rw [List.length_cons]
    exact ⟨by omega, hle⟩

lemma index_of_yields (h : Yields c ds c') (hds : ds ≠ []) :
    ∃ index, c.index = some index ∧ index < c.queueSize := by
  cases h with
  | done hn => exact absurd rfl hds
  | step hn _ =>
    rcases next_cases hn with h | ⟨index, desc, hi, hlt, _, _⟩
    · cases h
    · exact ⟨index, hi, hlt⟩

/-- What holds of an accepted chain. It may have no id: the ring may break off. -/
lemma new_eq_ok {index : BitVec 16} {wrap : Bool} {chain : DescriptorChain}
    (h : (DescriptorChain.new (new mem descTable queueSize wrap index view) mem' index).value =
      .ok chain) :
    chain.index = index ∧ index < queueSize ∧ 0 < chain.count.toNat ∧
      chain.count.toNat ≤ queueSize.toNat := by
  obtain ⟨ds, c', hy, _, hv, rfl⟩ := DescriptorChain.new_eq_ok.mp h
  have hds : ds ≠ [] := by
    rintro rfl
    have hs := (validate_buffers_iff.mp hv).2.1
    simp at hs
  obtain ⟨i, hi, hlt⟩ := index_of_yields hy hds
  cases hi
  obtain ⟨hl, hle⟩ := count_of_yields hy (by simp [new])
  have hp : 0 < ds.length := List.length_pos_iff.mpr hds
  refine ⟨rfl, hlt, ?_, hle⟩
  change 0 < c'.count.toNat
  rw [hl]
  omega

lemma new_ne_panic {index : BitVec 16} {wrap : Bool} :
    (DescriptorChain.new (new mem descTable queueSize wrap index view) mem' index).value ≠
      .panic := by
  have hc : (collectRegions (new mem descTable queueSize wrap index view)
      ⟨[], [], false⟩).Safe fun _ => True :=
    collectRegions_safe (fun _ => True) (fun c _ => ⟨fun _ _ => trivial, c.next_ne_panic⟩)
      (fun _ _ _ _ _ => trivial) _ _ trivial
  exact (DescriptorChain.new_safe hc).returns

end PackedDescriptorChain

end GunyahVmm.Virtio
