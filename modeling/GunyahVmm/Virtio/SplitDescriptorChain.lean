import GunyahVmm.Lib.LinkedPath
import GunyahVmm.Virtio.DescriptorChain

/-! Chains of split virtqueues: lists in guest memory, maybe cyclic, up to the queue size. -/

namespace GunyahVmm.Virtio
open Run VmMemory LinkedPath Run.Traced List

structure Desc where
  addr : BitVec 64
  len : BitVec 32
  flags : BitVec 16
  next : BitVec 16
  deriving DecidableEq

instance : FromBytes Desc where
  size := 16
  fromBytes b := ⟨le64 b 0, le32 b 8, le16 b 12, le16 b 14⟩

structure SplitDescriptorChain where
  index : Option (BitVec 16)
  count : BitVec 16
  queueSize : BitVec 16
  mem : GuestMemory
  descTable : Nat

namespace Desc

def unexpectedFlags (d : Desc) : BitVec 16 := d.flags &&& ~~~(virtqDescFWrite ||| virtqDescFNext)

def access (d : Desc) : DescriptorAccess :=
  if d.flags &&& virtqDescFWrite ≠ 0#16 then .deviceWrite else .deviceRead

def link (d : Desc) : Option (BitVec 16) :=
  if d.flags &&& virtqDescFNext ≠ 0#16 then some d.next else none

def descriptor (d : Desc) : Descriptor := ⟨d.addr, d.len, d.access⟩

end Desc

namespace SplitDescriptorChain

def new (mem : GuestMemory) (descTable : Nat) (queueSize index : BitVec 16) :
    SplitDescriptorChain :=
  ⟨some index, 0#16, queueSize, mem, descTable⟩

def next (c : SplitDescriptorChain) :
    Traced Access ChainError (Option Descriptor × SplitDescriptorChain) :=
  match c.index with
  | none => pure (none, c)
  | some index =>
    if c.queueSize ≤ index then lift (.err (.outOfBoundsIndex index c.queueSize))
    else if c.queueSize ≤ c.count then lift (.err .loopDetected)
    else
      match checkedAdd c.descTable (index.toNat * 16) with
      | none => lift (.err .integerOverflow)
      | some descAddr => do
        let desc ← (c.mem.readObjFromAddr Desc descAddr).mapErr (.readDesc descAddr)
        if desc.unexpectedFlags ≠ 0#16 then
          lift (.err (.unexpectedFlags index desc.unexpectedFlags))
        else
          -- the count stays below the queue size, so the increment does not overflow
          pure (some desc.descriptor, { c with index := desc.link, count := c.count + 1#16 })

/-- The descriptor at an index of a table, if the host can read it. -/
def descAt (mem : GuestMemory) (descTable : Nat) (i : BitVec 16) : Option Desc :=
  match checkedAdd descTable (i.toNat * 16) with
  | none => none
  | some descAddr =>
    if mem.checkObj descAddr 16 = .ok () then
      some (FromBytes.fromBytes fun k => mem.bytes (descAddr + k))
    else none

def cell (mem : GuestMemory) (descTable : Nat) (i : BitVec 16) :
    Option (Desc × Option (BitVec 16)) :=
  (descAt mem descTable i).map fun d => (d, d.link)

/-! ## One step -/

variable {mem : GuestMemory} {descTable : Nat} {i queueSize head : BitVec 16}
  {c c' : SplitDescriptorChain} {ds : List Descriptor}

lemma descAt_eq_some {d : Desc} :
    descAt mem descTable i = some d ↔
      ∃ descAddr, checkedAdd descTable (i.toNat * 16) = some descAddr ∧
        (mem.readObjFromAddr Desc descAddr).value = .ok d := by
  unfold descAt
  cases checkedAdd descTable (i.toNat * 16) with
  | none => simp
  | some descAddr =>
    simp only [Option.ite_none_right_eq_some, Option.some.injEq, exists_eq_left',
      GuestMemory.readObjFromAddr_value_eq_ok]
    exact and_congr_right fun _ => eq_comm

/-- Everything a successful step can do. -/
lemma next_eq_ok {r : Option Descriptor × SplitDescriptorChain} :
    c.next.value = .ok r ↔
      (c.index = none ∧ r = (none, c)) ∨
      ∃ i d, c.index = some i ∧ i < c.queueSize ∧ c.count < c.queueSize ∧
        descAt c.mem c.descTable i = some d ∧ d.unexpectedFlags = 0#16 ∧
        r = (some d.descriptor, { c with index := d.link, count := c.count + 1#16 }) := by
  constructor
  · intro h
    unfold next at h
    split at h
    · rename_i hidx
      cases h
      exact .inl ⟨hidx, rfl⟩
    · rename_i i hidx
      split at h
      · cases h
      split at h
      · cases h
      rename_i hi hc
      split at h
      · cases h
      rename_i descAddr ha
      obtain ⟨d, hr, h⟩ := bind_value_eq_ok.mp h
      rw [mapErr_value_eq_ok] at hr
      split at h
      · cases h
      rename_i hf
      cases h
      exact .inr ⟨i, d, hidx, BitVec.not_le.mp hi, BitVec.not_le.mp hc,
        descAt_eq_some.mpr ⟨descAddr, ha, hr⟩, not_not.mp hf, rfl⟩
  · rintro (⟨hidx, rfl⟩ | ⟨i, d, hidx, hi, hc, hd, hf, rfl⟩)
    · simp [next, hidx]
    · obtain ⟨descAddr, ha, hr⟩ := descAt_eq_some.mp hd
      simp only [next, hidx, BitVec.not_le.mpr hi, BitVec.not_le.mpr hc, ↓reduceIte, ha]
      rw [bind_value_eq_ok]
      refine ⟨d, mapErr_value_eq_ok.mpr hr, ?_⟩
      simp [hf]

lemma next_trace (c : SplitDescriptorChain) :
    c.next.trace = [] ∨ ∃ i descAddr, i < c.queueSize ∧ c.count < c.queueSize ∧
      checkedAdd c.descTable (i.toNat * 16) = some descAddr ∧
      c.next.trace = [.read descAddr 16] := by
  unfold next
  split
  · exact .inl rfl
  rename_i i _
  split
  · exact .inl rfl
  split
  · exact .inl rfl
  rename_i hi hc
  split
  · exact .inl rfl
  rename_i descAddr ha
  refine .inr ⟨i, descAddr, BitVec.not_le.mp hi, BitVec.not_le.mp hc, ha, ?_⟩
  rw [trace_bind_of_silent, mapErr_trace, GuestMemory.readObjFromAddr_trace]
  · rfl
  · intro d
    split <;> rfl

lemma next_ne_panic (c : SplitDescriptorChain) : c.next.value ≠ .panic := by
  unfold next
  split
  · simp
  split
  · simp
  split
  · simp
  split
  · simp
  simp only [ne_eq, bind_value_eq_panic, mapErr_value_eq_panic,
    GuestMemory.readObjFromAddr_ne_panic, false_or, not_exists, not_and]
  intro d _
  split <;> simp

instance : DescriptorChainIter SplitDescriptorChain where
  next := next
  count := count
  id _ := none
  remaining c := c.queueSize.toNat - c.count.toNat
  next_remaining := by
    intro c c' d h
    rcases next_eq_ok.mp h with ⟨_, h⟩ | ⟨i, desc, _, _, hcount, _, _, h⟩
    · cases h
    cases h
    rw [toNat_add_one_of_lt hcount]
    rw [BitVec.lt_def] at hcount
    dsimp only
    omega

/-! ## The walk through the table -/

open DescriptorChain

lemma cell_eq_some {d : Desc} {l : Option (BitVec 16)} :
    cell mem descTable i = some (d, l) ↔ descAt mem descTable i = some d ∧ d.link = l := by
  simp only [cell, Option.map_eq_some_iff, Prod.mk.injEq]
  constructor
  · rintro ⟨_, hd, rfl, hl⟩
    exact ⟨hd, hl⟩
  · rintro ⟨hd, hl⟩
    exact ⟨d, hd, rfl, hl⟩

/-- The iterator after it has returned `n` descriptors, the last one of the chain among
them. -/
def exhausted (c : SplitDescriptorChain) (n : Nat) : SplitDescriptorChain :=
  { c with index := none, count := c.count + BitVec.ofNat 16 n }

lemma exhausted_succ (c : SplitDescriptorChain) (index : Option (BitVec 16)) (n : Nat) :
    exhausted { c with index := index, count := c.count + 1#16 } n = c.exhausted (n + 1) := by
  simp only [exhausted, mk.injEq, true_and, and_true]
  rw [BitVec.add_assoc, Nat.add_comm n 1, BitVec.ofNat_add]

/-- The indexes of a path are in the table and its flags are known ones. -/
def Plain (queueSize : BitVec 16) (path : List (BitVec 16 × Desc)) : Prop :=
  ∀ x ∈ path, x.1 < queueSize ∧ x.2.unexpectedFlags = 0#16

lemma path_of_yields (h : Yields c ds c') :
    ∀ i, c.index = some i →
    ∃ path, Path (cell c.mem c.descTable) i path ∧ Plain c.queueSize path ∧
      ds = path.map (fun x => x.2.descriptor) ∧ c' = c.exhausted path.length := by
  induction h with
  | done hn =>
    intro i hi
    rcases next_eq_ok.mp hn with ⟨hnn, _⟩ | ⟨_, _, _, _, _, _, _, h⟩
    · rw [hi] at hnn
      cases hnn
    · cases h
  | @step c c₁ c' desc ds hn hy ih =>
    intro i hi
    rcases next_eq_ok.mp hn with ⟨_, h⟩ | ⟨i', d, hi', hlt, _, hd, hf, h⟩
    · cases h
    rw [hi] at hi'
    cases hi'
    cases h
    have hh : Plain c.queueSize [(i, d)] := by
      exact forall_mem_singleton.mpr ⟨hlt, hf⟩
    cases hl : d.link with
    | none =>
      -- the next step finds the iterator exhausted
      cases hy with
      | done hdn =>
        rcases next_eq_ok.mp hdn with ⟨_, h⟩ | ⟨_, _, _, _, _, _, _, h⟩
        all_goals cases h
        · refine ⟨[(i, d)], .last (cell_eq_some.mpr ⟨hd, hl⟩), hh, rfl, ?_⟩
          simp [exhausted, hl]
      | step hm _ =>
        rcases next_eq_ok.mp hm with ⟨_, h⟩ | ⟨_, _, hs, _⟩
        · cases h
        rw [hl] at hs
        cases hs
    | some j =>
      obtain ⟨path, hp, hpl, hds, hend⟩ := ih j hl
      refine ⟨(i, d) :: path, .link (cell_eq_some.mpr ⟨hd, hl⟩) hp, ?_, ?_, ?_⟩
      · exact forall_mem_cons.mpr ⟨⟨hlt, hf⟩, hpl⟩
      · rw [hds, map_cons]
      · rw [hend, exhausted_succ, length_cons]

lemma yields_of_path {path : List (BitVec 16 × Desc)} (hp : Path (cell mem descTable) i path) :
    ∀ c : SplitDescriptorChain, c.index = some i → c.mem = mem → c.descTable = descTable →
      Plain c.queueSize path → c.count.toNat + path.length ≤ c.queueSize.toNat →
      Yields c (path.map fun x => x.2.descriptor) (c.exhausted path.length) := by
  induction hp with
  | @last i d hc =>
    intro c hi hm ht hpl hcn
    obtain ⟨hd, hl⟩ := cell_eq_some.mp hc
    obtain ⟨hlt, hf⟩ := hpl (i, d) mem_cons_self
    have hls : c.count < c.queueSize := by
      rw [BitVec.lt_def]
      exact hcn
    subst hm ht
    refine .step (next_eq_ok.mpr (.inr ⟨i, d, hi, hlt, hls, hd, hf, rfl⟩)) ?_
    refine .done (next_eq_ok.mpr (.inl ⟨hl, ?_⟩))
    simp [exhausted, hl]
  | @link i j d path hc _ ih =>
    intro c hi hm ht hpl hcn
    obtain ⟨hd, hl⟩ := cell_eq_some.mp hc
    obtain ⟨hlt, hf⟩ := hpl (i, d) mem_cons_self
    rw [length_cons] at hcn
    have hls : c.count < c.queueSize := by
      rw [BitVec.lt_def]
      omega
    subst hm ht
    refine .step (next_eq_ok.mpr (.inr ⟨i, d, hi, hlt, hls, hd, hf, rfl⟩)) ?_
    rw [length_cons, ← exhausted_succ c d.link]
    refine ih _ hl rfl rfl (forall_mem_cons.mp hpl).2 ?_
    dsimp only
    rw [toNat_add_one_of_lt hls]
    omega

/-! ## Acceptance -/

/-- The non-empty buffers of one direction on a path, in chain order. -/
def pathBuffers (access : DescriptorAccess) (path : List (BitVec 16 × Desc)) : List MemRegion :=
  (path.filter fun x => x.2.len ≠ 0#32 ∧ x.2.access = access).map fun x =>
    ⟨x.2.addr, x.2.len.toNat⟩

/-- What a driver must put into the table: a list that ends, readable buffers before writable ones,
each in one region, neither empty nor too long. -/
structure Acceptable (mem : GuestMemory) (descTable : Nat) (queueSize head : BitVec 16)
    (path : List (BitVec 16 × Desc)) : Prop where
  links : Path (cell mem descTable) head path
  below : ∀ x ∈ path, x.1 < queueSize
  once : (path.map Prod.fst).Nodup
  flags : ∀ x ∈ path, x.2.unexpectedFlags = 0#16
  ordered : path.Pairwise fun x y =>
    x.2.len ≠ 0#32 → x.2.access = .deviceWrite → y.2.len ≠ 0#32 → y.2.access ≠ .deviceRead
  inside : ∀ x ∈ path, x.2.len ≠ 0#32 →
    ∃ region ∈ mem.regions, region.Holds x.2.addr.toNat x.2.len.toNat
  total_pos : 0 < (path.map fun x => x.2.len.toNat).sum
  total_lt : (path.map fun x => x.2.len.toNat).sum < 0x100000000

lemma buffers_map (access : DescriptorAccess) (path : List (BitVec 16 × Desc)) :
    buffers access (path.map fun x => x.2.descriptor) = pathBuffers access path := by
  simp [buffers, pathBuffers, filter_map, Function.comp_def, Desc.descriptor]

lemma yields_new_iff :
    Yields (new mem descTable queueSize head) ds c' ↔
      ∃ path, Path (cell mem descTable) head path ∧ Plain queueSize path ∧
        ds = path.map (fun x => x.2.descriptor) ∧
        c' = (new mem descTable queueSize head).exhausted path.length := by
  constructor
  · intro h
    exact path_of_yields h head rfl
  · rintro ⟨path, hp, hpl, rfl, rfl⟩
    -- a path that ends visits no index twice, so the count never runs out
    have hl : path.length ≤ queueSize.toNat :=
      hp.length_le BitVec.toNat (fun _ _ => BitVec.eq_of_toNat_eq) fun x hx =>
        BitVec.lt_def.mp (hpl x hx).1
    refine yields_of_path hp _ rfl rfl rfl hpl ?_
    simpa [new] using hl

lemma new_eq_ok_iff {chain : DescriptorChain} :
    (DescriptorChain.new (new mem descTable queueSize head) mem head).value = .ok chain ↔
      ∃ path, Acceptable mem descTable queueSize head path ∧
        chain = ⟨head, pathBuffers .deviceRead path, pathBuffers .deviceWrite path, none,
          BitVec.ofNat 16 path.length⟩ := by
  rw [DescriptorChain.new_eq_ok]
  have hs : ∀ path : List (BitVec 16 × Desc),
      ((path.map fun x => x.2.descriptor).map fun d => d.len.toNat) =
        path.map fun x => x.2.len.toNat := by
    intro path
    rw [map_map]
    rfl
  have hc : ∀ n, DescriptorChainIter.count ((new mem descTable queueSize head).exhausted n) =
      BitVec.ofNat 16 n := fun n => BitVec.zero_add _
  constructor
  · rintro ⟨ds, c', hy, ho, hv, rfl⟩
    obtain ⟨path, hp, hpl, rfl, rfl⟩ := yields_new_iff.mp hy
    obtain ⟨hi, hpos, hlt⟩ := validate_buffers_iff.mp hv
    rw [hs] at hpos hlt
    refine ⟨path, ⟨hp, fun x hx => (hpl x hx).1, hp.nodup, fun x hx => (hpl x hx).2,
      pairwise_map.mp ho, ?_, hpos, hlt⟩, ?_⟩
    · intro x hx hl
      exact hi _ (mem_map_of_mem hx) hl
    · rw [buffers_map, buffers_map, hc]
      rfl
  · rintro ⟨path, h, rfl⟩
    refine ⟨_, _, yields_new_iff.mpr ⟨path, h.links, fun x hx => ⟨h.below x hx, h.flags x hx⟩, rfl,
      rfl⟩, pairwise_map.mpr h.ordered, validate_buffers_iff.mpr ⟨?_, ?_, ?_⟩, ?_⟩
    · exact forall_mem_map.mpr h.inside
    · rw [hs]
      exact h.total_pos
    · rw [hs]
      exact h.total_lt
    · rw [buffers_map, buffers_map, hc]
      rfl

/-- The accesses of one step fit into what remains of the count. -/
lemma next_trace_length (c : SplitDescriptorChain) :
    c.next.trace.length ≤ c.queueSize.toNat - c.count.toNat ∧ ∀ d c',
      c.next.value = .ok (some d, c') →
        c.next.trace.length + (c'.queueSize.toNat - c'.count.toNat) ≤
          c.queueSize.toNat - c.count.toNat := by
  have hl : ∀ d c', c.next.value = .ok (some d, c') → c.count.toNat < c.queueSize.toNat ∧
      c'.queueSize.toNat - c'.count.toNat = c.queueSize.toNat - (c.count.toNat + 1) := by
    intro d c' h
    rcases next_eq_ok.mp h with ⟨_, h⟩ | ⟨_, _, _, _, hc, _, _, h⟩
    · cases h
    cases h
    rw [toNat_add_one_of_lt hc]
    exact ⟨hc, rfl⟩
  rcases c.next_trace with ht | ⟨_, _, _, hc, _, ht⟩
  · rw [ht, length_nil]
    refine ⟨Nat.zero_le _, fun d c' h => ?_⟩
    obtain ⟨_, hr⟩ := hl d c' h
    omega
  · rw [BitVec.lt_def] at hc
    rw [ht, length_singleton]
    refine ⟨by omega, fun d c' h => ?_⟩
    obtain ⟨_, hr⟩ := hl d c' h
    omega

/-- **Descriptor chains.** Whatever the table holds, the host reads at most as many
descriptors as the queue has entries, and it takes exactly the acceptable chains, each with
its buffers in order. -/
theorem new_accepts_iff (mem : GuestMemory) (descTable : Nat) (queueSize head : BitVec 16) :
    (DescriptorChain.new (new mem descTable queueSize head) mem head).trace.length ≤
        queueSize.toNat ∧
    ∀ chain, (DescriptorChain.new (new mem descTable queueSize head) mem head).value = .ok chain ↔
      ∃ path, Acceptable mem descTable queueSize head path ∧
        chain = ⟨head, pathBuffers .deviceRead path, pathBuffers .deviceWrite path, none,
          BitVec.ofNat 16 path.length⟩ := by
  refine ⟨?_, fun chain => new_eq_ok_iff⟩
  rw [DescriptorChain.new_trace]
  exact collectRegions_trace_length next_trace_length _ _

/-! Two tables a stricter reading of the rules would decide the other way: an empty writable
descriptor before a readable one, and a buffer across two adjoining regions. -/

/-- The bytes of a descriptor whose numbers are all below 65536. -/
def smallDesc (addr len flags next : BitVec 16) : List (BitVec 8) :=
  leBytes16 addr ++ List.replicate 6 0 ++ leBytes16 len ++ List.replicate 2 0 ++
    leBytes16 flags ++ leBytes16 next

def secondPage : MemoryRegion :=
  ⟨0x1000, 0x1000, .guestMemoryRegion, MemoryRegion.page_lt, MemoryRegion.page_lt⟩

def twoPages (table : List (BitVec 8)) : GuestMemory where
  regions := [.firstPage, secondPage]
  isProtected := false
  bytes := fun a => (table[a]?).getD 0

def emptyWritableFirst : GuestMemory := twoPages (smallDesc 0x100 0 3 1 ++ smallDesc 0x200 4 0 0)

def acrossRegions : GuestMemory := twoPages (smallDesc 0xffc 8 0 0)

lemma emptyWritableFirst_path :
    Path (cell emptyWritableFirst 0) 0 [(0, ⟨0x100, 0, 3, 1⟩), (1, ⟨0x200, 4, 0, 0⟩)] :=
  .link (j := 1) (by decide) (.last (by decide))

lemma acrossRegions_path : Path (cell acrossRegions 0) 0 [(0, ⟨0xffc, 8, 0, 0⟩)] :=
  .last (by decide)

/-- The first chain is taken although a readable descriptor follows a writable one. The
second is refused although every byte of its buffer is in guest memory. -/
theorem strict_reading_differs :
    ((∃ chain, (DescriptorChain.new (new emptyWritableFirst 0 2 0) emptyWritableFirst 0).value =
        .ok chain) ∧
      ∃ path, Path (cell emptyWritableFirst 0) 0 path ∧
        ¬ path.Pairwise fun x y =>
          x.2.access = .deviceWrite → y.2.len ≠ 0#32 → y.2.access ≠ .deviceRead) ∧
    ((∀ chain, (DescriptorChain.new (new acrossRegions 0 2 0) acrossRegions 0).value ≠
        .ok chain) ∧
      ∃ path, Path (cell acrossRegions 0) 0 path ∧ (∀ x ∈ path, x.1 < 2#16) ∧
        (path.map Prod.fst).Nodup ∧ (∀ x ∈ path, x.2.unexpectedFlags = 0#16) ∧
        (path.Pairwise fun x y =>
          x.2.access = .deviceWrite → y.2.len ≠ 0#32 → y.2.access ≠ .deviceRead) ∧
        (∀ x ∈ path, x.2.len ≠ 0#32 → ∀ k < x.2.len.toNat,
          ∃ region ∈ acrossRegions.regions, region.contains (x.2.addr.toNat + k) = true) ∧
        0 < (path.map fun x => x.2.len.toNat).sum ∧
        (path.map fun x => x.2.len.toNat).sum < 0x100000000) := by
  refine ⟨⟨⟨_, new_eq_ok_iff.mpr ⟨_, ⟨emptyWritableFirst_path, ?_, ?_, ?_, ?_, ?_, ?_, ?_⟩,
    rfl⟩⟩, _, emptyWritableFirst_path, ?_⟩, ?_, _, acrossRegions_path, ?_, ?_, ?_, ?_, ?_, ?_, ?_⟩
  case refine_9 =>
    intro chain h
    obtain ⟨path, ha, _⟩ := new_eq_ok_iff.mp h
    have hi := ha.inside
    rw [ha.links.unique acrossRegions_path] at hi
    revert hi
    decide
  all_goals decide

end SplitDescriptorChain

end GunyahVmm.Virtio
