import GunyahVmm.VmMemory.GuestMemory

/-! Descriptor chains of virtio queues, from any iterator. Buffers are checked at the end. -/

namespace GunyahVmm.Virtio
open Run VmMemory Run.Traced List

def virtqDescFNext : BitVec 16 := 0x1

def virtqDescFWrite : BitVec 16 := 0x2

inductive DescriptorAccess where
  | deviceRead
  | deviceWrite
  deriving DecidableEq

structure Descriptor where
  address : BitVec 64
  len : BitVec 32
  access : DescriptorAccess

structure MemRegion where
  offset : BitVec 64
  len : Nat

inductive RegionError where
  | rangeOutOfBounds (offset : BitVec 64) (len : Nat)
  | lengthOverflow
  | zeroLength

inductive ChainError where
  | outOfBoundsIndex (index queueSize : BitVec 16)
  | loopDetected
  | integerOverflow
  | readDesc (descAddr : Nat) (error : VmMemory.Error)
  | zeroLengthDescriptor
  | unexpectedFlags (index flags : BitVec 16)
  | readableAfterWritable
  | invalidRegions (error : RegionError)

/-- An iterator over the descriptors of a chain; `remaining` bounds what is still to come. -/
class DescriptorChainIter (σ : Type) where
  next : σ → Traced Access ChainError (Option Descriptor × σ)
  count : σ → BitVec 16
  id : σ → Option (BitVec 16)
  remaining : σ → Nat
  next_remaining : ∀ {c c' : σ} {d : Descriptor},
    (next c).value = .ok (some d, c') → remaining c' < remaining c

structure DescriptorChain where
  index : BitVec 16
  reader : List MemRegion
  writer : List MemRegion
  id : Option (BitVec 16)
  count : BitVec 16

namespace DescriptorChain
open DescriptorChainIter
variable {σ : Type} [DescriptorChainIter σ]

/-- The regions collected so far, and whether a writable one was among them. -/
structure Regions where
  readable : List MemRegion
  writable : List MemRegion
  seenWritable : Bool

def pushDescriptor (regions : Regions) (desc : Descriptor) : Outcome ChainError Regions :=
  if desc.len = 0#32 then .ok regions
  else
    let region : MemRegion := ⟨desc.address, desc.len.toNat⟩
    match desc.access with
    | .deviceRead =>
      if regions.seenWritable then .err .readableAfterWritable
      else .ok { regions with readable := regions.readable ++ [region] }
    | .deviceWrite =>
      .ok { regions with seenWritable := true, writable := regions.writable ++ [region] }

def collectRegions (chain : σ) (regions : Regions) : Traced Access ChainError (Regions × σ) :=
  match _h : (next chain).value with
  | .ok (none, chain') => ⟨(next chain).trace, .ok (regions, chain')⟩
  | .ok (some desc, chain') =>
    match pushDescriptor regions desc with
    | .ok regions' =>
      let rest := collectRegions chain' regions'
      ⟨(next chain).trace ++ rest.trace, rest.value⟩
    | .err e => ⟨(next chain).trace, .err e⟩
    | .panic => ⟨(next chain).trace, .panic⟩
  | .err e => ⟨(next chain).trace, .err e⟩
  | .panic => ⟨(next chain).trace, .panic⟩
termination_by remaining chain
decreasing_by exact next_remaining _h

/-- Check the regions one after the other and add up their lengths in a `u32`. -/
def totalLen (mem : GuestMemory) : List MemRegion → Nat → Outcome RegionError Nat
  | [], total => .ok total
  | r :: rs, total =>
    let len := r.len % 0x100000000
    if mem.isValidRange r.offset.toNat len = false then .err (.rangeOutOfBounds r.offset r.len)
    else if total + len < 0x100000000 then totalLen mem rs (total + len)
    else .err .lengthOverflow

def validateMemRegions (mem : GuestMemory) (readable writable : List MemRegion) :
    Outcome RegionError Unit := do
  let total ← totalLen mem (readable ++ writable) 0
  if total = 0 then .err .zeroLength else .ok ()

def new (chain : σ) (mem : GuestMemory) (index : BitVec 16) :
    Traced Access ChainError DescriptorChain := do
  let (regions, chain) ← collectRegions chain ⟨[], [], false⟩
  (Traced.lift (validateMemRegions mem regions.readable regions.writable)).mapErr .invalidRegions
  pure
    { index
      reader := regions.readable
      writer := regions.writable
      id := DescriptorChainIter.id chain
      count := DescriptorChainIter.count chain }

/-! ## Collecting -/

/-- The non-empty buffers of one direction, in chain order. -/
def buffers (access : DescriptorAccess) (ds : List Descriptor) : List MemRegion :=
  (ds.filter fun d => d.len ≠ 0#32 ∧ d.access = access).map fun d => ⟨d.address, d.len.toNat⟩

/-- No non-empty readable descriptor follows a non-empty writable one. -/
def Ordered (ds : List Descriptor) : Prop :=
  ds.Pairwise fun d e =>
    d.len ≠ 0#32 → d.access = .deviceWrite → e.len ≠ 0#32 → e.access ≠ .deviceRead

variable {ds : List Descriptor} {c : σ} {mem : GuestMemory} {index : BitVec 16} {P : Access → Prop}
  (rs : List MemRegion)

lemma buffers_eq_nil {access : DescriptorAccess} :
    buffers access ds = [] ↔ ∀ d ∈ ds, d.len ≠ 0#32 → d.access ≠ access := by
  simp [buffers]

/-- What the loop has collected after the descriptors `ds`, and when it gets there. -/
lemma foldlM_pushDescriptor_eq_ok (ds : List Descriptor) :
    ∀ regions regions' : Regions, ds.foldlM pushDescriptor regions = .ok regions' ↔
      Ordered ds ∧ (regions.seenWritable = true → buffers .deviceRead ds = []) ∧
        regions' = ⟨regions.readable ++ buffers .deviceRead ds,
          regions.writable ++ buffers .deviceWrite ds,
          regions.seenWritable || !(buffers .deviceWrite ds).isEmpty⟩ := by
  induction ds with
  | nil =>
    intro regions regions'
    constructor
    · intro h
      cases h
      exact ⟨.nil, fun _ => rfl, by simp [buffers]⟩
    · rintro ⟨_, _, rfl⟩
      simp [buffers]
  | cons d ds ih =>
    intro regions regions'
    rw [foldlM_cons, Outcome.bind_eq_ok]
    by_cases hl : d.len = 0#32
    · -- an empty descriptor is skipped, whatever its direction
      have hp : pushDescriptor regions d = .ok regions := by simp [pushDescriptor, hl]
      have hb : ∀ access, buffers access (d :: ds) = buffers access ds := by
        intro access
        simp [buffers, hl]
      have ho : Ordered (d :: ds) ↔ Ordered ds := by
        simp [Ordered, pairwise_cons, hl]
      simp only [hp, Outcome.ok.injEq, exists_eq_left', ih, hb, ho]
    · cases ha : d.access with
      | deviceRead =>
        have hr : buffers .deviceRead (d :: ds) =
            ⟨d.address, d.len.toNat⟩ :: buffers .deviceRead ds := by
          simp [buffers, hl, ha]
        have hw : buffers .deviceWrite (d :: ds) = buffers .deviceWrite ds := by
          simp [buffers, ha]
        have ho : Ordered (d :: ds) ↔ Ordered ds := by
          simp [Ordered, pairwise_cons, ha]
        cases hs : regions.seenWritable with
        | true => simp [pushDescriptor, hl, ha, hs, hr]
        | false => simp [pushDescriptor, hl, ha, hs, hr, hw, ho, ih]
      | deviceWrite =>
        have hr : buffers .deviceRead (d :: ds) = buffers .deviceRead ds := by
          simp [buffers, ha]
        have hw : buffers .deviceWrite (d :: ds) =
            ⟨d.address, d.len.toNat⟩ :: buffers .deviceWrite ds := by
          simp [buffers, hl, ha]
        have ho : Ordered (d :: ds) ↔ buffers .deviceRead ds = [] ∧ Ordered ds := by
          simp [Ordered, pairwise_cons, hl, ha, buffers_eq_nil]
        simp [pushDescriptor, hl, ha, hr, hw, ho, ih]
        grind

/-- The iterator yields the descriptors `ds` and is then exhausted. -/
inductive Yields : σ → List Descriptor → σ → Prop
  | done {c c' : σ} : (next c).value = .ok (none, c') → Yields c [] c'
  | step {c c₁ c' : σ} {d : Descriptor} {ds : List Descriptor} :
      (next c).value = .ok (some d, c₁) → Yields c₁ ds c' → Yields c (d :: ds) c'

lemma collectRegions_eq (c : σ) (regions : Regions) :
    collectRegions c regions = next c >>= fun r =>
      match r.1 with
      | none => pure (regions, r.2)
      | some d => Traced.lift (pushDescriptor regions d) >>= collectRegions r.2 := by
  conv_lhs => unfold collectRegions
  change _ = Traced.bind _ _
  unfold Traced.bind
  split <;> rename_i hn <;> simp only [hn]
  · simp [pure]
  rename_i d c'
  change _ = (⟨_ ++ (Traced.bind _ _).trace, (Traced.bind _ _).value⟩ : Traced _ _ _)
  unfold Traced.bind Traced.lift
  cases pushDescriptor regions d <;> simp

/-- **The loop.** It succeeds exactly when the iterator is exhausted and every descriptor
was taken. -/
lemma collectRegions_eq_ok {c' : σ} {regions regions' : Regions} :
    (collectRegions c regions).value = .ok (regions', c') ↔
      ∃ ds, Yields c ds c' ∧ ds.foldlM pushDescriptor regions = .ok regions' := by
  constructor
  · intro h
    fun_induction collectRegions c regions with
    | case1 c regions c₁ hn =>
      cases h
      exact ⟨[], .done hn, rfl⟩
    | case2 c regions d c₁ hn regions₁ hp rest ih =>
      obtain ⟨ds, hy, hf⟩ := ih h
      refine ⟨d :: ds, .step hn hy, ?_⟩
      rw [foldlM_cons, hp, Outcome.ok_bind, hf]
    | case3 => cases h
    | case4 => cases h
    | case5 => cases h
    | case6 => cases h
  · rintro ⟨ds, hy, hf⟩
    induction hy generalizing regions with
    | done hn =>
      cases hf
      rw [collectRegions_eq, bind_value_eq_ok]
      exact ⟨_, hn, rfl⟩
    | @step c c₁ c' d ds hn _ ih =>
      rw [foldlM_cons, Outcome.bind_eq_ok] at hf
      obtain ⟨regions₁, hp, hr⟩ := hf
      rw [collectRegions_eq, bind_value_eq_ok]
      refine ⟨_, hn, ?_⟩
      rw [bind_value_eq_ok]
      exact ⟨regions₁, hp, ih hr⟩

lemma pushDescriptor_ne_panic (regions : Regions) (d : Descriptor) :
    pushDescriptor regions d ≠ .panic := by
  unfold pushDescriptor
  split
  · simp
  split
  · split <;> simp
  · simp

/-- The loop does what the iterator does, and aborts only if the iterator does. -/
lemma collectRegions_safe (Inv : σ → Prop) (hs : ∀ c, Inv c → (next c).Safe P)
    (hst : ∀ c d c', Inv c → (next c).value = .ok (some d, c') → Inv c') (c : σ)
    (regions : Regions) (hc : Inv c) : (collectRegions c regions).Safe P := by
  fun_induction collectRegions c regions with
  | case1 c | case3 c | case5 c => exact ⟨(hs c hc).only, nofun⟩
  | case2 c regions d c₁ hn regions₁ hp rest ih =>
    have hr := ih (hst c d c₁ hc hn)
    exact ⟨forall_mem_append.mpr ⟨(hs c hc).only, hr.only⟩, hr.returns⟩
  | case4 c regions d c₁ hn hp => exact absurd hp (pushDescriptor_ne_panic regions d)
  | case6 c regions hn => exact absurd hn (hs c hc).returns

/-- The iterator pays for its accesses out of what remains, so the loop does too. -/
lemma collectRegions_trace_length (hpay : ∀ c : σ, (next c).trace.length ≤ remaining c ∧ ∀ d c',
      (next c).value = .ok (some d, c') → (next c).trace.length + remaining c' ≤ remaining c)
    (c : σ) (regions : Regions) : (collectRegions c regions).trace.length ≤ remaining c := by
  fun_induction collectRegions c regions with
  | case2 c regions d c₁ hn regions₁ hp rest ih =>
    have hc := (hpay c).2 d c₁ hn
    rw [length_append]
    change _ + (collectRegions c₁ regions₁).trace.length ≤ _
    omega
  | _ => exact (hpay _).1

/-! ## Checking the buffers -/

def lenSum (rs : List MemRegion) : Nat := (rs.map MemRegion.len).sum

lemma totalLen_eq_ok (hl : ∀ r ∈ rs, r.len < 0x100000000) :
    ∀ total total' : Nat, total < 0x100000000 → (totalLen mem rs total = .ok total' ↔
      (∀ r ∈ rs, mem.isValidRange r.offset.toNat r.len = true) ∧
        total + lenSum rs < 0x100000000 ∧ total' = total + lenSum rs) := by
  induction rs with
  | nil =>
    intro total total' ht
    simp only [totalLen, lenSum, map_nil, sum_nil, Nat.add_zero, Outcome.ok.injEq,
      not_mem_nil, false_implies, implies_true, ht, true_and]
    exact eq_comm
  | cons r rs ih =>
    intro total total' ht
    have hr : r.len % 0x100000000 = r.len := Nat.mod_eq_of_lt (hl r mem_cons_self)
    have hrs := ih fun x hx => hl x (mem_cons_of_mem r hx)
    have hs : total + lenSum (r :: rs) = total + r.len + lenSum rs := by
      simp only [lenSum, map_cons, sum_cons]
      omega
    simp only [totalLen, hr, forall_mem_cons, hs]
    cases hv : mem.isValidRange r.offset.toNat r.len with
    | false => simp
    | true =>
      by_cases hf : total + r.len < 0x100000000
      · simp [hf, hrs (total + r.len) total' hf]
      simp only [hf, ↓reduceIte, Bool.true_eq_false, reduceCtorEq, true_and, false_iff, not_and]
      intro _ hlt
      omega

lemma validateMemRegions_eq_ok {readable writable : List MemRegion}
    (hl : ∀ r ∈ readable ++ writable, r.len < 0x100000000) :
    validateMemRegions mem readable writable = .ok () ↔
      (∀ r ∈ readable ++ writable, mem.isValidRange r.offset.toNat r.len = true) ∧
        0 < lenSum (readable ++ writable) ∧ lenSum (readable ++ writable) < 0x100000000 := by
  unfold validateMemRegions
  rw [Outcome.bind_eq_ok]
  simp only [totalLen_eq_ok _ hl 0 _ (by decide), Nat.zero_add]
  constructor
  · rintro ⟨total, ⟨hv, hlt, rfl⟩, ht⟩
    split at ht
    · cases ht
    · exact ⟨hv, Nat.pos_of_ne_zero ‹_›, hlt⟩
  · rintro ⟨hv, hp, hlt⟩
    refine ⟨_, ⟨hv, hlt, rfl⟩, ?_⟩
    rw [if_neg (Nat.pos_iff_ne_zero.mp hp)]

lemma totalLen_yields : ∀ total, (totalLen mem rs total).Yields fun _ => True := by
  induction rs with
  | nil => exact fun _ => trivial
  | cons r rs ih =>
    intro total
    simp only [totalLen]
    split
    · trivial
    split
    · exact ih _
    · trivial

lemma validateMemRegions_yields (mem : GuestMemory) (readable writable : List MemRegion) :
    (validateMemRegions mem readable writable).Yields fun _ => True := by
  unfold validateMemRegions
  refine (totalLen_yields _ 0).bind fun total _ => ?_
  split <;> trivial

lemma mem_buffers {r : MemRegion} :
    r ∈ buffers .deviceRead ds ++ buffers .deviceWrite ds ↔
      ∃ d ∈ ds, d.len ≠ 0#32 ∧ r = ⟨d.address, d.len.toNat⟩ := by
  simp only [buffers, mem_append, mem_map, mem_filter, decide_eq_true_eq]
  constructor
  · rintro (⟨d, ⟨hd, hl, _⟩, rfl⟩ | ⟨d, ⟨hd, hl, _⟩, rfl⟩)
    all_goals exact ⟨d, hd, hl, rfl⟩
  · rintro ⟨d, hd, hl, rfl⟩
    cases ha : d.access with
    | deviceRead => exact .inl ⟨d, ⟨hd, hl, ha⟩, rfl⟩
    | deviceWrite => exact .inr ⟨d, ⟨hd, hl, ha⟩, rfl⟩

lemma lenSum_buffers (ds : List Descriptor) :
    lenSum (buffers .deviceRead ds ++ buffers .deviceWrite ds) =
      (ds.map fun d => d.len.toNat).sum := by
  rw [lenSum, map_append, sum_append]
  induction ds with
  | nil => rfl
  | cons d ds ih =>
    rw [map_cons, sum_cons, ← ih]
    by_cases hl : d.len = 0#32
    · simp [buffers, hl]
    · cases ha : d.access <;> simp [buffers, hl, ha] <;> omega

lemma validate_buffers_iff :
    validateMemRegions mem (buffers .deviceRead ds) (buffers .deviceWrite ds) = .ok () ↔
      (∀ d ∈ ds, d.len ≠ 0#32 → ∃ region ∈ mem.regions, region.Holds d.address.toNat d.len.toNat) ∧
      0 < (ds.map fun d => d.len.toNat).sum ∧
      (ds.map fun d => d.len.toNat).sum < 0x100000000 := by
  have hl : ∀ r ∈ buffers .deviceRead ds ++ buffers .deviceWrite ds, r.len < 0x100000000 := by
    intro r hr
    obtain ⟨d, _, _, rfl⟩ := mem_buffers.mp hr
    exact d.len.isLt
  rw [validateMemRegions_eq_ok hl, lenSum_buffers]
  refine and_congr_left fun _ => ?_
  have hv : ∀ d : Descriptor, d.len ≠ 0#32 →
      (mem.isValidRange d.address.toNat d.len.toNat = true ↔
        ∃ region ∈ mem.regions, region.Holds d.address.toNat d.len.toNat) := by
    intro d hd
    refine GuestMemory.isValidRange_iff (Nat.pos_of_ne_zero fun hz => hd ?_)
    exact BitVec.eq_of_toNat_eq hz
  constructor
  · intro h d hd hne
    exact (hv d hne).mp (h _ (mem_buffers.mpr ⟨d, hd, hne, rfl⟩))
  · intro h r hr
    obtain ⟨d, hd, hne, rfl⟩ := mem_buffers.mp hr
    exact (hv d hne).mpr (h d hd hne)

/-! ## The whole chain -/

/-- What the caller gets for a chain of the descriptors `ds`, and when. -/
lemma new_eq_ok {chain : DescriptorChain} :
    (new c mem index).value = .ok chain ↔ ∃ ds c', Yields c ds c' ∧ Ordered ds ∧
      validateMemRegions mem (buffers .deviceRead ds) (buffers .deviceWrite ds) = .ok () ∧
        chain = ⟨index, buffers .deviceRead ds, buffers .deviceWrite ds,
          DescriptorChainIter.id c', DescriptorChainIter.count c'⟩ := by
  unfold new
  simp only [bind_value_eq_ok, Prod.exists, collectRegions_eq_ok,
    foldlM_pushDescriptor_eq_ok, mapErr_value_eq_ok, lift_value,
    pure_value, Outcome.ok.injEq, nil_append]
  constructor
  · rintro ⟨_, c', ⟨ds, hy, ho, _, rfl⟩, _, hv, rfl⟩
    exact ⟨ds, c', hy, ho, hv, rfl⟩
  · rintro ⟨ds, c', hy, ho, hv, rfl⟩
    exact ⟨_, c', ⟨ds, hy, ho, nofun, rfl⟩, (), hv, rfl⟩

lemma new_trace : (new c mem index).trace = (collectRegions c ⟨[], [], false⟩).trace := by
  unfold new
  refine trace_bind_of_silent fun r => ?_
  rw [trace_bind_of_silent fun _ => rfl, mapErr_trace]
  rfl

/-- Making a chain does nothing but walk through it. -/
lemma new_safe (h : (collectRegions c ⟨[], [], false⟩).Safe P) : (new c mem index).Safe P := by
  refine ⟨?_, ?_⟩
  · intro i hi
    rw [new_trace] at hi
    exact h.only i hi
  unfold new
  simp [bind_value_eq_panic, mapErr_value_eq_panic, h.returns,
    (Outcome.yields_iff.mp (validateMemRegions_yields _ _ _)).1]

end DescriptorChain

/-- A count below the queue's size does not wrap. -/
lemma toNat_add_one_of_lt {a b : BitVec 16} (h : a < b) : (a + 1#16).toNat = a.toNat + 1 := by
  bv_omega

end GunyahVmm.Virtio
