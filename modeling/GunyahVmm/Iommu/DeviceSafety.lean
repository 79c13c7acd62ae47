import GunyahVmm.Iommu.Device
import GunyahVmm.Iommu.Steps

/-! Requests that are answered. The counter of a domain is at least one and at most the number of
its endpoints. What remains is arithmetic on addresses. -/

namespace GunyahVmm.Iommu
open Run Run.Outcome BTreeMap List

/-! ## Mappers -/

namespace BasicMemoryMapper
variable {m : BasicMemoryMapper} {id : Nat}

lemma finish_addMap (h : WellMapped m.maps) (id : Nat) (map : MappingInfo) :
    (∃ e, finish id (m.addMap map) = .err (.memoryMapper e)) ∨
      finish id (m.addMap map) = .ok (.overlapFailure, .basic id m) ∨
      (Mappable map ∧ (∀ x ∈ m.mappings, ¬ x.Meets map.iova (map.iova + map.size)) ∧
        finish id (m.addMap map) =
          .ok (.ok, .basic id { m with maps := m.maps.insert map.iova map })) := by
  unfold finish
  by_cases hm : Mappable map
  · rcases addMap_value h hm with ⟨-, heq⟩ | ⟨hf, heq⟩
    · rw [heq]
      exact .inr (.inl rfl)
    · rw [heq]
      exact .inr (.inr ⟨hm, hf, rfl⟩)
  · obtain ⟨e, heq⟩ := addMap_refuses (m := m) hm
    rw [heq]
    exact .inl ⟨e, rfl⟩

lemma finish_removeMap (h : WellMapped m.maps) (id iovaStart size : Nat) (evtOk : Bool) :
    (∃ e, finish id (m.removeMap iovaStart size evtOk) = .err (.memoryMapper e)) ∨
      finish id (m.removeMap iovaStart size evtOk) = .ok (.overlapFailure, .basic id m) ∨
      (∃ evt st, finish id (m.removeMap iovaStart size evtOk) = .ok (.success evt,
        .basic id { m.unmapped iovaStart (iovaStart + size) with exportState := st })) ∨
      (evtOk = false ∧ finish id (m.removeMap iovaStart size evtOk) = .panic) := by
  unfold finish
  by_cases ha : 0 < size ∧ iovaStart + size < u64Size
  · obtain ⟨hs, hend⟩ := ha
    rcases removeMap_eq evtOk h hs hend with ⟨-, heq⟩ | ⟨-, heq⟩
    · rw [heq]
      exact .inr (.inl rfl)
    · rw [heq]
      have hv := @faultIfExported_value (m.unmapped iovaStart (iovaStart + size)) iovaStart size
        evtOk hs hend
      rcases hv with ⟨hevt, -, hv⟩ | ⟨evt, st, hv⟩
      · rw [hv]
        exact .inr (.inr (.inr ⟨hevt, rfl⟩))
      · rw [hv]
        exact .inr (.inr (.inl ⟨evt, st, rfl⟩))
  · obtain ⟨e, heq⟩ := removeMap_refuses m evtOk ha
    rw [heq]
    exact .inl ⟨e, rfl⟩

lemma finish_resetDomain (m : BasicMemoryMapper) (id : Nat) (evtOk : Bool) :
    (∃ evt st, finish id (m.resetDomain evtOk) =
        .ok (evt, .basic id { m with maps := .empty, exportState := st })) ∨
      (evtOk = false ∧ finish id (m.resetDomain evtOk) = .panic) := by
  obtain ⟨maps, mask, exportState, nextSession⟩ := m
  unfold finish resetDomain
  cases exportState with
  | none => exact .inl ⟨none, none, rfl⟩
  | some st =>
    dsimp only
    by_cases hemp : st.exported.isEmpty = true
    · rw [if_pos hemp]
      exact .inl ⟨none, some st, rfl⟩
    · rw [if_neg hemp]
      rcases onFault_cases st evtOk with ⟨-, hf⟩ | ⟨-, -, hf⟩ | ⟨-, hevt, hf⟩
      · rw [hf]
        exact .inl ⟨none, some st, rfl⟩
      · rw [hf]
        exact .inl ⟨_, some { st with unfaulted := false }, rfl⟩
      · rw [hf]
        exact .inr ⟨hevt, rfl⟩

end BasicMemoryMapper

def Mapper.Well : Mapper → Prop
  | .basic _ m => WellMapped m.maps
  | .vfio _ => True

section
variable {c : Prop} {mapper : Mapper} {host : HostAnswer}

lemma doMap_yields (id : Nat) : YieldsIf c (Mapper.doMap id host) (·.2.Well) := by
  unfold Mapper.doMap
  split
  all_goals exact trivial

lemma addMap_yields (h : mapper.Well) (map : MappingInfo) :
    YieldsIf c (mapper.addMap map host) (·.2.Well) := by
  cases mapper with
  | vfio id => exact doMap_yields id
  | basic id m =>
    have hw : WellMapped m.maps := h
    change YieldsIf c (finish id (m.addMap map)) _
    rcases m.finish_addMap hw id map with ⟨e, heq⟩ | heq | ⟨⟨hp, hf, hg⟩, hfr, heq⟩
    all_goals rw [heq]
    · exact yieldsIf_err
    · exact hw
    · exact (hw.insert hp hf hg (BasicMemoryMapper.forall_mappings.mp hfr)).2

lemma vfioDmaMap_yields : YieldsIf c (mapper.vfioDmaMap host) (·.2.Well) := by
  cases mapper with
  | basic id m => exact yieldsIf_err
  | vfio id => exact doMap_yields id

lemma removeMap_yields (h : mapper.Well) (hevt : c → host.evtOk = true) (iovaStart size : Nat) :
    YieldsIf c (mapper.removeMap iovaStart size host) (·.2.Well) := by
  cases mapper with
  | vfio id =>
    rw [Mapper.removeMap]
    split
    · exact yieldsIf_err
    split
    · exact trivial
    · exact yieldsIf_err
  | basic id m =>
    have hw : WellMapped m.maps := h
    change YieldsIf c (finish id (m.removeMap iovaStart size host.evtOk)) _
    rcases m.finish_removeMap hw id iovaStart size host.evtOk with
      ⟨e, heq⟩ | heq | ⟨evt, st, heq⟩ | ⟨hf, hp⟩
    · rw [heq]
      exact yieldsIf_err
    · rw [heq]
      exact hw
    · rw [heq]
      exact hw.sublist filter_sublist
    · rw [hp]
      intro hc
      rw [hevt hc] at hf
      cases hf

lemma resetDomain_yields (hevt : c → host.evtOk = true) :
    YieldsIf c (mapper.resetDomain host) (·.2.Well) := by
  cases mapper with
  | vfio id => exact trivial
  | basic id m =>
    change YieldsIf c (finish id (m.resetDomain host.evtOk)) _
    rcases m.finish_resetDomain id host.evtOk with ⟨evt, st, heq⟩ | ⟨hf, hp⟩
    · rw [heq]
      exact wellMapped_empty
    · rw [hp]
      intro hc
      rw [hevt hc] at hf
      cases hf

end

/-! ## Reference counters -/

namespace State

def attachedTo (s : State) (domain : Nat) : Nat :=
  s.endpointMap.entries.countP fun e => decide (e.2 = domain)

structure Valid (s : State) : Prop where
  pos : ∀ domain v, s.domainMap.get domain = some v → 1 ≤ v.1
  counted : ∀ domain v, s.domainMap.get domain = some v → v.1 ≤ s.attachedTo domain
  known : ∀ endpoint domain, s.endpointMap.get endpoint = some domain →
    ∃ ref, s.endpoints.get endpoint = some ref
  well : ∀ ref, (s.mappers ref).Well

/-- The parts of the state that requests do not change. -/
structure SameHost (s t : State) : Prop where
  endpoints : t.endpoints = s.endpoints
  dmabufMem : t.dmabufMem = s.dmabufMem

variable {endpoint ref : Nat}

abbrev Kept (s t : State) : Prop := t.Valid ∧ s.SameHost t

lemma SameHost.refl (s : State) : s.SameHost s := ⟨rfl, rfl⟩

lemma SameHost.trans {s t u : State} (h : s.SameHost t) (h' : t.SameHost u) : s.SameHost u :=
  ⟨h'.endpoints.trans h.endpoints, h'.dmabufMem.trans h.dmabufMem⟩

variable {s : State} {host : HostAnswer}

lemma attachedTo_remove {domain : Nat} (h : s.endpointMap.get endpoint ≠ some domain) :
    (s.endpointMap.remove endpoint).entries.countP (fun e => decide (e.2 = domain)) =
      s.attachedTo domain := by
  unfold attachedTo BTreeMap.remove
  rw [countP_filter]
  refine countP_congr fun e he => ?_
  simp only [Bool.and_eq_true, decide_eq_true_eq, and_iff_left_iff_imp]
  rintro rfl hk
  subst hk
  exact h (get_of_mem he)

lemma attachedTo_lt (h : s.Valid) (hf : s.endpointMap.get endpoint = none)
    (hr : s.endpoints.get endpoint = some ref) (domain : Nat) :
    s.attachedTo domain < s.endpoints.entries.length := by
  have hnd : (endpoint :: s.endpointMap.entries.map Prod.fst).Nodup := by
    refine nodup_cons.mpr ⟨fun hm => ?_, s.endpointMap.nodup_keys⟩
    obtain ⟨e, he, hk⟩ := mem_map.mp hm
    exact get_eq_none.mp hf e he hk
  have hs : endpoint :: s.endpointMap.entries.map Prod.fst ⊆
      s.endpoints.entries.map Prod.fst := by
    intro key hk
    rcases mem_cons.mp hk with rfl | hk
    · exact mem_map.mpr ⟨_, mem_of_get hr, rfl⟩
    obtain ⟨e, he, rfl⟩ := mem_map.mp hk
    obtain ⟨ref', hr'⟩ := h.known e.1 e.2 (get_of_mem he)
    exact mem_map.mpr ⟨_, mem_of_get hr', rfl⟩
  have hl := (subperm_of_subset hnd hs).length_le
  rw [length_cons, length_map, length_map] at hl
  exact Nat.lt_of_le_of_lt countP_le_length hl

/-! ## Steps -/

variable {c : Prop}
section
variable (h : s.Valid)
include h

lemma Valid.setMapper {mapper : Mapper} (hw : mapper.Well) :
    (s.setMapper ref mapper).Valid where
  pos := h.pos
  counted := h.counted
  known := h.known
  well r := by
    unfold State.setMapper
    dsimp only
    split
    · exact hw
    · exact h.well r

lemma Valid.leave {domainMap : BTreeMap Nat (Nat × Nat)}
    (hd : ∀ domain v, domainMap.get domain = some v → s.domainMap.get domain = some v ∧
      s.endpointMap.get endpoint ≠ some domain) :
    ({ s with endpointMap := s.endpointMap.remove endpoint, domainMap } : State).Valid where
  pos domain v hv := h.pos domain v (hd domain v hv).1
  counted domain v hv := by
    obtain ⟨ho, hoth⟩ := hd domain v hv
    refine (h.counted domain v ho).trans (Nat.le_of_eq ?_)
    exact (attachedTo_remove hoth).symm
  known e domain he := by
    exact h.known e domain (get_remove_eq_some.mp he).2
  well := h.well

lemma detachEndpoint_yields (hevt : c → host.evtOk = true) (endpoint : Nat) :
    YieldsIf c (s.detachEndpoint endpoint host) fun r =>
      r.2.Valid ∧ s.SameHost r.2 ∧ (r.1.1 = true → r.2.endpointMap.get endpoint = none) := by
  have hg : (s.endpointMap.remove endpoint).get endpoint = none := by
    rw [get_remove, if_pos rfl]
  unfold detachEndpoint
  cases ha : s.endpointMap.get endpoint with
  | none =>
    refine ⟨h.leave fun domain v hv => ⟨hv, ?_⟩, ⟨rfl, rfl⟩, fun _ => hg⟩
    rw [ha]
    simp
  | some attached =>
    dsimp only
    cases hent : s.domainMap.get attached with
    | none =>
      refine ⟨h.leave fun domain v hv => ⟨hv, ?_⟩, ⟨rfl, rfl⟩, fun _ => hg⟩
      rw [ha]
      rintro ⟨⟩
      rw [hent] at hv
      cases hv
    | some v =>
      dsimp only
      split
      · exact ⟨h, .refl s, fun hf => by cases hf⟩
      have hp := h.pos attached v hent
      rw [if_neg (by omega)]
      split
      · refine (resetDomain_yields hevt).bind fun r hr => ?_
        refine ⟨Valid.setMapper (h.leave fun domain w hw => ?_) hr, ⟨rfl, rfl⟩, fun _ => hg⟩
        obtain ⟨hne, hw⟩ := get_remove_eq_some.mp hw
        rw [ha]
        exact ⟨hw, fun heq => hne (Option.some.inj heq).symm⟩
      · exact ⟨h, .refl s, fun hf => by cases hf⟩

lemma enterDomain_yields (hf : s.endpointMap.get endpoint = none)
    (hr : s.endpoints.get endpoint = some ref) (hl : c → s.endpoints.entries.length < u32Size)
    (domain : Nat) (event : Option Nat) :
    YieldsIf c (s.enterDomain endpoint domain ref event) (s.Kept ·.2) := by
  have hlt := attachedTo_lt h hf hr domain
  have hn : YieldsIf c (s.newRef domain) fun newRef =>
      1 ≤ newRef ∧ newRef ≤ s.attachedTo domain + 1 := by
    unfold newRef
    cases hent : s.domainMap.get domain with
    | none => exact ⟨Nat.le_refl _, Nat.le_add_left _ _⟩
    | some v =>
      have hcnt := h.counted domain v hent
      refine (addIn_yieldsIf fun hc => ?_).mono ?_
      · have hft := hl hc
        omega
      · rintro newRef rfl
        exact ⟨Nat.le_add_left _ _, Nat.succ_le_succ hcnt⟩
  refine hn.bind fun newRef hb => ⟨?_, ⟨rfl, rfl⟩⟩
  -- one more endpoint in its domain, as many as before in the others
  have hcn (d : Nat) : (s.endpointMap.insert endpoint domain).entries.countP
      (fun e => decide (e.2 = d)) = s.attachedTo d + if domain = d then 1 else 0 := by
    rw [(perm_insert domain hf).countP_eq, countP_cons]
    simp [attachedTo]
  refine ⟨?_, ?_, ?_, h.well⟩
  · intro d v hv
    rcases get_insert_eq_some.mp hv with ⟨-, rfl⟩ | ⟨-, hv⟩
    · exact hb.1
    · exact h.pos d v hv
  · intro d v hv
    change v.1 ≤ (s.endpointMap.insert endpoint domain).entries.countP _
    rw [hcn]
    rcases get_insert_eq_some.mp hv with ⟨rfl, rfl⟩ | ⟨-, hv⟩
    · rw [if_pos rfl]
      exact hb.2
    · exact (h.counted d v hv).trans (Nat.le_add_right _ _)
  · intro e d he
    rcases get_insert_eq_some.mp he with ⟨rfl, -⟩ | ⟨-, he⟩
    · exact ⟨ref, hr⟩
    · exact h.known e d he

lemma processAttachRequest_yields (hevt : c → host.evtOk = true)
    (hl : c → s.endpoints.entries.length < u32Size) (req : AttachReq) :
    YieldsIf c (s.processAttachRequest req host) (s.Kept ·.2) := by
  unfold processAttachRequest
  split
  · exact ⟨h, .refl s⟩
  dsimp only
  cases href : s.endpoints.get req.endpoint.toNat with
  | none => exact ⟨h, .refl s⟩
  | some ref =>
    dsimp only
    split
    · exact ⟨h, .refl s⟩
    split
    · refine (detachEndpoint_yields h hevt _).bind fun r hr => ?_
      obtain ⟨hv, hs, hg⟩ := hr
      split
      · rename_i hd
        rw [← hs.endpoints] at href hl
        refine (enterDomain_yields hv (hg hd) href hl _ _).mono fun r hr => ?_
        exact ⟨hr.1, hs.trans hr.2⟩
      · exact ⟨hv, hs⟩
    · rename_i hc
      have hf := contains_eq_false_iff.mp (Bool.eq_false_iff.mpr hc)
      exact enterDomain_yields h hf href hl _ _

lemma processDetachRequest_yields (hevt : c → host.evtOk = true) (req : DetachReq) :
    YieldsIf c (s.processDetachRequest req host) (s.Kept ·.2) := by
  unfold processDetachRequest
  split
  · refine (detachEndpoint_yields h hevt _).bind fun r hr => ?_
    exact ⟨hr.1, hr.2.1⟩
  · exact ⟨h, .refl s⟩

end

/-- The dma-bufs lie inside the 64-bit range, in the guest and in the host. -/
def DmabufsFit (dmabufMem : BTreeMap Nat DmabufRegionEntry) : Prop :=
  ∀ e ∈ dmabufMem.entries, e.1 + e.2.size < u64Size ∧ e.2.mmap + e.2.size < u64Size

lemma dmabufMap_yields (hf : c → DmabufsFit s.dmabufMem) {gpa size : Nat}
    (h : c → ∀ e ∈ s.dmabufMem.entries, e.1 ≤ gpa → gpa + size < u64Size) :
    YieldsIf c (s.dmabufMap gpa size) fun _ => True := by
  unfold dmabufMap
  split
  · exact trivial
  rename_i baseGpa region hl
  obtain ⟨hmem, hle⟩ := mem_below.mp (mem_of_getLast? hl)
  refine (addIn_yieldsIf fun hc => h hc _ hmem (Nat.le_of_lt_succ hle)).bind fun stop hs => ?_
  refine (addIn_yieldsIf fun hc => (hf hc _ hmem).1).bind fun regionStop hr => ?_
  split
  · rename_i hi
    refine (addIn_yieldsIf fun hc => ?_).bind fun address _ => trivial
    obtain ⟨-, hm⟩ := hf hc _ hmem
    dsimp only at hle hm hr
    omega
  · exact trivial

lemma mapPages_yields (h : s.Valid) (hf : c → DmabufsFit s.dmabufMem) (req : MapReq)
    (hreq : c → ∀ e ∈ s.dmabufMem.entries, e.1 ≤ req.physStart.toNat →
      req.physStart.toNat + (req.virtEnd.toNat - req.virtStart.toNat + 1) < u64Size) (ref : Nat) :
    YieldsIf c (s.mapPages req ref host) (s.Kept ·.2) := by
  unfold mapPages
  cases hs : checkedAdd (req.virtEnd.toNat - req.virtStart.toNat) 1 with
  | none => exact ⟨h, .refl s⟩
  | some size =>
    obtain ⟨-, rfl⟩ := checkedAdd_eq_some.mp hs
    refine (dmabufMap_yields hf hreq).bind fun dmabuf _ => ?_
    have hm : YieldsIf c (mapInto (s.mappers ref)
        (req.mapping (req.virtEnd.toNat - req.virtStart.toNat + 1)) dmabuf host) (·.2.Well) := by
      cases dmabuf with
      | none => exact addMap_yields (h.well ref) _
      | some address => exact vfioDmaMap_yields
    refine hm.bind fun r hr => ?_
    exact ⟨h.setMapper hr, rfl, rfl⟩

end State

/-! ## Requests -/

/-- The arithmetic on the addresses of a request stays inside the 64-bit range. -/
def Request.Fits (dmabufMem : BTreeMap Nat DmabufRegionEntry) : Request → Prop
  | .attach _ => True
  | .detach _ => True
  | .map req => req.virtEnd.toNat + 1 < u64Size ∧
    ∀ e ∈ dmabufMem.entries, e.1 ≤ req.physStart.toNat →
      req.physStart.toNat + (req.virtEnd.toNat - req.virtStart.toNat + 1) < u64Size
  | .unmap req => req.virtStart.toNat ≤ req.virtEnd.toNat ∧
    req.virtEnd.toNat - req.virtStart.toNat + 1 < u64Size

namespace State
variable {c : Prop} {s : State} {host : HostAnswer}

lemma processDmaMapRequest_yields (h : s.Valid) (hf : c → DmabufsFit s.dmabufMem) (req : MapReq)
    (hr : c → (Request.map req).Fits s.dmabufMem) :
    YieldsIf c (s.processDmaMapRequest req host) (s.Kept ·.2) := by
  unfold processDmaMapRequest
  split
  · exact ⟨h, .refl s⟩
  split
  · exact ⟨h, .refl s⟩
  refine (addIn_yieldsIf fun hc => (hr hc).1).bind fun next _ => ?_
  split
  · exact ⟨h, .refl s⟩
  split
  · exact ⟨h, .refl s⟩
  split
  · exact ⟨h, .refl s⟩
  · exact mapPages_yields h hf req (fun hc => (hr hc).2) _

lemma processDmaUnmapRequest_yields (h : s.Valid) (hevt : c → host.evtOk = true) (req : UnmapReq)
    (hreq : c → (Request.unmap req).Fits s.dmabufMem) :
    YieldsIf c (s.processDmaUnmapRequest req host) (s.Kept ·.2) := by
  unfold processDmaUnmapRequest
  split
  · exact ⟨h, .refl s⟩
  rename_i ref _
  refine (subU64_yieldsIf fun hc => (hreq hc).1).bind fun distance hd => ?_
  refine (addIn_yieldsIf fun hc => ?_).bind fun size _ => ?_
  · rw [hd]
    exact (hreq hc).2
  refine (removeMap_yields (h.well ref) hevt _ _).bind fun r hr => ?_
  obtain ⟨result, mapper⟩ := r
  cases result with
  | success | overlapFailure => exact ⟨h.setMapper hr, rfl, rfl⟩

lemma process_yields (h : s.Valid) (hevt : c → host.evtOk = true)
    (hl : c → s.endpoints.entries.length < u32Size) (hf : c → DmabufsFit s.dmabufMem)
    (r : Request) (hr : c → r.Fits s.dmabufMem) :
    YieldsIf c (s.process host r) (s.Kept ·.2) := by
  cases r with
  | attach req => exact processAttachRequest_yields h hevt hl req
  | detach req => exact processDetachRequest_yields h hevt req
  | map req => exact processDmaMapRequest_yields h hf req hr
  | unmap req => exact processDmaUnmapRequest_yields h hevt req hr

/-! ## Commands -/

lemma handleDelVfioDevice_valid (h : s.Valid) (pciAddress : Nat) :
    (s.handleDelVfioDevice pciAddress).2.Valid := by
  have hl : ∀ domainMap, (∀ domain v, domainMap.get domain = some v →
      s.domainMap.get domain = some v ∧ s.endpointMap.get pciAddress ≠ some domain) →
      ({ s with endpoints := s.endpoints.remove pciAddress,
                endpointMap := s.endpointMap.remove pciAddress, domainMap } : State).Valid := by
    intro domainMap hd
    obtain ⟨hp, hc, -, hw⟩ := h.leave hd
    refine ⟨hp, hc, fun endpoint domain ha => ?_, hw⟩
    obtain ⟨hne, ho⟩ := get_remove_eq_some.mp ha
    obtain ⟨ref, hr⟩ := h.known endpoint domain ho
    exact ⟨ref, get_remove_eq_some.mpr ⟨hne, hr⟩⟩
  unfold handleDelVfioDevice
  split
  · cases ha : s.endpointMap.get pciAddress with
    | none =>
      refine hl s.domainMap fun domain v hv => ⟨hv, ?_⟩
      rw [ha]
      simp
    | some attached =>
      refine hl (s.domainMap.remove attached) fun domain v hv => ?_
      obtain ⟨hne, hv⟩ := get_remove_eq_some.mp hv
      rw [ha]
      exact ⟨hv, fun heq => hne (Option.some.inj heq).symm⟩
  · exact h

lemma handleVfio_valid (h : s.Valid) (command : VfioCommand) :
    (s.handleVfio command).2.Valid := by
  cases command with
  | deviceAdd wrapperId endpointAddr =>
    change (s.handleAddVfioDevice _ _).2.Valid
    unfold handleAddVfioDevice
    split
    · have hw : (Mapper.vfio wrapperId.toNat).Well := trivial
      have hv : ({ s with endpoints := s.endpoints.insert endpointAddr.toNat s.nextMapper,
                              nextMapper := s.nextMapper + 1 } : State).Valid := by
        refine ⟨h.pos, h.counted, fun endpoint domain ha => ?_, h.well⟩
        rw [get_insert]
        split
        · exact ⟨_, rfl⟩
        · exact h.known endpoint domain ha
      exact hv.setMapper hw
    · exact h
  | deviceDel endpointAddr => exact handleDelVfioDevice_valid h _
  | dmabufMap regionId gpa size mmap =>
    change (s.handleMapDmabuf _ _ _ _).2.Valid
    unfold handleMapDmabuf
    split
    · exact h
    split
    · exact h
    · exact ⟨h.pos, h.counted, h.known, h.well⟩
  | dmabufUnmap regionId =>
    change (s.handleUnmapDmabuf _).2.Valid
    unfold handleUnmapDmabuf
    split
    · exact ⟨h.pos, h.counted, h.known, h.well⟩
    · exact h

/-! ## Runs -/

/-- The states after requests, commands of the host, and calls of the devices behind endpoints. -/
inductive Reachable : State → Prop
  | new (pageMask : BitVec 64) (hpEndpointsRanges : List (Nat × Nat)) (endpoints : BTreeMap Nat Nat)
      (mappers : Nat → Mapper) (nextMapper : Nat) (hwell : ∀ ref, (mappers ref).Well) :
      Reachable (State.new pageMask hpEndpointsRanges endpoints mappers nextMapper)
  | request {s s' : State} {host : HostAnswer} {r : Request} {answer : Answer} (h : Reachable s)
      (hstep : s.process host r = .ok (answer, s')) : Reachable s'
  | command {s : State} (h : Reachable s) (command : VfioCommand) :
      Reachable (s.handleVfio command).2
  | client {s : State} {ref id : Nat} {m m' : BasicMemoryMapper} {op : MapperOp} (h : Reachable s)
      (hmapper : s.mappers ref = .basic id m) (hstep : (m.step op).value = .ok m') :
      Reachable (s.setMapper ref (.basic id m'))

lemma Reachable.valid (h : Reachable s) : s.Valid := by
  induction h with
  | new _ _ endpoints mappers nextMapper hw =>
    refine ⟨?_, ?_, ?_, hw⟩
    · intro domain v hv
      cases hv
    · intro domain v hv
      cases hv
    · intro endpoint domain ha
      cases ha
  | @request s s' host r answer _ hs ih =>
    -- what a request leaves if it is answered, whether or not it might have aborted
    have hy : YieldsIf False (s.process host r) (s.Kept ·.2) :=
      process_yields ih False.elim False.elim False.elim r False.elim
    exact ((yieldsIf_iff.mp hy).2 _ hs).1
  | command _ command ih => exact handleVfio_valid ih command
  | @client s ref id m m' op _ hm hs ih =>
    have hw := ih.well ref
    rw [hm] at hw
    exact ih.setMapper ((BasicMemoryMapper.step_effect hw hs).wellMapped hw)

/-- A request with what the host answers to it. A failing request leaves the device as it was. -/
def step (s : State) (op : HostAnswer × Request) : Option State :=
  match s.process op.1 op.2 with
  | .ok (_, s') => some s'
  | .err _ => some s
  | .panic => none

/-- Requests whose addresses stay inside the 64-bit range do not abort the device, if the events of
its mappers can be written. -/
theorem requests_answered (h : Reachable s) (hlen : s.endpoints.entries.length < u32Size)
    (hfit : DmabufsFit s.dmabufMem) (ops : List (HostAnswer × Request))
    (hops : ∀ op ∈ ops, op.1.evtOk = true ∧ op.2.Fits s.dmabufMem) :
    ∃ t, run step ops s = some t := by
  have hst : ∀ t, ∀ op ∈ ops, s.Kept t → ∃ t', step t op = some t' ∧ s.Kept t' := by
    rintro t op hop ⟨hv, hs⟩
    obtain ⟨hevt, hf⟩ := hops op hop
    rw [← hs.dmabufMem] at hfit hf
    rw [← hs.endpoints] at hlen
    have hy : YieldsIf True (t.process op.1 op.2) (t.Kept ·.2) :=
      process_yields hv (fun _ => hevt) (fun _ => hlen) (fun _ => hfit) op.2 fun _ => hf
    unfold step
    cases heq : t.process op.1 op.2 with
    | ok r =>
      obtain ⟨hv', hs'⟩ := (yieldsIf_iff.mp hy).2 r heq
      exact ⟨r.2, rfl, hv', hs.trans hs'⟩
    | err e => exact ⟨t, rfl, hv, hs⟩
    | panic => exact absurd heq ((yieldsIf_iff.mp hy).1 trivial)
  obtain ⟨t, hr, -⟩ := run_completes _ (fun _ => s.Kept) _
    (fun _ => hst) [] s ⟨h.valid, .refl s⟩
  exact ⟨t, hr⟩

/-- A device with one endpoint, which has a mapper of its own. -/
def oneEndpoint : State :=
  .new 0xfff [] (BTreeMap.empty.insert 1 0) (fun _ => .basic 0 (.new (2 ^ 64 - 1))) 1

lemma oneEndpoint_reachable : Reachable oneEndpoint := .new _ _ _ _ _ fun _ => wellMapped_empty

/-- The host has no fault to tell of and VFIO is not used. -/
def plainHost : HostAnswer := ⟨true, none, false⟩

theorem requests_answered_map_unmap :
    ∃ t, run step [(plainHost, .attach ⟨7, 1, List.replicate 8 0⟩),
        (plainHost, .map ⟨7, 0, 0xfff, 0x1000, 3⟩), (plainHost, .unmap ⟨7, 0, 0xfff⟩),
        (plainHost, .detach ⟨1⟩)] oneEndpoint = some t := by
  have hn : ∀ e, e ∉ oneEndpoint.dmabufMem.entries := fun _ => not_mem_nil
  refine requests_answered oneEndpoint_reachable (by decide) (fun e he => absurd he (hn e)) _ ?_
  intro op hop
  simp only [mem_cons, not_mem_nil, or_false] at hop
  rcases hop with rfl | rfl | rfl | rfl
  · exact ⟨rfl, trivial⟩
  · exact ⟨rfl, by decide, fun e he => absurd he (hn e)⟩
  · exact ⟨rfl, by decide, by decide⟩
  · exact ⟨rfl, trivial⟩

/-- The end of the address space is one past what the arithmetic can hold, the range to unmap is not
checked for its order, and guest memory above a dma-buf may end outside the address space. -/
theorem addresses_abort :
    Reachable oneEndpoint ∧
      run step [(plainHost, .map ⟨7, 0, 0xffffffffffffffff, 0, 3⟩)] oneEndpoint = none ∧
      run step [(plainHost, .attach ⟨7, 1, List.replicate 8 0⟩), (plainHost, .unmap ⟨7, 0x1000, 0⟩)]
        oneEndpoint = none ∧
      run step [(plainHost, .attach ⟨7, 1, List.replicate 8 0⟩),
        (plainHost, .unmap ⟨7, 0, 0xffffffffffffffff⟩)] oneEndpoint = none ∧
      run step [(plainHost, .attach ⟨7, 1, List.replicate 8 0⟩),
          (plainHost, .map ⟨7, 0, 0x1fff, 0xfffffffffffff000, 3⟩)]
        (oneEndpoint.handleVfio (.dmabufMap 0 0 0x1000 (some 0))).2 = none :=
  ⟨oneEndpoint_reachable, rfl, rfl, rfl, rfl⟩

end State

end GunyahVmm.Iommu
