import GunyahVmm.Iommu.DeviceSafety

/-! Isolation of endpoints, against a ledger of successful requests, as long as no two share a
domain: its mapper is that of the endpoint that came last. -/

namespace GunyahVmm.Iommu
open Run Run.Outcome BTreeMap BasicMemoryMapper

/-! ## Ledger -/

/-- What successful requests ask for: the domains of endpoints, and the mappings of domains. -/
structure Ledger where
  attached : List (Nat × Nat)
  mapped : List (Nat × MappingInfo)

namespace Ledger
variable (l : Ledger)

def empty : Ledger := ⟨[], []⟩

def leave (endpoint : Nat) : Ledger :=
  { l with attached := l.attached.filter fun p => p.1 != endpoint }

/-- An endpoint enters a domain. The first one finds the domain new and empty. -/
def enter (endpoint domain : Nat) : Ledger where
  attached := (endpoint, domain) :: l.attached
  mapped :=
    if l.attached.any fun p => p.2 == domain then l.mapped
    else l.mapped.filter fun p => p.1 != domain

/-- The ledger after a successful request. An endpoint leaves its domain before it enters
another. -/
def after : Request → Ledger
  | .attach req => (l.leave req.endpoint.toNat).enter req.endpoint.toNat req.domain.toNat
  | .detach req => l.leave req.endpoint.toNat
  | .map req =>
    { l with mapped := (req.domain.toNat,
        req.mapping (req.virtEnd.toNat - req.virtStart.toNat + 1)) :: l.mapped }
  | .unmap req =>
    { l with mapped := l.mapped.filter fun p =>
        !(p.1 == req.domain.toNat &&
          decide (p.2.Within req.virtStart.toNat (req.virtEnd.toNat + 1))) }

def record (ops : List (HostAnswer × Request)) : Ledger := (ops.map Prod.snd).foldl after empty

def Permits : Request → Prop
  | .attach req => ∀ p ∈ l.attached, p.2 = req.domain.toNat → p.1 = req.endpoint.toNat
  | _ => True

/-- No two endpoints share a domain at any time. -/
def Apart : Ledger → List Request → Prop
  | _, [] => True
  | l, r :: rest => l.Permits r ∧ (l.after r).Apart rest

instance (r : Request) : Decidable (l.Permits r) :=
  match r with
  | .attach req => inferInstanceAs
      (Decidable (∀ p ∈ l.attached, p.2 = req.domain.toNat → p.1 = req.endpoint.toNat))
  | .detach _ => .isTrue trivial
  | .map _ => .isTrue trivial
  | .unmap _ => .isTrue trivial

instance decidableApart : (l : Ledger) → (rs : List Request) → Decidable (l.Apart rs)
  | _, [] => .isTrue trivial
  | l, r :: rest =>
    have := decidableApart (l.after r) rest
    inferInstanceAs (Decidable (l.Permits r ∧ (l.after r).Apart rest))

variable {l} {endpoint : Nat}

lemma mem_leave {p : Nat × Nat} :
    p ∈ (l.leave endpoint).attached ↔ p ∈ l.attached ∧ p.1 ≠ endpoint := by
  simp [leave]

lemma enter_mapped {domain : Nat} (h : ∀ p ∈ l.attached, p.2 ≠ domain) :
    (l.enter endpoint domain).mapped = l.mapped.filter fun p => p.1 != domain := by
  have hn : (l.attached.any fun p => p.2 == domain) = false := by
    rw [List.any_eq_false]
    intro p hp
    simpa using h p hp
  unfold enter
  rw [hn]
  rfl

end Ledger

/-! ## The invariant -/

/-- The mappings of a mapper are those of the domain of its endpoint, and none without a domain. -/
def Mapper.Holds (mapper : Mapper) (domain : Option Nat) (mapped : List (Nat × MappingInfo)) :
    Prop :=
  ∃ id m, mapper = .basic id m ∧ WellMapped m.maps ∧
    ∀ x, x ∈ m.mappings ↔ ∃ d, domain = some d ∧ (d, x) ∈ mapped

namespace State

/-- The state of the device is the one that the ledger tells. -/
structure Follows (s : State) (endpoints : BTreeMap Nat Nat) (l : Ledger) : Prop where
  same : s.endpoints = endpoints
  attached : ∀ endpoint domain,
    s.endpointMap.get endpoint = some domain ↔ (endpoint, domain) ∈ l.attached
  apart : ∀ e e' domain, s.endpointMap.get e = some domain → s.endpointMap.get e' = some domain →
    e = e'
  own : ∀ e e' ref, s.endpoints.get e = some ref → s.endpoints.get e' = some ref → e = e'
  counted : ∀ endpoint domain, s.endpointMap.get endpoint = some domain →
    ∃ ref, s.endpoints.get endpoint = some ref ∧ s.domainMap.get domain = some (1, ref)
  entered : ∀ domain v, s.domainMap.get domain = some v →
    ∃ endpoint, s.endpointMap.get endpoint = some domain
  holds : ∀ endpoint ref, s.endpoints.get endpoint = some ref →
    (s.mappers ref).Holds (s.endpointMap.get endpoint) l.mapped

variable {s s' : State} {endpoints : BTreeMap Nat Nat} {l : Ledger} {host : HostAnswer}
  {endpoint domain ref : Nat}

variable {m : BasicMemoryMapper} {op : HostAnswer × Request}
section
variable (h : s.Follows endpoints l) {v : Nat × Nat}
include h

lemma Follows.endpoint_of_domain (hv : s.domainMap.get domain = some v) :
    ∃ endpoint, s.endpointMap.get endpoint = some domain ∧
      s.endpoints.get endpoint = some v.2 ∧ v.1 = 1 := by
  obtain ⟨endpoint, ha⟩ := h.entered domain v hv
  obtain ⟨ref, hr, hent⟩ := h.counted endpoint domain ha
  rw [hv] at hent
  cases hent
  exact ⟨endpoint, ha, hr, rfl⟩

/-! ## Detaching -/

lemma Follows.leave_free (hf : s.endpointMap.get endpoint = none) :
    s.Follows endpoints (l.leave endpoint) := by
  refine ⟨h.same, fun e d => ?_, h.apart, h.own, h.counted, h.entered, h.holds⟩
  rw [h.attached, Ledger.mem_leave, iff_self_and]
  rintro hm rfl
  rw [(h.attached e d).mpr hm] at hf
  cases hf

lemma Follows.leave (ha : s.endpointMap.get endpoint = some domain)
    (href : s.endpoints.get endpoint = some ref) (id : Nat) (hemp : m.maps = .empty) :
    ({ s with endpointMap := s.endpointMap.remove endpoint,
              domainMap := s.domainMap.remove domain }.setMapper ref (.basic id m)).Follows
      endpoints (l.leave endpoint) where
  same := h.same
  attached e d := by
    change (s.endpointMap.remove endpoint).get e = some d ↔ _
    rw [get_remove_eq_some, Ledger.mem_leave, h.attached, and_comm]
  apart e e' d he he' := h.apart e e' d (get_remove_eq_some.mp he).2 (get_remove_eq_some.mp he').2
  own := h.own
  counted e d he := by
    obtain ⟨hne, ho⟩ := get_remove_eq_some.mp he
    obtain ⟨r, hr, hent⟩ := h.counted e d ho
    refine ⟨r, hr, get_remove_eq_some.mpr ⟨?_, hent⟩⟩
    rintro rfl
    exact hne (h.apart e endpoint d ho ha)
  entered d v hv := by
    obtain ⟨hne, hv⟩ := get_remove_eq_some.mp hv
    obtain ⟨e, he⟩ := h.entered d v hv
    refine ⟨e, get_remove_eq_some.mpr ⟨?_, he⟩⟩
    rintro rfl
    exact hne (Option.some.inj (he.symm.trans ha))
  holds e r he := by
    change Mapper.Holds (if r = ref then .basic id m else s.mappers r)
      ((s.endpointMap.remove endpoint).get e) l.mapped
    rw [get_remove]
    by_cases hr : r = ref
    · subst hr
      obtain rfl := h.own e endpoint r he href
      rw [if_pos rfl, if_pos rfl]
      refine ⟨id, m, rfl, ?_, fun x => ?_⟩
      · rw [hemp]
        exact wellMapped_empty
      · rw [mappings, hemp]
        simp [BTreeMap.empty]
    · rw [if_neg hr, if_neg]
      · exact h.holds e r he
      · rintro rfl
        exact hr (Option.some.inj (he.symm.trans href))

lemma detachEndpoint_follows : YieldsIf False (s.detachEndpoint endpoint host) fun r =>
    r.1.1 = true ∧ r.2.Follows endpoints (l.leave endpoint) ∧
      r.2.endpointMap.get endpoint = none := by
  have hg : (s.endpointMap.remove endpoint).get endpoint = none := by
    rw [get_remove, if_pos rfl]
  unfold detachEndpoint
  cases hatt : s.endpointMap.get endpoint with
  | none =>
    refine ⟨rfl, ?_, hg⟩
    have hget : ∀ e, (s.endpointMap.remove endpoint).get e = s.endpointMap.get e := by
      intro e
      rw [get_remove]
      split
      · rename_i he
        rw [he, hatt]
      · rfl
    obtain ⟨hs, hl, ha, ho, hc, hen, hh⟩ := h.leave_free hatt
    simp only [← hget] at hl ha hc hen hh
    exact ⟨hs, hl, ha, ho, hc, hen, hh⟩
  | some attached =>
    obtain ⟨ref, hr, hent⟩ := h.counted endpoint attached hatt
    obtain ⟨id, m, hm, -, -⟩ := h.holds endpoint ref hr
    dsimp only
    rw [hent]
    dsimp only
    rw [hm, if_neg (by simp [Mapper.supportsDetach]), if_neg (by decide), if_pos rfl,
      Mapper.resetDomain]
    rcases m.finish_resetDomain id host.evtOk with ⟨evt, st, heq⟩ | ⟨-, heq⟩
    all_goals rw [heq]
    · exact ⟨rfl, h.leave hatt hr id rfl, hg⟩
    · exact not_false

/-! ## Attaching -/

lemma enterDomain_follows (hf : s.endpointMap.get endpoint = none)
    (href : s.endpoints.get endpoint = some ref) (hnew : ∀ p ∈ l.attached, p.2 ≠ domain)
    {event : Option Nat} :
    YieldsIf False (s.enterDomain endpoint domain ref event)
      (·.2.Follows endpoints (l.enter endpoint domain)) := by
  have hnob : ∀ e, s.endpointMap.get e ≠ some domain := by
    intro e he
    exact hnew (e, domain) ((h.attached e domain).mp he) rfl
  have hn : s.domainMap.get domain = none := by
    cases hg : s.domainMap.get domain with
    | none => rfl
    | some v =>
      obtain ⟨e, he⟩ := h.entered domain v hg
      exact absurd he (hnob e)
  unfold enterDomain newRef
  rw [hn]
  refine ⟨h.same, fun e d => ?_, fun e e' d => ?_, h.own, fun e d => ?_, fun d v => ?_,
    fun e r he => ?_⟩
  · change (s.endpointMap.insert endpoint domain).get e = some d ↔
      (e, d) ∈ (endpoint, domain) :: l.attached
    rw [get_insert, List.mem_cons, ← h.attached]
    by_cases he : e = endpoint
    · subst he
      simp [hf, eq_comm]
    · simp [he]
  · intro he he'
    rcases get_insert_eq_some.mp he with ⟨rfl, rfl⟩ | ⟨-, he⟩
    · rcases get_insert_eq_some.mp he' with ⟨rfl, -⟩ | ⟨-, he'⟩
      · rfl
      · exact absurd he' (hnob e')
    · rcases get_insert_eq_some.mp he' with ⟨-, rfl⟩ | ⟨-, he'⟩
      · exact absurd he (hnob e)
      · exact h.apart e e' d he he'
  · intro he
    rcases get_insert_eq_some.mp he with ⟨rfl, rfl⟩ | ⟨-, ho⟩
    · exact ⟨ref, href, get_insert_eq_some.mpr (.inl ⟨rfl, rfl⟩)⟩
    · obtain ⟨r, hr, hent⟩ := h.counted e d ho
      refine ⟨r, hr, get_insert_eq_some.mpr (.inr ⟨?_, hent⟩)⟩
      rintro rfl
      exact hnob e ho
  · intro hv
    rcases get_insert_eq_some.mp hv with ⟨rfl, -⟩ | ⟨-, hv⟩
    · exact ⟨endpoint, get_insert_eq_some.mpr (.inl ⟨rfl, rfl⟩)⟩
    · obtain ⟨e, he⟩ := h.entered d v hv
      refine ⟨e, get_insert_eq_some.mpr (.inr ⟨?_, he⟩)⟩
      rintro rfl
      rw [hf] at he
      cases he
  · change Mapper.Holds (s.mappers r) ((s.endpointMap.insert endpoint domain).get e)
      (l.enter endpoint domain).mapped
    obtain ⟨id, m, hm, hw, hh⟩ := h.holds e r he
    refine ⟨id, m, hm, hw, fun x => ?_⟩
    rw [hh, get_insert, Ledger.enter_mapped hnew]
    by_cases heq : e = endpoint
    · subst heq
      simp [hf]
    · rw [if_neg heq]
      refine exists_congr fun d => and_congr_right fun hd => ?_
      have hne : d ≠ domain := by
        rintro rfl
        exact hnob e hd
      simp [hne]

lemma processAttachRequest_follows {req : AttachReq} (hpr : l.Permits (.attach req)) :
    YieldsIf False (s.processAttachRequest req host) fun r =>
      r.1.status = .ok → r.2.Follows endpoints (l.after (.attach req)) := by
  have hn : ∀ p ∈ (l.leave req.endpoint.toNat).attached, p.2 ≠ req.domain.toNat := by
    intro p hp heq
    obtain ⟨hm, hne⟩ := Ledger.mem_leave.mp hp
    exact hne (hpr p hm heq)
  unfold processAttachRequest
  split
  · exact nofun
  dsimp only
  cases href : s.endpoints.get req.endpoint.toNat with
  | none => exact nofun
  | some ref =>
    dsimp only
    split
    · exact nofun
    split
    · refine (detachEndpoint_follows h).bind ?_
      rintro r ⟨hd, hfol, hf⟩
      rw [h.same, ← hfol.same] at href
      rw [if_pos hd]
      exact (enterDomain_follows hfol hf href hn).mono fun _ hr _ => hr
    · rename_i hc
      have hf := contains_eq_false_iff.mp (Bool.eq_false_iff.mpr hc)
      exact (enterDomain_follows (h.leave_free hf) hf href hn).mono fun _ hr _ => hr

lemma processDetachRequest_follows {req : DetachReq} :
    YieldsIf False (s.processDetachRequest req host) fun r =>
      r.1.status = .ok → r.2.Follows endpoints (l.after (.detach req)) := by
  unfold processDetachRequest
  split
  · exact (detachEndpoint_follows h).bind fun r hr _ => hr.2.1
  · exact nofun

/-! ## Mapping -/

lemma Follows.remap (ha : s.endpointMap.get endpoint = some domain)
    (href : s.endpoints.get endpoint = some ref) (id : Nat) (hw : WellMapped m.maps)
    {mapped : List (Nat × MappingInfo)} (hm : ∀ x, x ∈ m.mappings ↔ (domain, x) ∈ mapped)
    (ho : ∀ d x, d ≠ domain → ((d, x) ∈ mapped ↔ (d, x) ∈ l.mapped)) :
    (s.setMapper ref (.basic id m)).Follows endpoints { l with mapped } := by
  refine ⟨h.same, h.attached, h.apart, h.own, h.counted, h.entered, fun e r he => ?_⟩
  change Mapper.Holds (if r = ref then .basic id m else s.mappers r) (s.endpointMap.get e) mapped
  by_cases hr : r = ref
  · subst hr
    obtain rfl := h.own e endpoint r he href
    rw [if_pos rfl, ha]
    refine ⟨id, m, rfl, hw, fun x => ?_⟩
    rw [hm]
    simp
  · rw [if_neg hr]
    obtain ⟨id', m', hmap, hw', hh⟩ := h.holds e r he
    refine ⟨id', m', hmap, hw', fun x => ?_⟩
    rw [hh]
    refine exists_congr fun d => and_congr_right fun hd => (ho d x ?_).symm
    rintro rfl
    obtain rfl := h.apart e endpoint d hd ha
    exact hr (Option.some.inj (he.symm.trans href))

lemma mapPages_follows {req : MapReq} (hv : s.domainMap.get req.domain.toNat = some v) :
    YieldsIf False (s.mapPages req v.2 host) fun r =>
      r.1.status = .ok → r.2.Follows endpoints (l.after (.map req)) := by
  obtain ⟨e, ha, href, -⟩ := h.endpoint_of_domain hv
  obtain ⟨id, m, hmap, hw, hh⟩ := h.holds e v.2 href
  unfold mapPages
  cases hs : checkedAdd (req.virtEnd.toNat - req.virtStart.toNat) 1 with
  | none => exact nofun
  | some size =>
    obtain ⟨-, rfl⟩ := checkedAdd_eq_some.mp hs
    refine YieldsIf.bind (P := fun _ => True) (yieldsIf_iff.mpr ⟨nofun, fun _ _ => trivial⟩)
      fun dmabuf _ => ?_
    rw [hmap]
    cases dmabuf with
    | some address => exact yieldsIf_err
    | none =>
      rw [mapInto, Mapper.addMap]
      rcases m.finish_addMap hw id _ with ⟨err, heq⟩ | heq | ⟨hm, hr, heq⟩
      all_goals rw [heq]
      · exact yieldsIf_err
      · exact nofun
      · intro _
        obtain ⟨hp, hf, hg⟩ := hm
        have hfr := forall_mappings.mp hr
        refine h.remap ha href id (hw.insert hp hf hg hfr).2 (fun x => ?_) ?_
        · rw [mem_mappings_insert hw ⟨hp, hf, hg⟩ hr, hh, ha]
          simp
        · intro d x hd
          simp [hd]

lemma processDmaMapRequest_follows {req : MapReq} :
    YieldsIf False (s.processDmaMapRequest req host) fun r =>
      r.1.status = .ok → r.2.Follows endpoints (l.after (.map req)) := by
  unfold processDmaMapRequest
  split
  · exact nofun
  split
  · exact nofun
  refine (addIn_yieldsIf False.elim).bind fun next _ => ?_
  split
  · exact nofun
  split
  · exact nofun
  split
  · exact nofun
  · rename_i hv
    exact mapPages_follows h hv

/-! ## Unmapping -/

lemma processDmaUnmapRequest_follows {req : UnmapReq} :
    YieldsIf False (s.processDmaUnmapRequest req host) fun r =>
      r.1.status = .ok → r.2.Follows endpoints (l.after (.unmap req)) := by
  unfold processDmaUnmapRequest
  split
  · exact nofun
  rename_i hv
  obtain ⟨e, ha, href, -⟩ := h.endpoint_of_domain hv
  obtain ⟨id, m, hm, hw, hh⟩ := h.holds e _ href
  refine yieldsIf_iff.mpr ⟨nofun, fun r hr hok => ?_⟩
  obtain ⟨distance, hds, hr⟩ := bind_eq_ok.mp hr
  obtain ⟨size, hs, hr⟩ := bind_eq_ok.mp hr
  obtain ⟨hle, rfl⟩ := subU64_eq_ok.mp hds
  obtain ⟨-, rfl⟩ := addIn_eq_ok.mp hs
  rw [hm, Mapper.removeMap] at hr
  rcases m.finish_removeMap hw id req.virtStart.toNat _ host.evtOk with
    ⟨err, heq⟩ | heq | ⟨evt, st, heq⟩ | ⟨-, heq⟩
  all_goals rw [heq] at hr
  all_goals cases hr
  · cases hok
  · have hst : req.virtStart.toNat + (req.virtEnd.toNat - req.virtStart.toNat + 1) =
        req.virtEnd.toNat + 1 := by omega
    rw [hst]
    refine h.remap ha href id (hw.sublist List.filter_sublist) (fun x => ?_) ?_
    · change x ∈ (m.unmapped _ _).mappings ↔ _
      rw [mem_mappings_unmapped, hh, ha]
      simp
    · intro d x hd
      simp [hd]

end

def succeed (s : State) (op : HostAnswer × Request) : Option State :=
  match s.process op.1 op.2 with
  | .ok (answer, s') => if answer.status = .ok then some s' else none
  | _ => none

lemma succeed_eq_some :
    s.succeed op = some s' ↔
      ∃ answer, s.process op.1 op.2 = .ok (answer, s') ∧ answer.status = .ok := by
  unfold succeed
  cases s.process op.1 op.2 with
  | ok r =>
    obtain ⟨answer, t⟩ := r
    by_cases hok : answer.status = .ok
    all_goals simp [hok]
  | err e => simp
  | panic => simp

lemma succeed_follows (h : s.Follows endpoints l) (hp : l.Permits op.2)
    (hs : s.succeed op = some s') : s'.Follows endpoints (l.after op.2) := by
  obtain ⟨answer, hpr, hok⟩ := succeed_eq_some.mp hs
  have hy : YieldsIf False (s.process op.1 op.2) fun r =>
      r.1.status = .ok → r.2.Follows endpoints (l.after op.2) := by
    obtain ⟨host, request⟩ := op
    cases request with
    | attach req => exact processAttachRequest_follows h hp
    | detach req => exact processDetachRequest_follows h
    | map req => exact processDmaMapRequest_follows h
    | unmap req => exact processDmaUnmapRequest_follows h
  exact (yieldsIf_iff.mp hy).2 _ hpr hok

lemma run_follows : ∀ (ops : List (HostAnswer × Request)) {s t : State} {l : Ledger},
    s.Follows endpoints l → l.Apart (ops.map Prod.snd) → run succeed ops s = some t →
      t.Follows endpoints ((ops.map Prod.snd).foldl Ledger.after l) := by
  intro ops
  induction ops with
  | nil =>
    intro s t l h _ hrun
    cases hrun
    exact h
  | cons op ops ih =>
    rintro s t l h ⟨hp, ha⟩ hrun
    obtain ⟨s', hs, hr⟩ := run_cons_eq_some.mp hrun
    exact ih (succeed_follows h hp hs) ha hr

/-- Each endpoint has a mapper of its own, with nothing mapped. -/
structure OwnMappers (endpoints : BTreeMap Nat Nat) (mappers : Nat → Mapper) : Prop where
  own : ∀ e e' ref, endpoints.get e = some ref → endpoints.get e' = some ref → e = e'
  fresh : ∀ e ref, endpoints.get e = some ref → ∃ id m, mappers ref = .basic id m ∧ m.maps = .empty

lemma OwnMappers.follows {mappers : Nat → Mapper} (h : OwnMappers endpoints mappers)
    (pageMask : BitVec 64) (hpEndpointsRanges : List (Nat × Nat)) (nextMapper : Nat) :
    (State.new pageMask hpEndpointsRanges endpoints mappers nextMapper).Follows endpoints
      .empty := by
  refine ⟨rfl, fun e d => ?_, fun e e' d he => ?_, h.own, fun e d he => ?_, fun d v hv => ?_,
    fun e r he => ?_⟩
  · constructor
    all_goals
      intro he
      cases he
  · cases he
  · cases he
  · cases hv
  · obtain ⟨id, m, hm, hemp⟩ := h.fresh e r he
    refine ⟨id, m, hm, ?_, fun x => ?_⟩
    · rw [hemp]
      exact wellMapped_empty
    · rw [mappings, hemp]
      simp [BTreeMap.empty, Ledger.empty]

/-- An endpoint is attached as the ledger says, and its mapper has the mappings of its domain. -/
def Isolated (s : State) (l : Ledger) (endpoint : Nat) : Prop :=
  (∀ domain, s.endpointMap.get endpoint = some domain ↔ (endpoint, domain) ∈ l.attached) ∧
    ∃ ref id m, s.endpoints.get endpoint = some ref ∧ s.mappers ref = .basic id m ∧
      (∀ domain, s.endpointMap.get endpoint = some domain →
        ∀ x, x ∈ m.mappings ↔ (domain, x) ∈ l.mapped) ∧
      (s.endpointMap.get endpoint = none → m.mappings = [])

lemma Follows.isolated (h : s.Follows endpoints l) (hr : endpoints.get endpoint = some ref) :
    s.Isolated l endpoint := by
  rw [← h.same] at hr
  obtain ⟨id, m, hm, -, hh⟩ := h.holds endpoint ref hr
  refine ⟨h.attached endpoint, ref, id, m, hr, hm, fun domain ha x => ?_, ?_⟩
  · rw [hh, ha]
    simp
  · intro hf
    refine List.eq_nil_iff_forall_not_mem.mpr fun x hx => ?_
    obtain ⟨d, hd, -⟩ := (hh x).mp hx
    rw [hf] at hd
    cases hd

/-- If no two endpoints share a domain, requests that succeed keep every endpoint to what is mapped
in its domain. -/
theorem endpoints_isolated {mappers : Nat → Mapper} (hown : OwnMappers endpoints mappers)
    (pageMask : BitVec 64) (hpEndpointsRanges : List (Nat × Nat)) (nextMapper : Nat)
    (ops : List (HostAnswer × Request)) (hapart : Ledger.empty.Apart (ops.map Prod.snd)) {s : State}
    (hrun : run succeed ops (.new pageMask hpEndpointsRanges endpoints mappers nextMapper) = some s)
    (href : endpoints.get endpoint = some ref) : s.Isolated (Ledger.record ops) endpoint := by
  have hs := hown.follows pageMask hpEndpointsRanges nextMapper
  exact (run_follows ops hs hapart hrun).isolated href

lemma not_isolated {id : Nat} (hr : s.endpoints.get endpoint = some ref)
    (hm : s.mappers ref = .basic id m) (ha : s.endpointMap.get endpoint = some domain)
    {x : MappingInfo} (hx : ¬ (x ∈ m.mappings ↔ (domain, x) ∈ l.mapped)) :
    ¬ s.Isolated l endpoint := by
  rintro ⟨-, ref', id', m', hr', hm', hh, -⟩
  rw [hr] at hr'
  cases hr'
  rw [hm] at hm'
  cases hm'
  exact hx (hh domain ha x)

def twoEndpoints : State :=
  .new 0xfff [] ((BTreeMap.empty.insert 0 0).insert 1 1)
    (fun ref => .basic ref (.new (2 ^ 64 - 1))) 2

def attachTo (endpoint : BitVec 32) (domain : BitVec 32) : HostAnswer × Request :=
  (plainHost, .attach ⟨domain, endpoint, List.replicate 8 0⟩)

def mapPage (domain : BitVec 32) : HostAnswer × Request :=
  (plainHost, .map ⟨domain, 0, 0xfff, 0x1000, 3⟩)

def unmapPage (domain : BitVec 32) : HostAnswer × Request := (plainHost, .unmap ⟨domain, 0, 0xfff⟩)

lemma twoEndpoints_own : OwnMappers twoEndpoints.endpoints twoEndpoints.mappers := by
  have hg : ∀ e ref, twoEndpoints.endpoints.get e = some ref → e = ref := by
    intro e ref he
    rcases get_insert_eq_some.mp he with ⟨rfl, rfl⟩ | ⟨-, he⟩
    · rfl
    rcases get_insert_eq_some.mp he with ⟨rfl, rfl⟩ | ⟨-, he⟩
    · rfl
    · cases he
  refine ⟨fun e e' ref he he' => ?_, fun e ref _ => ⟨ref, _, rfl, rfl⟩⟩
  rw [hg e ref he, hg e' ref he']

theorem endpoints_isolated_two_domains :
    ∃ s, run succeed [attachTo 0 7, mapPage 7, attachTo 1 8, unmapPage 7] twoEndpoints = some s ∧
      s.Isolated (Ledger.record [attachTo 0 7, mapPage 7, attachTo 1 8, unmapPage 7]) 0 :=
  ⟨_, rfl, endpoints_isolated twoEndpoints_own 0xfff [] 2 _ (by decide) rfl rfl⟩

/-- Two endpoints in one domain. The second has nothing of what is mapped, and what is then unmapped
stays in the mapper of the first. -/
theorem shared_domain_leaks :
    (∃ s, run succeed [attachTo 0 7, mapPage 7, attachTo 1 7] twoEndpoints = some s ∧
      ¬ s.Isolated (Ledger.record [attachTo 0 7, mapPage 7, attachTo 1 7]) 1) ∧
    (∃ s, run succeed [attachTo 0 7, mapPage 7, attachTo 1 7, unmapPage 7] twoEndpoints = some s ∧
      ¬ s.Isolated (Ledger.record [attachTo 0 7, mapPage 7, attachTo 1 7, unmapPage 7]) 0) := by
  refine ⟨⟨_, rfl, ?_⟩, ⟨_, rfl, ?_⟩⟩
  all_goals exact not_isolated rfl rfl rfl (x := ⟨0, 0x1000, 0x1000, ⟨true, true⟩⟩) (by decide)

end State

end GunyahVmm.Iommu
