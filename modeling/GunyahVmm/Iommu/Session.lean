import GunyahVmm.Iommu.Export

/-! The protocol of an export session. Both sides keep the same ranges, mapped unless it has a
fault. -/

namespace GunyahVmm.Iommu
open Run Resources Run.Traced List

structure Client where
  mapper : BasicMemoryMapper
  held : List AddressRange

namespace Client
open BasicMemoryMapper

def new (mask : Nat) : Client := ⟨.new mask, []⟩

def range (iova size : Nat) : AddressRange := ⟨iova, iova + size - 1⟩

/-- The ranges that the client holds after a reply. -/
def afterExport (held : List AddressRange) (iova size : Nat) {α : Type} :
    Except MapperError α → List AddressRange
  | .ok _ => range iova size :: held
  | .error _ => held

def afterRelease (held : List AddressRange) (iova size : Nat) {α : Type} :
    Except MapperError α → List AddressRange
  | .ok _ => if 0 < size then held.erase (range iova size) else held
  | .error _ => held

def step (c : Client) : MapperOp → Traced Signal Empty Client
  | .exportRange iova size =>
    (fun (r, m) => ⟨m, afterExport c.held iova size r⟩) <$> c.mapper.exportRange iova size
  | .release iova size evtOk =>
    (fun (r, m) => ⟨m, afterRelease c.held iova size r⟩) <$> c.mapper.release iova size evtOk
  | op => (fun m => ⟨m, c.held⟩) <$> c.mapper.step op

variable {c c' : Client} {op : MapperOp} {past : List Signal}
variable {iova size k : Nat} {signals : List Signal} {r : AddressRange}

lemma step_mapper (c : Client) (op : MapperOp) :
    (c.step op).trace = (c.mapper.step op).trace ∧
      ∀ c', (c.step op).value = .ok c' → (c.mapper.step op).value = .ok c'.mapper := by
  cases op <;>
    · refine ⟨by simp only [step, BasicMemoryMapper.step, map_trace], fun c' hv => ?_⟩
      obtain ⟨a, ha, rfl⟩ := map_value_eq_ok.mp hv
      first | exact ha | exact map_value_eq_ok.mpr ⟨a, ha, rfl⟩

/-- What holds between the calls. `past` is all that was signalled so far. -/
structure Inv (past : List Signal) (c : Client) : Prop where
  maps : WellMapped c.mapper.maps
  none : c.mapper.exportState = none → c.held = []
  held : ∀ st, c.mapper.exportState = some st → c.held.Perm st.exported
  nonempty : ∀ r ∈ c.held, r.isEmpty = false
  backed : ∀ st, c.mapper.exportState = some st → st.unfaulted = true →
    ∀ r ∈ c.held, ∀ x, r.contains x = true → c.mapper.Mapped x
  faulted : ∀ st, c.mapper.exportState = some st → st.unfaulted = false → .fault st.session ∈ past

lemma inv_new (mask : Nat) : Inv [] (new mask) where
  maps := wellMapped_empty
  none _ := rfl
  held _ h := by cases h
  nonempty _ h := by cases h
  backed _ h := by cases h
  faulted _ h := by cases h

/-- The calls that take no range and give none back. -/
def Keeps : MapperOp → Prop
  | .exportRange .. | .release .. => False
  | _ => True

lemma Inv.keep (h : Inv past c) {m' : BasicMemoryMapper} (heff : Effect c.mapper op signals m')
    (hop : Keeps op) : Inv (past ++ signals) ⟨m', c.held⟩ := by
  have hm := heff.wellMapped h.maps
  cases heff with
  | same => simpa using h
  | added hmap hf =>
    refine ⟨hm, h.none, h.held, h.nonempty, ?_, by rw [append_nil]; exact h.faulted⟩
    intro st hst hun r hr x hx
    obtain ⟨map, hmem, hc⟩ := h.backed st hst hun r hr x hx
    obtain ⟨e, he, rfl⟩ := mem_map.mp hmem
    have hi := (h.maps.insert hmap.1 hmap.2.1 hmap.2.2 (forall_mappings.mp hf)).1 e
    exact ⟨e.2, mem_map_of_mem (hi.mpr (.inr he)), hc⟩
  | @removed iova size evtOk hf =>
    refine ⟨hm, h.none, h.held, h.nonempty, ?_, by rw [append_nil]; exact h.faulted⟩
    intro st hst hun r hr x hx
    obtain ⟨map, hmem, hc⟩ := h.backed st hst hun r hr x hx
    refine ⟨map, mem_mappings_unmapped.mpr ⟨hmem, fun hw => ?_⟩, hc⟩
    -- a mapping inside the range would make the exported one meet it
    have ho := hf st hst hun r ((h.held st hst).subset hr)
    have hcom : r.overlaps ⟨iova, iova + size - 1⟩ = true := by
      refine (AddressRange.overlaps_iff _ _).mpr ⟨x, hx, ?_⟩
      rw [AddressRange.contains_iff]
      have h₁ := hw.1
      have h₂ := hw.2
      have h₃ := hc.1
      have h₄ := hc.2
      dsimp only
      omega
    rw [hcom] at ho
    cases ho
  | reset hf =>
    refine ⟨hm, h.none, h.held, h.nonempty, ?_, by rw [append_nil]; exact h.faulted⟩
    intro st hst hun r hr
    have hn := hf st hst hun
    have hmem := (h.held st hst).subset hr
    rw [hn] at hmem
    cases hmem
  | @faulted _ st maps hst hun _ =>
    refine ⟨hm, nofun, ?_, h.nonempty, ?_, ?_⟩
    · rintro _ ⟨⟩
      exact h.held st hst
    · rintro _ ⟨⟩ hun'
      cases hun'
    · rintro _ ⟨⟩ _
      exact mem_append_right _ (mem_singleton_self _)
  | started hf =>
    have hn : c.held = [] := by
      cases hst : c.mapper.exportState with
      | none => exact h.none hst
      | some st => exact (hf st hst ▸ h.held st hst).eq_nil
    refine ⟨hm, nofun, ?_, h.nonempty, ?_, ?_⟩
    · rintro _ ⟨⟩
      exact List.Perm.of_eq hn
    · rintro _ ⟨⟩ _ r hr
      rw [hn] at hr
      cases hr
    · rintro _ ⟨⟩ hun
      cases hun
  | exported | released => cases hop

lemma Inv.export (h : Inv past c) (hv : (c.step (.exportRange iova size)).value = .ok c') :
    Inv past c' := by
  obtain ⟨⟨r, m⟩, hv', rfl⟩ := map_value_eq_ok.mp hv
  rcases exportRange_cases c.mapper iova size with
    ⟨e, heq⟩ | ⟨_, heq⟩ | ⟨st, regions, hst, hun, hs, hend, hl, heq⟩
  all_goals rw [heq] at hv'
  all_goals cases hv'
  · exact h
  · have ht : Translated c.mapper.maps iova (iova + size) regions := by
      rcases exportLoop_mapper h.maps hs hend with ⟨found, hf, ht⟩ | ⟨⟨e, herr⟩, _⟩
      · cases hl.symm.trans hf
        exact ht
      · cases hl.symm.trans herr
    refine ⟨h.maps, nofun, ?_, ?_, ?_, ?_⟩
    · rintro _ ⟨⟩
      exact ((h.held st hst).cons _).trans (perm_append_singleton _ _).symm
    · refine forall_mem_cons.mpr ⟨?_, h.nonempty⟩
      simp only [range, AddressRange.isEmpty_eq_false_iff]
      omega
    · rintro _ ⟨⟩ _ r hr x hx
      rcases mem_cons.mp hr with rfl | hr
      · simp only [range, AddressRange.contains_iff] at hx
        exact mapped_of_translated ht hx.1 (by omega)
      · exact h.backed st hst hun r hr x hx
    · rintro _ ⟨⟩ hun'
      exact h.faulted st hst hun'

lemma fromStartAndSize_pos (hsz : 0 < size) (hr : fromStartAndSize iova size = some r) :
    r = range iova size := by
  unfold fromStartAndSize at hr
  rw [if_neg (by omega)] at hr
  obtain ⟨stop, hs, rfl⟩ := Option.map_eq_some_iff.mp hr
  obtain ⟨_, rfl⟩ := checkedAdd_eq_some.mp hs
  simp only [range, AddressRange.mk.injEq, true_and]
  omega

lemma eq_range_of_compare {r' : AddressRange} (hr : fromStartAndSize iova size = some r)
    (hc : compare r' r = .eq) (hr' : r'.isEmpty = false) : 0 < size ∧ r' = range iova size := by
  by_cases hs : 0 < size
  · obtain rfl := fromStartAndSize_pos hs hr
    refine ⟨hs, AddressRange.eq_of_compare_eq hr' ?_ hc⟩
    simp only [range, AddressRange.isEmpty_eq_false_iff]
    omega
  · -- an empty range is equal to none that is exported
    unfold fromStartAndSize at hr
    rw [if_pos (by omega)] at hr
    cases hr
    change AddressRange.cmp r' .empty = .eq at hc
    simp only [AddressRange.cmp, hr'] at hc
    cases hc

lemma Inv.release (h : Inv past c) {evtOk : Bool}
    (hv : (c.step (.release iova size evtOk)).value = .ok c') : Inv (past ++ signals) c' := by
  obtain ⟨⟨reply, m⟩, hv', rfl⟩ := map_value_eq_ok.mp hv
  have hs : Inv (past ++ signals) c := { h with
    faulted := fun st hst hun => mem_append_left _ (h.faulted st hst hun) }
  rcases release_cases c.mapper iova size evtOk with
    ⟨e, heq⟩ | ⟨st, r, hst, hr, hn, heq⟩ | ⟨st, r, r', exported, hst, hr, hc, hp, heq⟩
  · rw [heq] at hv'
    cases hv'
    exact hs
  · rw [heq] at hv'
    cases hv'
    have hk : (if 0 < size then c.held.erase (range iova size) else c.held) = c.held := by
      split
      · rename_i hsz
        refine erase_of_not_mem fun hm => ?_
        refine hn (range iova size) ((h.held st hst).subset hm) ?_
        rw [fromStartAndSize_pos hsz hr]
        exact Std.ReflCmp.compare_self
      · rfl
    simpa only [afterRelease, hk] using hs
  · have hm : r' ∈ c.held := (h.held st hst).mem_iff.mpr (hp.subset mem_cons_self)
    obtain ⟨hsz, rfl⟩ := eq_range_of_compare hr hc (h.nonempty r' hm)
    obtain ⟨rfl, rfl⟩ : reply = .ok () ∧ m = c.mapper.withSession { st with exported } := by
      rw [heq] at hv'
      split at hv'
      · obtain ⟨_, _, hv'⟩ := bind_value_eq_ok.mp hv'
        cases hv'
        exact ⟨rfl, rfl⟩
      · cases hv'
        exact ⟨rfl, rfl⟩
    have hl : (c.held.erase (range iova size)).Perm exported := by
      have her := ((h.held st hst).trans hp.symm).erase (range iova size)
      rwa [erase_cons_head] at her
    simp only [afterRelease, if_pos hsz]
    refine ⟨h.maps, nofun, ?_, ?_, ?_, ?_⟩
    · rintro _ ⟨⟩
      exact hl
    · exact fun r hr => h.nonempty r (mem_of_mem_erase hr)
    · rintro _ ⟨⟩ hun r hr
      exact h.backed st hst hun r (mem_of_mem_erase hr)
    · rintro _ ⟨⟩ hun
      exact hs.faulted st hst hun

lemma step_inv (h : Inv past c) (hv : (c.step op).value = .ok c') :
    Inv (past ++ (c.step op).trace) c' := by
  obtain ⟨ht, hm⟩ := step_mapper c op
  have heff := step_effect h.maps (hm c' hv)
  cases op with
  | exportRange iova size =>
    rw [ht, BasicMemoryMapper.step, map_trace, exportRange_trace, append_nil]
    exact h.export hv
  | release iova size evtOk => exact h.release hv
  | addMap | removeMap | resetDomain | startExportSession =>
    obtain ⟨m, _, rfl⟩ := map_value_eq_ok.mp hv
    exact ht ▸ h.keep heff trivial

lemma run_inv {mask : Nat} {ops : List MapperOp}
    (hr : (Traced.runAll step ops (new mask)).value = .ok c) :
    Inv (Traced.runAll step ops (new mask)).trace c := by
  have h := runAll_invariant Inv (fun _ _ _ _ h hv => step_inv h hv) ops []
    (new mask) c (inv_new mask) hr
  rwa [nil_append] at h

/-! ## After a fault -/

def Broken (c : Client) (k : Nat) : Prop :=
  ∃ st, c.mapper.exportState = some st ∧ st.session = k ∧ st.unfaulted = false

def StartsSession (ops : List MapperOp) (c : Client) : Prop :=
  ∃ pre created post c₁ session m, ops = pre ++ .startExportSession created :: post ∧
    (Traced.runAll step pre c).value = .ok c₁ ∧
    (c₁.mapper.startExportSession created).value = .ok (.ok session, m)

lemma Broken.exportRange (h : c.Broken k) (iova size : Nat) :
    (c.mapper.exportRange iova size).value = .ok (.error .brokenExportState, c.mapper) := by
  obtain ⟨st, hst, _, hun⟩ := h
  simp only [BasicMemoryMapper.exportRange, hst, ExportState.canExport, hun]
  rfl

lemma Broken.after_step (h : c.Broken k) (hm : WellMapped c.mapper.maps)
    (hv : (c.step op).value = .ok c') : c'.Broken k ∨ StartsSession [op] c := by
  obtain ⟨st, hst, hk, hun⟩ := h
  obtain ⟨_, hmp⟩ := step_mapper c op
  have hs := hmp c' hv
  have heff := step_effect hm hs
  generalize (c.mapper.step op).trace = signals at heff
  obtain ⟨m', he'⟩ := c'
  cases heff with
  | same | added | removed | reset => exact .inl ⟨st, hst, hk, hun⟩
  | faulted hst' hun' | exported hst' hun' =>
    cases hst.symm.trans hst'
    rw [hun] at hun'
    cases hun'
  | @started created hf =>
    rcases startExportSession_cases c.mapper created with ⟨e, heq⟩ | ⟨_, heq⟩
    · -- a call that fails counts no session
      rw [BasicMemoryMapper.step, heq] at hs
      have hn := congrArg BasicMemoryMapper.nextSession (Outcome.ok.inj hs)
      dsimp only at hn
      omega
    · exact .inr ⟨[], created, [], c, c.mapper.nextSession, _, rfl, rfl, by rw [heq]; rfl⟩
  | released hst' =>
    cases hst.symm.trans hst'
    exact .inl ⟨_, rfl, hk, hun⟩

/-- **After a fault.** The session stays broken until a new one is started. -/
lemma Broken.after_run (ops : List MapperOp) : ∀ {c c' : Client}, c.Broken k →
    WellMapped c.mapper.maps → (Traced.runAll step ops c).value = .ok c' →
    c'.Broken k ∨ StartsSession ops c := by
  induction ops with
  | nil =>
    intro c c' h _ hr
    cases hr
    exact .inl h
  | cons op ops ih =>
    intro c c' h hm hr
    obtain ⟨c₁, hc₁, hr⟩ := bind_value_eq_ok.mp hr
    have hm₁ : WellMapped c₁.mapper.maps :=
      (step_effect hm ((step_mapper c op).2 c₁ hc₁)).wellMapped hm
    rcases h.after_step hm hc₁ with h₁ | ⟨pre, created, post, c₂, session, m, ho, hp, hs⟩
    · rcases ih h₁ hm₁ hr with h' | ⟨pre, created, post, c₂, session, m, rfl, hp, hs⟩
      · exact .inl h'
      · exact .inr ⟨op :: pre, created, post, c₂, session, m, rfl,
          bind_value_eq_ok.mpr ⟨c₁, hc₁, hp⟩, hs⟩
    · refine .inr ⟨pre, created, post ++ ops, c₂, session, m, ?_, hp, hs⟩
      rw [← singleton_append, ho]
      simp

/-! ## The end of a fault -/

lemma onFault_only (st : ExportState) (evtOk : Bool) (k : Nat) :
    (st.onFault evtOk).Only (· ≠ .faultResolved k) := by
  rcases onFault_cases st evtOk with ⟨_, hf⟩ | ⟨_, _, hf⟩ | ⟨_, _, hf⟩
  all_goals rw [hf]
  · exact only_pure _
  · simp [Traced.Only]
  · simp [Traced.Only]

lemma removeMap_only {m : BasicMemoryMapper} (hm : WellMapped m.maps) (iova size k : Nat)
    (evtOk : Bool) : (m.removeMap iova size evtOk).Only (· ≠ .faultResolved k) := by
  by_cases ha : 0 < size ∧ iova + size < u64Size
  · obtain ⟨hs, hend⟩ := ha
    rcases removeMap_eq evtOk hm hs hend with ⟨_, heq⟩ | ⟨_, heq⟩
    · rw [heq]
      exact only_pure _
    · rcases faultIfExported_eq (m.unmapped iova (iova + size)) evtOk hs hend with
        ⟨_, hf⟩ | ⟨st, _, _, hf⟩
      · rw [heq, hf]
        exact only_pure _
      · rw [heq, hf]
        exact only_bind (onFault_only st evtOk k) fun _ _ => only_pure _
  · obtain ⟨e, heq⟩ := removeMap_refuses m evtOk ha
    rw [heq]
    exact only_pure _

lemma resetDomain_only (m : BasicMemoryMapper) (k : Nat) (evtOk : Bool) :
    (m.resetDomain evtOk).Only (· ≠ .faultResolved k) := by
  unfold resetDomain
  dsimp only
  split
  · exact only_pure _
  split
  · exact only_pure _
  · exact only_bind (onFault_only _ evtOk k) fun _ _ => only_pure _

lemma faultResolved_mem_trace (h : Inv past c) (hk : .faultResolved k ∈ (c.step op).trace) :
    ∃ iova size evtOk st, op = .release iova size evtOk ∧ c.mapper.exportState = some st ∧
      st.session = k ∧ st.unfaulted = false ∧ c.held = [range iova size] := by
  rw [(step_mapper c op).1] at hk
  cases op with
  | addMap map =>
    rw [BasicMemoryMapper.step, map_trace, addMap_trace] at hk
    cases hk
  | removeMap iova size evtOk =>
    rw [BasicMemoryMapper.step, map_trace] at hk
    exact absurd rfl (removeMap_only h.maps iova size k evtOk _ hk)
  | resetDomain evtOk =>
    rw [BasicMemoryMapper.step, map_trace] at hk
    exact absurd rfl (resetDomain_only c.mapper k evtOk _ hk)
  | startExportSession created =>
    rw [BasicMemoryMapper.step, map_trace] at hk
    rcases startExportSession_cases c.mapper created with ⟨e, heq⟩ | ⟨_, heq⟩ <;>
    · rw [heq] at hk
      cases hk
  | exportRange iova size =>
    rw [BasicMemoryMapper.step, map_trace, exportRange_trace] at hk
    cases hk
  | release iova size evtOk =>
    rw [BasicMemoryMapper.step, map_trace] at hk
    rcases release_cases c.mapper iova size evtOk with
      ⟨e, heq⟩ | ⟨st, r, _, _, _, heq⟩ | ⟨st, r, r', exported, hst, hr, hc, hp, heq⟩
    all_goals rw [heq] at hk
    · cases hk
    · cases hk
    · split at hk
      · rename_i hd
        simp only [Bool.and_eq_true, List.isEmpty_iff, Bool.not_eq_true'] at hd
        obtain ⟨rfl, hun⟩ := hd
        have hh : c.held = [r'] := ((h.held st hst).trans hp.symm).eq_singleton
        have hm : r' ∈ c.held := by rw [hh]; exact mem_singleton_self r'
        obtain ⟨_, rfl⟩ := eq_range_of_compare hr hc (h.nonempty r' hm)
        have ho : Signal.faultResolved k ∈ [Signal.faultResolved st.session] := by
          cases evtOk <;> exact hk
        cases mem_singleton.mp ho
        exact ⟨iova, size, evtOk, st, rfl, hst, rfl, hun, hh⟩
      · cases hk

/-- **Export sessions.** In every state that calls of the guest and of the client can reach:
without a fault all that the client holds is mapped; when something it holds is not mapped the
session has a fault, and no range can be exported until a new session is started; none is
started while the client holds a range; and a fault is resolved only after it was signalled,
by the release of the last range. -/
theorem export_protocol (mask : Nat) (ops : List MapperOp)
    (hrun : (Traced.runAll step ops (new mask)).value = .ok c) :
    (∀ st, c.mapper.exportState = some st → st.unfaulted = true →
        ∀ r ∈ c.held, ∀ x, r.contains x = true → c.mapper.Mapped x) ∧
      ((∃ r ∈ c.held, ∃ x, r.contains x = true ∧ ¬ c.mapper.Mapped x) →
        ∃ k, c.Broken k ∧ ∀ more c', (Traced.runAll step more c).value = .ok c' →
          (c'.Broken k ∧ ∀ iova size, (c'.mapper.exportRange iova size).value =
              .ok (.error .brokenExportState, c'.mapper)) ∨ StartsSession more c) ∧
      (c.held ≠ [] → ∀ created,
        (c.mapper.startExportSession created).value = .ok (.error .sessionActive, c.mapper)) ∧
      ∀ op k, .faultResolved k ∈ (c.step op).trace →
        .fault k ∈ (Traced.runAll step ops (new mask)).trace ∧
          ∃ iova size evtOk st, op = .release iova size evtOk ∧
            c.mapper.exportState = some st ∧ st.session = k ∧ st.unfaulted = false ∧
            c.held = [range iova size] := by
  have h := run_inv hrun
  refine ⟨h.backed, ?_, ?_, ?_⟩
  · rintro ⟨r, hr, x, hx, hn⟩
    cases hst : c.mapper.exportState with
    | none =>
      rw [h.none hst] at hr
      cases hr
    | some st =>
      have hun : st.unfaulted = false := by
        rw [Bool.eq_false_iff]
        exact fun hun => hn (h.backed st hst hun r hr x hx)
      have hb : c.Broken st.session := ⟨st, hst, rfl, hun⟩
      refine ⟨st.session, hb, fun more c' hm => ?_⟩
      exact (hb.after_run more h.maps hm).imp_left fun h' => ⟨h', h'.exportRange⟩
  · intro hh created
    cases hst : c.mapper.exportState with
    | none => exact absurd (h.none hst) hh
    | some st =>
      have hne : st.exported ≠ [] := fun hnil => hh (hnil ▸ h.held st hst).eq_nil
      simp [startExportSession, hst, hne, fails]
  · intro op k hk
    obtain ⟨iova, size, evtOk, st, hop, hst, hs, hun, hh⟩ := faultResolved_mem_trace h hk
    exact ⟨hs ▸ h.faulted st hst hun, iova, size, evtOk, st, hop, hst, hs, hun, hh⟩

/-- A page is exported and unmapped: the fault is signalled, no session can be started, and
the release resolves the fault. -/
theorem export_protocol_page :
    ∃ c, (Traced.runAll step [.addMap ⟨0x1000, 0x8000, 0x1000, ⟨true, true⟩⟩,
          .startExportSession true, .exportRange 0x1000 0x1000, .removeMap 0x1000 0x1000 true]
        (new 0)).value = .ok c ∧
      (c.mapper.startExportSession true).value = .ok (.error .sessionActive, c.mapper) ∧
      (c.step (.release 0x1000 0x1000 true)).trace = [.faultResolved 0] ∧
      .fault 0 ∈ (Traced.runAll step [.addMap ⟨0x1000, 0x8000, 0x1000, ⟨true, true⟩⟩,
          .startExportSession true, .exportRange 0x1000 0x1000, .removeMap 0x1000 0x1000 true]
        (new 0)).trace := by
  have h := export_protocol 0 [.addMap ⟨0x1000, 0x8000, 0x1000, ⟨true, true⟩⟩,
    .startExportSession true, .exportRange 0x1000 0x1000, .removeMap 0x1000 0x1000 true] rfl
  refine ⟨_, rfl, h.2.2.1 (cons_ne_nil _ _) true, rfl, ?_⟩
  exact (h.2.2.2 (.release 0x1000 0x1000 true) 0 mem_cons_self).1

end Client

end GunyahVmm.Iommu
