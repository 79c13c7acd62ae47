import GunyahVmm.Iommu.Mappings

/-! What one call of the mapper can do. Every statement about whole runs is a case analysis
over `Effect`. -/

namespace GunyahVmm.Iommu
open Run Resources Run.Traced List

lemma swapRemove_perm {α : Type} {l : List α} {idx : Nat} (h : idx < l.length) :
    (l[idx] :: swapRemove l idx).Perm l := by
  obtain ⟨l, x, rfl⟩ : ∃ l' x, l = l' ++ [x] :=
    ⟨_, _, (dropLast_append_getLast (ne_nil_of_length_pos (by omega))).symm⟩
  simp only [swapRemove, getLast?_concat]
  simp only [length_append, length_singleton] at h
  by_cases hi : idx < l.length
  · -- the hole in the first part is filled with the last element
    rw [getElem_append_left hi, set_append_left _ _ hi, dropLast_concat]
    have hs : (l[idx] :: l.set idx x).Perm (x :: l) := by
      rw [set_eq_take_append_cons_drop, if_pos hi]
      calc l[idx] :: (l.take idx ++ x :: l.drop (idx + 1))
          _ |>.Perm (l[idx] :: x :: (l.take idx ++ l.drop (idx + 1))) := (perm_middle).cons _
          _ |>.Perm (x :: l[idx] :: (l.take idx ++ l.drop (idx + 1))) := List.Perm.swap _ _ _
          _ |>.Perm (x :: (l.take idx ++ l[idx] :: l.drop (idx + 1))) := (perm_middle.symm).cons _
          _ = x :: l := by rw [getElem_cons_drop, take_append_drop]
    exact hs.trans (perm_append_singleton x l).symm
  · obtain rfl : idx = l.length := by omega
    simpa using (perm_append_singleton x l).symm

namespace BasicMemoryMapper
variable {m m' : BasicMemoryMapper} {iova size : Nat} {evtOk : Bool} {op : MapperOp}
section
variable (m : BasicMemoryMapper)

/-- The mapper after an export, a release or a fault. -/
def withSession (st : ExportState) : BasicMemoryMapper :=
  { m with exportState := some st }

lemma exportRange_cases (iova size : Nat) :
    (∃ e, m.exportRange iova size = fails m e) ∨
      (exportLoop iova size (m.maps.below (iova + size)).reverse (iova + size) [] = .panic ∧
        m.exportRange iova size = ⟨[], .panic⟩) ∨
      ∃ st regions, m.exportState = some st ∧ st.unfaulted = true ∧ 0 < size ∧
        iova + size < u64Size ∧
        exportLoop iova size (m.maps.below (iova + size)).reverse (iova + size) [] =
          .ok (.ok regions) ∧
        m.exportRange iova size = returns
          (m.withSession { st with exported := st.exported ++ [⟨iova, iova + size - 1⟩] })
          regions := by
  unfold exportRange
  cases hst : m.exportState with
  | none => exact .inl ⟨_, rfl⟩
  | some st =>
    dsimp only
    by_cases hun : st.canExport = false
    · exact .inl ⟨_, if_pos hun⟩
    rw [if_neg hun]
    by_cases hs : size = 0
    · exact .inl ⟨_, if_pos hs⟩
    rw [if_neg hs]
    cases ha : checkedAdd iova size with
    | none => exact .inl ⟨_, rfl⟩
    | some hi =>
      obtain ⟨hend, rfl⟩ := checkedAdd_eq_some.mp ha
      dsimp only
      cases hl : exportLoop iova size (m.maps.below (iova + size)).reverse
          (iova + size) [] with
      | panic => exact .inr (.inl ⟨rfl, rfl⟩)
      | err e => exact nomatch e
      | ok res =>
        cases res with
        | error e => exact .inl ⟨e, rfl⟩
        | ok regions =>
          refine .inr (.inr ⟨st, regions, rfl, ?_, by omega, hend, rfl, rfl⟩)
          simpa [ExportState.canExport] using hun

lemma exportRange_trace (iova size : Nat) : (m.exportRange iova size).trace = [] := by
  rcases exportRange_cases m iova size with
    ⟨e, heq⟩ | ⟨_, heq⟩ | ⟨st, regions, _, _, _, _, _, heq⟩ <;>
  simp only [heq, returns, fails] <;> rfl

lemma release_cases (iova size : Nat) (evtOk : Bool) :
    (∃ e, m.release iova size evtOk = fails m e) ∨
      (∃ st r, m.exportState = some st ∧ fromStartAndSize iova size = some r ∧
        (∀ r' ∈ st.exported, compare r' r ≠ .eq) ∧ m.release iova size evtOk = returns m ()) ∨
      ∃ st r r' exported, m.exportState = some st ∧ fromStartAndSize iova size = some r ∧
        compare r' r = .eq ∧ (r' :: exported).Perm st.exported ∧
        m.release iova size evtOk = (do
          if exported.isEmpty && !st.unfaulted then signal (.faultResolved st.session) evtOk
          returns (m.withSession { st with exported }) ()) := by
  unfold release
  cases hr : fromStartAndSize iova size with
  | none => exact .inl ⟨_, rfl⟩
  | some r =>
    cases hst : m.exportState with
    | none => exact .inl ⟨_, rfl⟩
    | some st =>
      dsimp only
      cases hi : st.exported.findIdx? fun r' => compare r' r = .eq with
      | none =>
        refine .inr (.inl ⟨st, r, rfl, rfl, fun r' hr' => ?_, rfl⟩)
        simpa using findIdx?_eq_none_iff.mp hi r' hr'
      | some idx =>
        obtain ⟨hlt, hc, _⟩ := findIdx?_eq_some_iff_getElem.mp hi
        exact .inr (.inr ⟨st, r, st.exported[idx], swapRemove st.exported idx, rfl, rfl,
          by simpa using hc, swapRemove_perm hlt, rfl⟩)

lemma startExportSession_cases (created : Bool) :
    (∃ e, m.startExportSession created = fails m e) ∨
      ((∀ st, m.exportState = some st → st.exported = []) ∧ m.startExportSession created =
        returns { m with exportState := some ⟨[], m.nextSession, true⟩,
                         nextSession := m.nextSession + 1 } m.nextSession) := by
  unfold startExportSession
  by_cases ha : (m.exportState.any (!·.exported.isEmpty)) = true
  · exact .inl ⟨_, if_pos ha⟩
  rw [if_neg ha]
  cases created with
  | false => exact .inl ⟨_, rfl⟩
  | true =>
    refine .inr ⟨?_, rfl⟩
    intro st hst
    simpa [hst] using ha

end

/-- What a call that returns does to the mapper and to the outside. -/
inductive Effect (m : BasicMemoryMapper) :
    MapperOp → List Signal → BasicMemoryMapper → Prop
  | same (op : MapperOp) : Effect m op [] m
  | added {map : MappingInfo} (hmap : Mappable map)
      (hfree : ∀ x ∈ m.mappings, ¬ x.Meets map.iova (map.iova + map.size)) :
      Effect m (.addMap map) [] { m with maps := m.maps.insert map.iova map }
  | removed {iova size : Nat} {evtOk : Bool}
      (hfree : ∀ st, m.exportState = some st → st.unfaulted = true →
        ∀ r ∈ st.exported, r.overlaps ⟨iova, iova + size - 1⟩ = false) :
      Effect m (.removeMap iova size evtOk) [] (m.unmapped iova (iova + size))
  | reset {evtOk : Bool}
      (hfree : ∀ st, m.exportState = some st → st.unfaulted = true → st.exported = []) :
      Effect m (.resetDomain evtOk) [] { m with maps := .empty }
  | faulted {op : MapperOp} {st : ExportState} {maps : BTreeMap Nat MappingInfo}
      (hst : m.exportState = some st) (hun : st.unfaulted = true)
      (hmaps : maps.entries.Sublist m.maps.entries) :
      Effect m op [.fault st.session]
        ({ m with maps }.withSession { st with unfaulted := false })
  | started {created : Bool} (hfree : ∀ st, m.exportState = some st → st.exported = []) :
      Effect m (.startExportSession created) []
        { m with exportState := some ⟨[], m.nextSession, true⟩, nextSession := m.nextSession + 1 }
  | exported {iova size : Nat} {st : ExportState} {regions : List MemRegion}
      (hst : m.exportState = some st) (hun : st.unfaulted = true) (hsize : 0 < size)
      (hend : iova + size < u64Size)
      (hloop : exportLoop iova size (m.maps.below (iova + size)).reverse (iova + size) [] =
        .ok (.ok regions)) :
      Effect m (.exportRange iova size) []
        (m.withSession { st with exported := st.exported ++ [⟨iova, iova + size - 1⟩] })
  | released {iova size : Nat} {evtOk : Bool} {st : ExportState} {r : AddressRange}
      {exported : List AddressRange} (hst : m.exportState = some st)
      (hexported : (r :: exported).Perm st.exported) :
      Effect m (.release iova size evtOk)
        (if exported.isEmpty && !st.unfaulted then [.faultResolved st.session] else [])
        (m.withSession { st with exported })

lemma effect_of_onFault {α : Type} {f : Option Nat → α} {st : ExportState}
    {maps : BTreeMap Nat MappingInfo} (hst : m.exportState = some st)
    (hm : maps.entries.Sublist m.maps.entries)
    (hfl : st.unfaulted = false → Effect m op [] { m with maps })
    {x : Traced Signal Empty (Reply α)}
    (hx : x = (do
      let (event, st) ← st.onFault evtOk
      returns { m with maps, exportState := some st } (f event)))
    (hv : (Prod.snd <$> x).value = .ok m') : Effect m op x.trace m' := by
  subst hx
  rcases onFault_cases st evtOk with ⟨hun, hf⟩ | ⟨hun, _, hf⟩ | ⟨_, _, hf⟩
  · rw [hf] at hv ⊢
    cases hv
    have hs : ({ m with maps, exportState := some st } : BasicMemoryMapper) = { m with maps } := by
      rw [← hst]
    exact hs ▸ hfl hun
  · rw [hf] at hv ⊢
    cases hv
    exact .faulted hst hun hm
  · rw [hf] at hv
    cases hv

lemma effect_of_pure {α : Type} {r : Except MapperError α} {n : BasicMemoryMapper}
    {x : Traced Signal Empty (Reply α)} (hx : x = pure (r, n)) (hn : Effect m op [] n)
    (hv : (Prod.snd <$> x).value = .ok m') : Effect m op x.trace m' := by
  subst hx
  cases hv
  exact hn

lemma addMap_trace (m : BasicMemoryMapper) (map : MappingInfo) : (m.addMap map).trace = [] := by
  unfold addMap
  repeat' split
  all_goals first | rfl | exact trace_bind_of_silent fun _ => by split <;> rfl

lemma addMap_effect (h : WellMapped m.maps) {map : MappingInfo}
    (hv : (m.step (.addMap map)).value = .ok m') :
    Effect m (.addMap map) (m.step (.addMap map)).trace m' := by
  obtain ⟨⟨r, m₁⟩, hv', rfl⟩ := map_value_eq_ok.mp hv
  rw [step, map_trace, addMap_trace]
  by_cases hm : Mappable map
  · rcases addMap_value h hm with ⟨_, heq⟩ | ⟨hf, heq⟩
    · rw [heq] at hv'
      cases hv'
      exact .same _
    · rw [heq] at hv'
      cases hv'
      exact .added hm hf
  · obtain ⟨e, heq⟩ := addMap_refuses (m := m) hm
    rw [heq] at hv'
    cases hv'
    exact .same _

lemma removeMap_effect (h : WellMapped m.maps)
    (hv : (m.step (.removeMap iova size evtOk)).value = .ok m') :
    Effect m (.removeMap iova size evtOk) (m.step (.removeMap iova size evtOk)).trace m' := by
  rw [step, map_trace]
  by_cases ha : 0 < size ∧ iova + size < u64Size
  · obtain ⟨hs, hend⟩ := ha
    rcases removeMap_eq evtOk h hs hend with ⟨_, heq⟩ | ⟨_, heq⟩
    · exact effect_of_pure heq (.same _) hv
    rcases faultIfExported_eq (m.unmapped iova (iova + size)) evtOk hs hend with
      ⟨hfr, hf⟩ | ⟨st, hst, _, hf⟩
    · exact effect_of_pure (heq.trans hf) (.removed fun st hst _ => hfr st hst) hv
    have hsub : (m.unmapped iova (iova + size)).maps.entries.Sublist m.maps.entries :=
      filter_sublist
    replace hst : m.exportState = some st := hst
    refine effect_of_onFault hst hsub (fun hun => .removed ?_) (heq.trans hf) hv
    intro st' hst' hun'
    cases hst.symm.trans hst'
    rw [hun] at hun'
    cases hun'
  · obtain ⟨e, heq⟩ := removeMap_refuses m evtOk ha
    exact effect_of_pure heq (.same _) hv

lemma resetDomain_effect (hv : (m.step (.resetDomain evtOk)).value = .ok m') :
    Effect m (.resetDomain evtOk) (m.step (.resetDomain evtOk)).trace m' := by
  rw [step, map_trace]
  have hs : (BTreeMap.empty : BTreeMap Nat MappingInfo).entries.Sublist m.maps.entries :=
    nil_sublist _
  cases hst : m.exportState with
  | none =>
    have heq : m.resetDomain evtOk = returns { m with maps := .empty } none := by
      simp only [resetDomain, hst]
    exact effect_of_pure heq (.reset (by simp [hst])) hv
  | some st =>
    by_cases hn : st.exported = []
    · have heq : m.resetDomain evtOk = returns { m with maps := .empty } none := by
        simp only [resetDomain, hst, hn, isEmpty_nil, if_true]
      refine effect_of_pure heq (.reset ?_) hv
      intro st' hst' _
      cases hst.symm.trans hst'
      exact hn
    · have heq : m.resetDomain evtOk = (do
          let (event, st) ← st.onFault evtOk
          returns { m with maps := .empty, exportState := some st } (id event)) := by
        simp only [resetDomain, hst]
        rw [if_neg (by simpa using hn)]
        rfl
      refine effect_of_onFault hst hs (fun hun => .reset ?_) heq hv
      intro st' hst' hun'
      cases hst.symm.trans hst'
      rw [hun] at hun'
      cases hun'

lemma release_effect (hv : (m.step (.release iova size evtOk)).value = .ok m') :
    Effect m (.release iova size evtOk) (m.step (.release iova size evtOk)).trace m' := by
  rw [step, map_trace]
  rw [step] at hv
  rcases release_cases m iova size evtOk with
    ⟨e, heq⟩ | ⟨_, _, _, _, _, heq⟩ | ⟨st, r, r', exported, hst, _, _, hp, heq⟩
  · exact effect_of_pure heq (.same _) hv
  · exact effect_of_pure heq (.same _) hv
  · have heff : Effect m (.release iova size evtOk) _ _ := .released hst hp
    rw [heq] at hv ⊢
    cases hd : (exported.isEmpty && !st.unfaulted) with
    | false =>
      rw [hd] at heff hv
      cases hv
      exact heff
    | true =>
      rw [hd] at heff hv
      cases evtOk with
      | false => cases hv
      | true =>
        cases hv
        exact heff

/-- **The calls.** Whatever call returns, it has one of the effects. -/
lemma step_effect (h : WellMapped m.maps) (hv : (m.step op).value = .ok m') :
    Effect m op (m.step op).trace m' := by
  cases op with
  | addMap map => exact addMap_effect h hv
  | removeMap iova size evtOk => exact removeMap_effect h hv
  | resetDomain evtOk => exact resetDomain_effect hv
  | startExportSession created =>
    rw [step, map_trace]
    rcases startExportSession_cases m created with ⟨e, heq⟩ | ⟨hf, heq⟩
    · exact effect_of_pure heq (.same _) hv
    · exact effect_of_pure heq (.started hf) hv
  | exportRange iova size =>
    rw [step, map_trace]
    rw [step] at hv
    rcases exportRange_cases m iova size with
      ⟨e, heq⟩ | ⟨_, heq⟩ | ⟨st, regions, hst, hun, hs, hend, hl, heq⟩
    · exact effect_of_pure heq (.same _) hv
    · rw [heq] at hv
      cases hv
    · exact effect_of_pure heq (.exported hst hun hs hend hl) hv
  | release iova size evtOk => exact release_effect hv

/-! ## The table over whole runs -/

lemma Effect.wellMapped (h : WellMapped m.maps) {signals : List Signal}
    (heff : Effect m op signals m') : WellMapped m'.maps := by
  cases heff with
  | same => exact h
  | added hmap hf => exact (h.insert hmap.1 hmap.2.1 hmap.2.2 (forall_mappings.mp hf)).2
  | removed => exact h.sublist filter_sublist
  | reset => exact wellMapped_empty
  | faulted _ _ hm => exact h.sublist hm
  | started => exact h
  | exported => exact h
  | released => exact h

lemma run_wellMapped {mask : Nat} {ops : List MapperOp}
    (hr : (Traced.runAll step ops (new mask)).value = .ok m) : WellMapped m.maps := by
  refine (runAll_only (P := fun _ => True) (fun m => WellMapped m.maps) ?_ ops (new mask)
    wellMapped_empty).2 m hr
  intro s op hs
  exact ⟨fun _ _ => trivial, fun s' hv => (step_effect hs hv).wellMapped hs⟩

/-- `add_map` refuses an empty or unfit mapping, reports one that meets another, and adds the rest.
-/
def AddsExactly (m : BasicMemoryMapper) (map : MappingInfo) : Prop :=
  (¬ Mappable map → ∃ e, (m.addMap map).value = .ok (.error e, m)) ∧
    (Mappable map → (∃ x ∈ m.mappings, ¬ x.Disjoint map) →
      (m.addMap map).value = .ok (.ok .overlapFailure, m)) ∧
    (Mappable map → (∀ x ∈ m.mappings, x.Disjoint map) → ∃ m',
      (m.addMap map).value = .ok (.ok .ok, m') ∧ ∀ x, x ∈ m'.mappings ↔ x = map ∨ x ∈ m.mappings)

/-- `remove_map` refuses a range that does not fit, reports one that cuts a mapping, and removes the
mappings inside every other one. It aborts only where a fault cannot be signalled. -/
def RemovesExactly (m : BasicMemoryMapper) (iova size : Nat) (evtOk : Bool) : Prop :=
  (¬ (0 < size ∧ iova + size < u64Size) →
      ∃ e, (m.removeMap iova size evtOk).value = .ok (.error e, m)) ∧
    (0 < size → iova + size < u64Size → (∃ x ∈ m.mappings, x.Straddles iova (iova + size)) →
      (m.removeMap iova size evtOk).value = .ok (.ok .overlapFailure, m)) ∧
    (0 < size → iova + size < u64Size → (∀ x ∈ m.mappings, ¬ x.Straddles iova (iova + size)) →
      (evtOk = false ∧ (∃ st, m.exportState = some st ∧ st.exported ≠ []) ∧
          (m.removeMap iova size evtOk).value = .panic) ∨
        ∃ event m', (m.removeMap iova size evtOk).value = .ok (.ok (.success event), m') ∧
          ∀ x, x ∈ m'.mappings ↔ x ∈ m.mappings ∧ ¬ x.Within iova (iova + size))

lemma addsExactly (h : WellMapped m.maps) (map : MappingInfo) : m.AddsExactly map := by
  have hmt : Mappable map → ∀ x ∈ m.mappings,
      (x.Disjoint map ↔ ¬ x.Meets map.iova (map.iova + map.size)) := fun hmap x hx =>
    MappingInfo.disjoint_iff (forall_mappings (P := fun x => 0 < x.size).mpr h.pos x hx) hmap.1
  refine ⟨addMap_refuses, fun hmap hex => ?_, fun hmap ha => ?_⟩
  · rcases addMap_value h hmap with ⟨_, heq⟩ | ⟨hf, _⟩
    · exact heq
    · obtain ⟨x, hx, hn⟩ := hex
      exact absurd ((hmt hmap x hx).mpr (hf x hx)) hn
  · rcases addMap_value h hmap with ⟨⟨x, hx, hm⟩, _⟩ | ⟨hf, heq⟩
    · exact absurd hm ((hmt hmap x hx).mp (ha x hx))
    · exact ⟨_, heq, fun x => mem_mappings_insert h hmap hf⟩

lemma removesExactly (h : WellMapped m.maps) (iova size : Nat) (evtOk : Bool) :
    m.RemovesExactly iova size evtOk := by
  refine ⟨fun harg => ?_, fun hsz hend hex => ?_, fun hsz hend ha => ?_⟩
  · obtain ⟨e, heq⟩ := removeMap_refuses m evtOk harg
    exact ⟨e, by rw [heq]; rfl⟩
  · rcases removeMap_eq evtOk h hsz hend with ⟨_, heq⟩ | ⟨ha, _⟩
    · rw [heq]
      rfl
    · obtain ⟨x, hx, hs⟩ := hex
      exact absurd hs (ha x hx)
  · rcases removeMap_eq evtOk h hsz hend with ⟨⟨x, hx, hs⟩, _⟩ | ⟨_, heq⟩
    · exact absurd hs (ha x hx)
    rw [heq]
    rcases faultIfExported_value (m := m.unmapped iova (iova + size)) hsz hend with
      hp | ⟨event, st, hv⟩
    · exact .inl hp
    · exact .inr ⟨event, _, hv, fun x => mem_mappings_unmapped⟩

/-- **Mappings.** In every state that calls can reach, the mappings are not empty, fit, and
are disjoint, and the next call changes them exactly as it should. -/
theorem mappings_exact (mask : Nat) (ops : List MapperOp)
    (hrun : (Traced.runAll step ops (new mask)).value = .ok m) :
    (∀ x ∈ m.mappings, 0 < x.size ∧ x.iova + x.size < u64Size ∧ x.gpa + x.size < u64Size) ∧
      m.mappings.Pairwise MappingInfo.Disjoint ∧
      (∀ map, m.AddsExactly map) ∧ ∀ iova size evtOk, m.RemovesExactly iova size evtOk := by
  have h := run_wellMapped hrun
  refine ⟨?_, ?_, addsExactly h, removesExactly h⟩
  · exact forall_mappings.mpr fun e he => ⟨h.pos e he, h.fits e he, h.gpaFits e he⟩
  · refine pairwise_map.mpr (h.apart.imp fun hab x hx => ?_)
    simp only [MappingInfo.Covers] at hx
    omega

/-- Two mappings with a gap; a third one that meets both is reported. -/
theorem mappings_exact_gap :
    (new 0).AddsExactly ⟨0x1000, 0x8000, 0x1000, ⟨true, true⟩⟩ ∧
      ∃ m, (Traced.runAll step [.addMap ⟨0x1000, 0x8000, 0x1000, ⟨true, true⟩⟩,
          .addMap ⟨0x3000, 0x4000, 0x1000, ⟨true, false⟩⟩] (new 0)).value = .ok m ∧
        m.mappings.length = 2 ∧
        (m.addMap ⟨0x1800, 0, 0x2000, ⟨true, true⟩⟩).value = .ok (.ok .overlapFailure, m) ∧
        m.mappings.Pairwise MappingInfo.Disjoint := by
  refine ⟨(mappings_exact 0 [] rfl).2.2.1 _, _, rfl, rfl, rfl, ?_⟩
  exact (mappings_exact 0 [.addMap ⟨0x1000, 0x8000, 0x1000, ⟨true, true⟩⟩,
    .addMap ⟨0x3000, 0x4000, 0x1000, ⟨true, false⟩⟩] rfl).2.1

end BasicMemoryMapper

end GunyahVmm.Iommu
