import GunyahVmm.Iommu.MemoryMapper

/-! The table of mappings. They are disjoint, so looking at a few of them is enough. -/

namespace GunyahVmm.Iommu
open Run Resources BTreeMap List
namespace MappingInfo
section
variable (map : MappingInfo)

def Covers (x : Nat) : Prop := map.iova ≤ x ∧ x < map.iova + map.size

/-- The mapping and the range from `lo` to `hi` have an address in common. -/
def Meets (lo hi : Nat) : Prop := map.iova < hi ∧ lo < map.iova + map.size

def Within (lo hi : Nat) : Prop := lo ≤ map.iova ∧ map.iova + map.size ≤ hi

/-- The mapping lies on a boundary of the range. -/
def Straddles (lo hi : Nat) : Prop := map.Meets lo hi ∧ ¬ map.Within lo hi

end

def Disjoint (a b : MappingInfo) : Prop := ∀ x, ¬ (a.Covers x ∧ b.Covers x)

instance (map : MappingInfo) (lo hi : Nat) : Decidable (map.Within lo hi) :=
  inferInstanceAs (Decidable (_ ∧ _))

lemma disjoint_iff {a b : MappingInfo} (ha : 0 < a.size) (hb : 0 < b.size) :
    a.Disjoint b ↔ ¬ a.Meets b.iova (b.iova + b.size) := by
  simp only [Disjoint, Covers, Meets]
  constructor
  · intro h hm
    have hc := h (max a.iova b.iova)
    omega
  · intro h x hx
    omega

end MappingInfo

structure WellMapped (maps : BTreeMap Nat MappingInfo) : Prop where
  key : ∀ e ∈ maps.entries, e.1 = e.2.iova
  pos : ∀ e ∈ maps.entries, 0 < e.2.size
  fits : ∀ e ∈ maps.entries, e.2.iova + e.2.size < u64Size
  gpaFits : ∀ e ∈ maps.entries, e.2.gpa + e.2.size < u64Size
  apart : maps.entries.Pairwise fun a b => a.2.iova + a.2.size ≤ b.2.iova

variable {maps : BTreeMap Nat MappingInfo}

lemma wellMapped_empty : WellMapped .empty := ⟨nofun, nofun, nofun, nofun, .nil⟩

section
variable (h : WellMapped maps)
include h

lemma WellMapped.sublist {maps' : BTreeMap Nat MappingInfo}
    (hs : maps'.entries.Sublist maps.entries) : WellMapped maps' where
  key e he:= h.key e (hs.subset he)
  pos e he := h.pos e (hs.subset he)
  fits e he := h.fits e (hs.subset he)
  gpaFits e he := h.gpaFits e (hs.subset he)
  apart := h.apart.sublist hs

lemma WellMapped.below_or_above {a b : Nat × MappingInfo} (ha : a ∈ maps.entries)
    (hb : b ∈ maps.entries) (hne : a ≠ b) :
    a.2.iova + a.2.size ≤ b.2.iova ∨ b.2.iova + b.2.size ≤ a.2.iova := by
  let Side (a b : Nat × MappingInfo) : Prop :=
    a.2.iova + a.2.size ≤ b.2.iova ∨ b.2.iova + b.2.size ≤ a.2.iova
  have : Std.Symm Side := ⟨fun _ _ => Or.symm⟩
  have hs : maps.entries.Pairwise Side := h.apart.imp Or.inl
  exact hs.forall ha hb hne

lemma WellMapped.insert {map : MappingInfo} (hp : 0 < map.size)
    (hf : map.iova + map.size < u64Size) (hg : map.gpa + map.size < u64Size)
    (hfr : ∀ e ∈ maps.entries, ¬ e.2.Meets map.iova (map.iova + map.size)) :
    (∀ e, e ∈ (maps.insert map.iova map).entries ↔ e = (map.iova, map) ∨ e ∈ maps.entries) ∧
      WellMapped (maps.insert map.iova map) := by
  have hsd : ∀ e ∈ maps.entries,
      e.2.iova + e.2.size ≤ map.iova ∨ map.iova + map.size ≤ e.2.iova := by
    intro e he
    have hm := hfr e he
    simp only [MappingInfo.Meets, not_and_or, not_lt] at hm
    exact hm.symm
  have hk : ∀ e ∈ maps.entries, e.1 ≠ map.iova := by
    intro e he
    have hek := h.key e he
    have hep := h.pos e he
    have hs := hsd e he
    omega
  have hmem : ∀ e, e ∈ (maps.insert map.iova map).entries ↔
      e = (map.iova, map) ∨ e ∈ maps.entries := fun e => mem_insert hk
  have ha : ∀ (P : Nat × MappingInfo → Prop), P (map.iova, map) →
      (∀ e ∈ maps.entries, P e) → ∀ e ∈ (maps.insert map.iova map).entries, P e := by
    intro P hn ho e he
    rcases (hmem e).mp he with rfl | he
    · exact hn
    · exact ho e he
  refine ⟨hmem, ha _ rfl h.key, ha _ hp h.pos, ha _ hf h.fits, ha _ hg h.gpaFits, ?_⟩
  refine pairwise_insert h.apart ?_ ?_
  all_goals intro e he hlt
  all_goals have hek := h.key e he
  · have hs := hsd e he
    dsimp only
    omega
  · have hep := h.pos e he
    have hs := hsd e he
    dsimp only
    omega

lemma WellMapped.meets_iff (lo hi : Nat) :
    (∃ e ∈ maps.entries, e.2.Meets lo hi) ↔
      ∃ e, (maps.below hi).getLast? = some e ∧ lo < e.2.iova + e.2.size := by
  constructor
  · rintro ⟨e, he, hhi, hlo⟩
    have hb : e ∈ maps.below hi := mem_below.mpr ⟨he, by rw [h.key e he]; exact hhi⟩
    obtain ⟨l, hl⟩ : ∃ l, (maps.below hi).getLast? = some l := by
      rw [← Option.isSome_iff_exists, getLast?_isSome]
      exact ne_nil_of_mem hb
    refine ⟨l, hl, ?_⟩
    rcases rel_getLast (h.apart.sublist filter_sublist) hl hb with rfl | hr
    · exact hlo
    · omega
  · rintro ⟨e, hls, hlo⟩
    obtain ⟨he, hlt⟩ := mem_below.mp (mem_of_getLast? hls)
    refine ⟨e, he, ?_, hlo⟩
    rw [← h.key e he]
    exact hlt

end

namespace BasicMemoryMapper

def mappings (m : BasicMemoryMapper) : List MappingInfo := m.maps.entries.map Prod.snd

variable {map x : MappingInfo} {P : MappingInfo → Prop}

lemma exists_mappings {m : BasicMemoryMapper} :
    (∃ x ∈ m.mappings, P x) ↔ ∃ e ∈ m.maps.entries, P e.2 := by
  simp only [mappings, mem_map, exists_exists_and_eq_and]

lemma forall_mappings {m : BasicMemoryMapper} :
    (∀ x ∈ m.mappings, P x) ↔ ∀ e ∈ m.maps.entries, P e.2 :=
  forall_mem_map

/-! ## Adding -/

/-- The arguments that `add_map` does not refuse. -/
def Mappable (map : MappingInfo) : Prop :=
  0 < map.size ∧ map.iova + map.size < u64Size ∧ map.gpa + map.size < u64Size

variable {m : BasicMemoryMapper}

lemma mem_mappings_insert (h : WellMapped m.maps) (hm : Mappable map)
    (hf : ∀ x ∈ m.mappings, ¬ x.Meets map.iova (map.iova + map.size)) :
    x ∈ ({ m with maps := m.maps.insert map.iova map } : BasicMemoryMapper).mappings ↔
      x = map ∨ x ∈ m.mappings := by
  have hmem := (h.insert hm.1 hm.2.1 hm.2.2 (forall_mappings.mp hf)).1
  simp only [mappings, mem_map, hmem]
  constructor
  · rintro ⟨e, rfl | he, rfl⟩
    · exact .inl rfl
    · exact .inr ⟨e, he, rfl⟩
  · rintro (rfl | ⟨e, he, rfl⟩)
    · exact ⟨_, .inl rfl, rfl⟩
    · exact ⟨e, .inr he, rfl⟩

lemma addMap_value (h : WellMapped m.maps) (hmap : Mappable map) :
    ((∃ x ∈ m.mappings, x.Meets map.iova (map.iova + map.size)) ∧
        (m.addMap map).value = .ok (.ok .overlapFailure, m)) ∨
      ((∀ x ∈ m.mappings, ¬ x.Meets map.iova (map.iova + map.size)) ∧
        (m.addMap map).value = .ok (.ok .ok, { m with maps := m.maps.insert map.iova map })) := by
  obtain ⟨hp, hf, hg⟩ := hmap
  have hi := (exists_mappings (P := (·.Meets map.iova (map.iova + map.size)))).trans
    (h.meets_iff map.iova (map.iova + map.size))
  have hn := not_congr hi
  simp only [not_exists, not_and] at hn
  rw [hi, hn]
  unfold addMap
  rw [if_neg (by omega), checkedAdd_eq_some.mpr ⟨hf, rfl⟩]
  rw [checkedAdd_eq_some.mpr ⟨hg, rfl⟩]
  dsimp only
  cases hl : (m.maps.below (map.iova + map.size)).getLast? with
  | none => exact .inr ⟨by simp, rfl⟩
  | some e =>
    have he := (mem_below.mp (mem_of_getLast? hl)).1
    rw [Traced.value_bind, Traced.lift_value, addU64_of_lt (h.fits e he), Outcome.ok_bind]
    by_cases hm : map.iova < e.2.iova + e.2.size
    · exact .inl ⟨⟨e, rfl, hm⟩, by rw [if_pos hm]; rfl⟩
    refine .inr ⟨?_, by rw [if_neg hm]; rfl⟩
    rintro _ ⟨⟩
    exact hm

lemma addMap_refuses (hm : ¬ Mappable map) : ∃ e, (m.addMap map).value = .ok (.error e, m) := by
  unfold addMap
  split
  · exact ⟨_, rfl⟩
  split
  · exact ⟨_, rfl⟩
  rename_i hend
  obtain ⟨hf, rfl⟩ := checkedAdd_eq_some.mp hend
  split
  · exact ⟨_, rfl⟩
  rename_i hg
  obtain ⟨hgpa, _⟩ := checkedAdd_eq_some.mp hg
  exact absurd ⟨by omega, hf, hgpa⟩ hm

/-! ## Removing -/

lemma toBeRemoved_eq (lo hi : Nat) (l : List (Nat × MappingInfo))
    (hf : ∀ e ∈ l, e.2.iova + e.2.size < u64Size) (hp : ∀ e ∈ l, 0 < e.2.size)
    (hhi : ∀ e ∈ l, e.2.iova < hi) (hd : l.Pairwise fun a b => b.2.iova + b.2.size ≤ a.2.iova) :
    ((∃ e ∈ l, e.2.Straddles lo hi) → toBeRemoved lo hi l = .ok none) ∧
      ((∀ e ∈ l, ¬ e.2.Straddles lo hi) → toBeRemoved lo hi l =
        .ok (some ((l.filter fun e => e.2.Within lo hi).map Prod.fst))) := by
  induction hd with
  | nil => simp [toBeRemoved]
  | @cons e l he _ ih =>
    obtain ⟨ihsome, ihnone⟩ := ih (forall_mem_cons.mp hf).2
      (forall_mem_cons.mp hp).2
      (forall_mem_cons.mp hhi).2
    have hfit := hf e mem_cons_self
    have hehi := hhi e mem_cons_self
    have hep := hp e mem_cons_self
    rw [toBeRemoved, addU64_of_lt hfit, Outcome.ok_bind]
    by_cases hpre : e.2.iova + e.2.size ≤ lo
    · -- the rest of the list lies below this mapping, and so below the range
      have hm : ∀ x ∈ e :: l, ¬ x.2.Meets lo hi ∧ ¬ x.2.Within lo hi := by
        intro x hx
        have hxp := hp x hx
        have hxle : x.2.iova + x.2.size ≤ lo := by
          rcases mem_cons.mp hx with rfl | hx
          · exact hpre
          · have := he x hx
            omega
        simp only [MappingInfo.Meets, MappingInfo.Within]
        omega
      rw [if_pos hpre]
      refine ⟨?_, fun _ => ?_⟩
      · rintro ⟨x, hx, hs, _⟩
        exact absurd hs (hm x hx).1
      · have hn : (e :: l).filter (fun x => x.2.Within lo hi) = [] := by
          rw [filter_eq_nil_iff]
          intro x hx
          simpa using (hm x hx).2
        rw [hn]
        rfl
    · rw [if_neg hpre]
      by_cases hw : e.2.Within lo hi
      · have hno : ¬ e.2.Straddles lo hi := fun hs => hs.2 hw
        have hc : lo ≤ e.2.iova ∧ e.2.iova + e.2.size ≤ hi := hw
        rw [if_pos hc]
        refine ⟨?_, fun ha => ?_⟩
        · rintro ⟨x, hx, hs⟩
          rcases mem_cons.mp hx with rfl | hx
          · exact absurd hs hno
          · rw [ihsome ⟨x, hx, hs⟩]
            rfl
        · rw [ihnone (forall_mem_cons.mp ha).2,
            filter_cons_of_pos (by simpa using hw)]
          rfl
      · have hst : e.2.Straddles lo hi := ⟨⟨hehi, by omega⟩, hw⟩
        have hc : ¬ (lo ≤ e.2.iova ∧ e.2.iova + e.2.size ≤ hi) := hw
        rw [if_neg hc]
        exact ⟨fun _ => rfl, fun ha => absurd hst (ha e mem_cons_self)⟩

lemma removeKeys_eq_ok (keys : List Nat) : ∀ maps : BTreeMap Nat MappingInfo, keys.Nodup →
    (∀ k ∈ keys, ∃ e ∈ maps.entries, e.1 = k) → ∃ maps', removeKeys maps keys = .ok maps' ∧
      maps'.entries = maps.entries.filter fun e => e.1 ∉ keys := by
  induction keys with
  | nil =>
    intro maps _ _
    exact ⟨maps, rfl, by simp⟩
  | cons k keys ih =>
    intro maps hnd hky
    obtain ⟨hk, hnd⟩ := nodup_cons.mp hnd
    have hc : maps.contains k = true := by
      obtain ⟨e, he, hek⟩ := hky k mem_cons_self
      exact any_eq_true.mpr ⟨e, he, by simpa using hek⟩
    obtain ⟨maps', hr, hen⟩ := ih (maps.remove k) hnd (by
      intro k' hk'
      obtain ⟨e, he, rfl⟩ := hky k' (mem_cons_of_mem _ hk')
      exact ⟨e, mem_remove.mpr ⟨he, fun h => hk (h ▸ hk')⟩, rfl⟩)
    refine ⟨maps', ?_, ?_⟩
    · rw [removeKeys, if_pos hc]
      exact hr
    · rw [hen, BTreeMap.remove, filter_filter]
      refine filter_congr fun e _ => ?_
      simp [Bool.and_comm]

/-- The table without the mappings in the range. -/
def unmapped (m : BasicMemoryMapper) (lo hi : Nat) : BasicMemoryMapper :=
  { m with maps := m.maps.retain fun e => !decide (e.2.Within lo hi) }

lemma mem_mappings_unmapped {lo hi : Nat} :
    x ∈ (m.unmapped lo hi).mappings ↔ x ∈ m.mappings ∧ ¬ x.Within lo hi := by
  simp only [mappings, unmapped, BTreeMap.retain, mem_map, mem_filter,
    Bool.not_eq_true', decide_eq_false_iff_not]
  constructor
  · rintro ⟨e, ⟨he, hw⟩, rfl⟩
    exact ⟨⟨e, he, rfl⟩, hw⟩
  · rintro ⟨⟨e, he, rfl⟩, hw⟩
    exact ⟨e, ⟨he, hw⟩, rfl⟩

variable {iovaStart size : Nat} {evtOk : Bool}

lemma removeMap_eq (evtOk : Bool) (h : WellMapped m.maps) (hsz : 0 < size)
    (hend : iovaStart + size < u64Size) :
    ((∃ x ∈ m.mappings, x.Straddles iovaStart (iovaStart + size)) ∧
        m.removeMap iovaStart size evtOk = returns m .overlapFailure) ∨
      ((∀ x ∈ m.mappings, ¬ x.Straddles iovaStart (iovaStart + size)) ∧
        m.removeMap iovaStart size evtOk =
          faultIfExported (m.unmapped iovaStart (iovaStart + size)) iovaStart size evtOk) := by
  generalize hhi : iovaStart + size = hi at hend
  have hmem : ∀ e, e ∈ (m.maps.below hi).reverse ↔ e ∈ m.maps.entries ∧ e.2.iova < hi := by
    intro e
    rw [mem_reverse, mem_below]
    refine and_congr_right fun he => ?_
    rw [h.key e he]
  obtain ⟨hsm, hn⟩ := toBeRemoved_eq iovaStart hi (m.maps.below hi).reverse
    (fun e he => h.fits e ((hmem e).mp he).1) (fun e he => h.pos e ((hmem e).mp he).1)
    (fun e he => ((hmem e).mp he).2)
    (pairwise_reverse.mpr (h.apart.sublist filter_sublist))
  unfold removeMap
  rw [if_neg (by omega), checkedAdd_eq_some.mpr ⟨by omega, hhi.symm⟩]
  dsimp only
  rw [exists_mappings, forall_mappings]
  by_cases hc : ∃ e ∈ m.maps.entries, e.2.Straddles iovaStart hi
  · refine .inl ⟨hc, ?_⟩
    obtain ⟨e, he, hs⟩ := hc
    rw [hsm ⟨e, (hmem e).mpr ⟨he, hs.1.1⟩, hs⟩]
    rfl
  · have ha : ∀ e ∈ m.maps.entries, ¬ e.2.Straddles iovaStart hi := fun e he hs => hc ⟨e, he, hs⟩
    refine .inr ⟨ha, ?_⟩
    rw [hn fun e he => ha e ((hmem e).mp he).1, Traced.lift_ok_bind]
    dsimp only
    -- a key is removed exactly with the mapping it belongs to
    have hky : ∀ e ∈ m.maps.entries, e.1 ∈ (((m.maps.below hi).reverse.filter
        fun e => e.2.Within iovaStart hi).map Prod.fst) ↔ e.2.Within iovaStart hi := by
      intro e he
      simp only [mem_map, mem_filter, hmem, decide_eq_true_eq]
      constructor
      · rintro ⟨e', ⟨⟨he', _⟩, hw⟩, hkey⟩
        rw [← eq_of_key_eq he' he hkey]
        exact hw
      · intro hw
        have hp := h.pos e he
        have hle := hw.2
        exact ⟨e, ⟨⟨he, by omega⟩, hw⟩, rfl⟩
    obtain ⟨maps', hr, hen⟩ := removeKeys_eq_ok (((m.maps.below hi).reverse.filter
        fun e => e.2.Within iovaStart hi).map Prod.fst) m.maps
      (pairwise_map.mpr (((m.maps.below_reverse_sorted hi).sublist
        filter_sublist).imp fun hlt => (ne_of_lt hlt).symm))
      (by
        intro k hk
        obtain ⟨e, he, rfl⟩ := mem_map.mp hk
        exact ⟨e, ((hmem e).mp (mem_of_mem_filter he)).1, rfl⟩)
    have hm : maps' = m.maps.retain fun e => !decide (e.2.Within iovaStart hi) := by
      obtain ⟨entries', sorted'⟩ := maps'
      simp only [BTreeMap.retain, BTreeMap.mk.injEq]
      refine hen.trans (filter_congr fun e he => ?_)
      rw [← decide_not, decide_eq_decide, hky e he]
    rw [hr, Traced.lift_ok_bind, hm]
    rfl

lemma removeMap_refuses (m : BasicMemoryMapper) (evtOk : Bool)
    (h : ¬ (0 < size ∧ iovaStart + size < u64Size)) :
    ∃ e, m.removeMap iovaStart size evtOk = fails m e := by
  unfold removeMap
  split
  · exact ⟨_, rfl⟩
  split
  · exact ⟨_, rfl⟩
  · rename_i hend
    exact absurd ⟨by omega, (checkedAdd_eq_some.mp hend).1⟩ h

/-! ## Faults -/

lemma onFault_cases (st : ExportState) (evtOk : Bool) :
    (st.unfaulted = false ∧ st.onFault evtOk = pure (none, st)) ∨
      (st.unfaulted = true ∧ evtOk = true ∧ st.onFault evtOk =
        ⟨[.fault st.session], .ok (some st.session, { st with unfaulted := false })⟩) ∨
      (st.unfaulted = true ∧ evtOk = false ∧ st.onFault evtOk = ⟨[.fault st.session], .panic⟩) := by
  unfold ExportState.onFault
  cases st.unfaulted <;> cases evtOk <;> simp <;> rfl

lemma fromStartAndSize_eq_some (hs : 0 < size) (hend : iovaStart + size < u64Size) :
    fromStartAndSize iovaStart size = some ⟨iovaStart, iovaStart + size - 1⟩ := by
  unfold fromStartAndSize
  rw [if_neg (by omega), checkedAdd_eq_some.mpr ⟨by omega, rfl⟩]
  simp only [Option.map_some, Option.some.injEq, AddressRange.mk.injEq, true_and]
  omega

lemma faultIfExported_eq (m : BasicMemoryMapper) (evtOk : Bool) (hs : 0 < size)
    (hend : iovaStart + size < u64Size) :
    ((∀ st, m.exportState = some st → ∀ r ∈ st.exported,
          r.overlaps ⟨iovaStart, iovaStart + size - 1⟩ = false) ∧
        m.faultIfExported iovaStart size evtOk = returns m (.success none)) ∨
      ∃ st, m.exportState = some st ∧
        (∃ r ∈ st.exported, r.overlaps ⟨iovaStart, iovaStart + size - 1⟩ = true) ∧
        m.faultIfExported iovaStart size evtOk = (do
          let (event, st) ← st.onFault evtOk
          returns { m with exportState := some st } (.success event)) := by
  unfold faultIfExported
  cases hst : m.exportState with
  | none => exact .inl ⟨by simp, rfl⟩
  | some st =>
    dsimp only
    rw [fromStartAndSize_eq_some hs hend, Outcome.expect, Traced.lift_ok_bind]
    by_cases ha : st.exported.any (·.overlaps ⟨iovaStart, iovaStart + size - 1⟩) = true
    · exact .inr ⟨st, rfl, any_eq_true.mp ha, by rw [if_pos ha]⟩
    refine .inl ⟨?_, by rw [if_neg ha]⟩
    rintro _ ⟨⟩ r hr
    rw [Bool.eq_false_iff]
    exact fun ho => ha (any_eq_true.mpr ⟨r, hr, ho⟩)

lemma faultIfExported_value (hs : 0 < size) (hend : iovaStart + size < u64Size) :
    (evtOk = false ∧ (∃ st, m.exportState = some st ∧ st.exported ≠ []) ∧
        (m.faultIfExported iovaStart size evtOk).value = .panic) ∨
      ∃ event st, (m.faultIfExported iovaStart size evtOk).value =
        .ok (.ok (.success event), { m with exportState := st }) := by
  rcases faultIfExported_eq m evtOk hs hend with
    ⟨_, heq⟩ | ⟨st, hst, ⟨r, hr, _⟩, heq⟩
  · exact .inr ⟨none, m.exportState, by rw [heq]; rfl⟩
  rw [heq, Traced.value_bind]
  rcases onFault_cases st evtOk with ⟨_, hf⟩ | ⟨_, _, hf⟩ | ⟨_, hevt, hf⟩
  · exact .inr ⟨_, some st, by rw [hf]; rfl⟩
  · exact .inr ⟨_, some { st with unfaulted := false }, by rw [hf]; rfl⟩
  · exact .inl ⟨hevt, ⟨st, hst, ne_nil_of_mem hr⟩, by rw [hf]; rfl⟩

end BasicMemoryMapper

end GunyahVmm.Iommu
