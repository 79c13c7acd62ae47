import GunyahVmm.Iommu.Steps
import Mathlib.Algebra.GroupWithZero.Nat

/-! The export of a range, byte by byte. The loop walks the mappings down and joins neighbours. -/

namespace GunyahVmm.Iommu
open Run Resources MemRegion List

/-- The guest addresses of a region in order, each with the protection. -/
def MemRegion.bytes (r : MemRegion) : List (Nat × Protection) :=
  (List.range' r.gpa r.len).map fun gpa => (gpa, r.prot)

def MappingInfo.translate (map : MappingInfo) (x : Nat) : Nat × Protection :=
  (map.gpa + (x - map.iova), map.prot)

instance (map : MappingInfo) (x : Nat) : Decidable (map.Covers x) :=
  inferInstanceAs (Decidable (_ ∧ _))

/-- What the table says about an I/O address. -/
def translate (maps : BTreeMap Nat MappingInfo) (x : Nat) : Option (Nat × Protection) :=
  (maps.entries.find? fun e => e.2.Covers x).map fun e => e.2.translate x

lemma MemRegion.bytes_append (gpa n k : Nat) (prot : Protection) :
    bytes ⟨gpa, n, prot⟩ ++ bytes ⟨gpa + n, k, prot⟩ = bytes ⟨gpa, n + k, prot⟩ := by
  simp only [bytes]
  rw [← map_append, range'_append_1]

@[simp] lemma MemRegion.length_bytes (r : MemRegion) : r.bytes.length = r.len := by
  simp [bytes]

section Translation
variable {maps : BTreeMap Nat MappingInfo} {e : Nat × MappingInfo} {x : Nat}

lemma translate_eq_none : translate maps x = none ↔ ∀ e ∈ maps.entries, ¬ e.2.Covers x := by
  simp [translate]

/-- The mappings are disjoint, so the one found is the one that covers the address. -/
lemma WellMapped.translate_eq (h : WellMapped maps) (he : e ∈ maps.entries)
    (hx : e.2.Covers x) : translate maps x = some (e.2.translate x) := by
  unfold translate
  cases hf : maps.entries.find? fun e => e.2.Covers x with
  | none => exact absurd (by simpa using hx) (find?_eq_none.mp hf e he)
  | some e' =>
    have hx' : e'.2.Covers x := by simpa using find?_some hf
    have he' : e' ∈ maps.entries := mem_of_find?_eq_some hf
    suffices hs : e' = e by rw [hs]; rfl
    by_contra hne
    have hsd := h.below_or_above he' he hne
    simp only [MappingInfo.Covers] at hx hx'
    omega

lemma WellMapped.map_translate (h : WellMapped maps) (he : e ∈ maps.entries) {a n : Nat}
    (ha : e.2.iova ≤ a) (hn : a + n ≤ e.2.iova + e.2.size) :
    (range' a n).map (translate maps) =
      (bytes ⟨e.2.gpa + (a - e.2.iova), n, e.2.prot⟩).map some := by
  refine ext_getElem (by simp) fun k hk _ => ?_
  simp only [length_map, length_range'] at hk
  simp only [bytes, getElem_map, getElem_range', Nat.one_mul]
  rw [h.translate_eq he ⟨by omega, by omega⟩]
  simp only [MappingInfo.translate]
  congr 2
  omega

end Translation

def Translated (maps : BTreeMap Nat MappingInfo) (lo hi : Nat) (regions : List MemRegion) : Prop :=
  (regions.flatMap bytes).map some = (List.range' lo (hi - lo)).map (translate maps)

lemma Translated.length {maps : BTreeMap Nat MappingInfo} {lo hi : Nat}
    {regions : List MemRegion} (h : Translated maps lo hi regions) :
    (regions.flatMap bytes).length = hi - lo := by
  simpa using congrArg List.length h

/-- The translation of a range goes on with that of the addresses before it. -/
lemma Translated.cons {maps : BTreeMap Nat MappingInfo} {a b hi : Nat} {r : MemRegion}
    {regions : List MemRegion} (h : Translated maps b hi regions) (hab : a ≤ b) (hb : b ≤ hi)
    (hr : r.bytes.map some = (range' a (b - a)).map (translate maps)) :
    Translated maps a hi (r :: regions) := by
  unfold Translated at h ⊢
  rw [flatMap_cons, map_append, hr, h, ← map_append]
  congr 1
  have hs : hi - a = (b - a) + (hi - b) := by omega
  rw [hs, ← range'_append_1, Nat.add_sub_cancel' hab]

namespace BasicMemoryMapper
variable {maps : BTreeMap Nat MappingInfo} {e : Nat × MappingInfo} {a b hi : Nat}
  {regions : List MemRegion}

/-- One turn: with the first address moved to `a`, the regions are the translation from `a` on. -/
lemma pushRegion_eq (h : WellMapped maps) (he : e ∈ maps.entries) (hea : e.2.iova ≤ a)
    (hab : a ≤ b) (hbe : b ≤ e.2.iova + e.2.size) (hb : b ≤ hi) (hhi : hi < u64Size)
    (hr : Translated maps b hi regions) (hn : regions ≠ [] → e.2.iova + e.2.size = b) :
    ∃ first rest, pushRegion e.2 (b - a) regions = .ok (first :: rest) ∧
      first.gpa = e.2.gpa ∧
      Translated maps a hi ({ first with gpa := e.2.gpa + (a - e.2.iova) } :: rest) := by
  have hp := h.map_translate he hea (n := b - a) (by omega)
  cases regions with
  | nil => exact ⟨_, _, rfl, rfl, hr.cons hab hb hp.symm⟩
  | cons last rest =>
    have hend := hn (cons_ne_nil _ _)
    have hg := h.gpaFits e he
    by_cases hj : wrappingAdd e.2.gpa e.2.size = last.gpa ∧ e.2.prot = last.prot
    · have hl : last.len ≤ hi - b := by
        rw [← hr.length, flatMap_cons, length_append, length_bytes]
        omega
      refine ⟨{ last with gpa := e.2.gpa, len := last.len + (b - a) }, rest, ?_, rfl, ?_⟩
      · rw [pushRegion, if_pos hj, addU64_of_lt (by omega)]
        rfl
      · -- the region found before starts where this mapping ends
        have hf : last.gpa = e.2.gpa + (a - e.2.iova) + (b - a) := by
          rw [← hj.1, wrappingAdd_of_lt hg]
          omega
        have hs := hr.cons hab hb hp.symm
        unfold Translated at hs ⊢
        rw [← hs, flatMap_cons, flatMap_cons, flatMap_cons, ← append_assoc]
        obtain ⟨gpa, len, prot⟩ := last
        obtain rfl : gpa = _ := hf
        obtain rfl : prot = _ := hj.2.symm
        rw [bytes_append, Nat.add_comm len]
    · refine ⟨_, _, by rw [pushRegion, if_neg hj], rfl, ?_⟩
      exact hr.cons hab hb hp.symm

/-- **The loop.** From the translation from `lastIova` on it gets the whole one, or fails at a hole.
-/
lemma exportLoop_spec (h : WellMapped maps) {iova size : Nat} (hhi : hi < u64Size) :
    ∀ (l : List (Nat × MappingInfo)) (lastIova : Nat) (regions : List MemRegion),
      iova < lastIova → lastIova ≤ hi →
      (∀ e, e ∈ l ↔ e ∈ maps.entries ∧ e.2.iova < lastIova) →
      l.Pairwise (fun a b => b.2.iova + b.2.size ≤ a.2.iova) →
      Translated maps lastIova hi regions →
      (regions ≠ [] → ∀ e ∈ l, e.2.iova + e.2.size ≤ lastIova) →
      (∃ found, exportLoop iova size l lastIova regions = .ok (.ok found) ∧
          Translated maps iova hi found) ∨
        ((∃ err, exportLoop iova size l lastIova regions = .ok (.error err)) ∧
          ∃ x, iova ≤ x ∧ x < hi ∧ translate maps x = none) := by
  intro l
  induction l with
  | nil =>
    intro lastIova regions hlt hle hl _ _ _
    refine .inr ⟨⟨_, rfl⟩, lastIova - 1, by omega, by omega, translate_eq_none.mpr ?_⟩
    intro e he hc
    have hm := (hl e).mpr ⟨he, by have := hc.1; omega⟩
    cases hm
  | cons e l ih =>
    intro lastIova regions hlt hle hl hd hr hb
    obtain ⟨hel, hd⟩ := pairwise_cons.mp hd
    obtain ⟨he, hels⟩ := (hl e).mp mem_cons_self
    have hf := h.fits e he
    rw [exportLoop, addU64_of_lt hf, Outcome.ok_bind]
    by_cases hh : e.2.iova + e.2.size < lastIova
    · rw [if_pos hh]
      refine .inr ⟨⟨_, rfl⟩, lastIova - 1, by omega, by omega, translate_eq_none.mpr ?_⟩
      intro e' he' hc
      have hm := (hl e').mpr ⟨he', by have := hc.1; omega⟩
      have hls := hc.2
      rcases mem_cons.mp hm with rfl | hm
      · omega
      · have := hel e' hm
        omega
    · rw [if_neg hh]
      have hn : regions ≠ [] → e.2.iova + e.2.size = lastIova := by
        intro hne
        have := hb hne e mem_cons_self
        omega
      obtain ⟨first, rest, hp, hfst, ht⟩ := pushRegion_eq h he
        (le_max_left e.2.iova iova) (by omega) (by omega) hle hhi hr hn
      rw [subU64_of_le (by omega), Outcome.ok_bind, hp, Outcome.ok_bind]
      by_cases hdn : e.2.iova ≤ iova
      · have hg := h.gpaFits e he
        rw [if_pos hdn, checkedAdd_eq_some.mpr ⟨by omega, rfl⟩]
        rw [max_eq_right hdn] at ht
        exact .inl ⟨_, rfl, ht⟩
      · rw [if_neg hdn]
        rw [max_eq_left (by omega), Nat.sub_self, Nat.add_zero, ← hfst] at ht
        refine ih e.2.iova (first :: rest) (by omega) (by omega) ?_ hd ht fun _ => hel
        intro e'
        constructor
        · intro he'
          have hpos := h.pos e' ((hl e').mp (mem_cons_of_mem _ he')).1
          have := hel e' he'
          exact ⟨((hl e').mp (mem_cons_of_mem _ he')).1, by omega⟩
        · rintro ⟨he', hlt'⟩
          have hm := (hl e').mpr ⟨he', by omega⟩
          rcases mem_cons.mp hm with rfl | hm
          · omega
          · exact hm

variable {m : BasicMemoryMapper} {iova size : Nat} {found : List MemRegion}

def Mapped (m : BasicMemoryMapper) (x : Nat) : Prop := ∃ map ∈ m.mappings, map.Covers x

lemma mapped_iff {x : Nat} : m.Mapped x ↔ translate m.maps x ≠ none := by
  rw [ne_eq, translate_eq_none, Mapped, exists_mappings]
  simp

/-- The range is not empty, fits, and has no hole. -/
def Exportable (m : BasicMemoryMapper) (iova size : Nat) : Prop :=
  0 < size ∧ iova + size < u64Size ∧ ∀ x, iova ≤ x → x < iova + size → m.Mapped x

lemma exportLoop_mapper (h : WellMapped m.maps) (hs : 0 < size)
    (hend : iova + size < u64Size) :
    (∃ found, exportLoop iova size (m.maps.below (iova + size)).reverse (iova + size) [] =
          .ok (.ok found) ∧ Translated m.maps iova (iova + size) found) ∨
      ((∃ err, exportLoop iova size (m.maps.below (iova + size)).reverse (iova + size) [] =
          .ok (.error err)) ∧
        ∃ x, iova ≤ x ∧ x < iova + size ∧ translate m.maps x = none) := by
  refine exportLoop_spec h hend _ _ _ (by omega) (le_refl _) ?_ ?_ ?_ (fun hne => absurd rfl hne)
  · intro e
    rw [mem_reverse, BTreeMap.mem_below]
    refine and_congr_right fun he => ?_
    rw [h.key e he]
  · exact pairwise_reverse.mpr (h.apart.sublist filter_sublist)
  · simp [Translated]

/-- Where the loop has returned regions there is no hole. -/
lemma mapped_of_translated (h : Translated m.maps iova (iova + size) found) {x : Nat}
    (hlo : iova ≤ x) (hhi : x < iova + size) : m.Mapped x := by
  rw [mapped_iff]
  intro hn
  have hm : translate m.maps x ∈ (found.flatMap bytes).map some := by
    unfold Translated at h
    rw [h]
    exact mem_map_of_mem (mem_range'_1.mpr ⟨hlo, by omega⟩)
  rw [hn] at hm
  simp at hm

/-- The byte `k` of the regions is what the table says about the address `iova + k`. -/
lemma byte_of_translated (h : Translated m.maps iova (iova + size) found) {k : Nat}
    (hk : k < size) : (found.flatMap bytes)[k]? = translate m.maps (iova + k) := by
  have hg := congrArg (·[k]?) h
  simp only [getElem?_map, Nat.add_sub_cancel_left, getElem?_range' hk,
    Option.map_some, Nat.one_mul] at hg
  cases hb : (found.flatMap bytes)[k]? with
  | none => simp [hb] at hg
  | some byte =>
    rw [hb] at hg
    exact Option.some.inj hg

lemma exportRange_unfaulted {st : ExportState} (hst : m.exportState = some st)
    (hun : st.unfaulted = true) (hs : 0 < size) (hend : iova + size < u64Size) :
    m.exportRange iova size =
      Traced.lift (exportLoop iova size (m.maps.below (iova + size)).reverse (iova + size) [])
        >>= fun
          | .error e => fails m e
          | .ok regions => returns
            (m.withSession { st with exported := st.exported ++ [⟨iova, iova + size - 1⟩] })
            regions := by
  simp only [exportRange, hst, ExportState.canExport, hun]
  rw [if_neg (by simp), if_neg (by omega), checkedAdd_eq_some.mpr ⟨hend, rfl⟩]
  rfl

/-- **Export.** In every state that calls can reach, a session without a fault exports exactly
the ranges without a hole, and the client gets the guest memory behind every address of the
range in order. A call that fails changes nothing. -/
theorem export_exact (mask : Nat) (ops : List MapperOp)
    (hrun : (Traced.runAll step ops (new mask)).value = .ok m) {st : ExportState}
    (hst : m.exportState = some st) (hun : st.unfaulted = true) (iova size : Nat) :
    (m.Exportable iova size → ∃ regions m',
        (m.exportRange iova size).value = .ok (.ok regions, m') ∧
          (regions.map len).sum = size ∧
          ∀ k < size, ∃ map ∈ m.mappings, map.Covers (iova + k) ∧
            (regions.flatMap bytes)[k]? = some (map.translate (iova + k))) ∧
      (¬ m.Exportable iova size → ∃ e, (m.exportRange iova size).value = .ok (.error e, m)) := by
  have h := run_wellMapped hrun
  constructor
  · rintro ⟨hs, hend, ha⟩
    rcases exportLoop_mapper h hs hend with ⟨found, hl, ht⟩ | ⟨_, x, hlo, hhi, hn⟩
    · refine ⟨found, _, by rw [exportRange_unfaulted hst hun hs hend, hl]; rfl, ?_, ?_⟩
      · have hlen := ht.length
        rw [length_flatMap, Nat.add_sub_cancel_left] at hlen
        simpa using hlen
      · intro k hk
        obtain ⟨map, hm, hc⟩ := ha (iova + k) (by omega) (by omega)
        obtain ⟨e, he, rfl⟩ := mem_map.mp hm
        refine ⟨e.2, hm, hc, ?_⟩
        rw [byte_of_translated ht hk, h.translate_eq he hc]
    · exact absurd hn (mapped_iff.mp (ha x hlo hhi))
  · intro hnot
    by_cases hs : 0 < size
    · by_cases hend : iova + size < u64Size
      · rcases exportLoop_mapper h hs hend with ⟨found, _, ht⟩ | ⟨⟨e, hl⟩, _⟩
        · exact absurd ⟨hs, hend, fun x hlo hhi => mapped_of_translated ht hlo hhi⟩ hnot
        · exact ⟨e, by rw [exportRange_unfaulted hst hun hs hend, hl]; rfl⟩
      · have hadd : checkedAdd iova size = none := checkedAdd_eq_none.mpr (by omega)
        have hf : m.exportRange iova size = fails m .iovaOverflow := by
          simp only [exportRange, hst, ExportState.canExport, hun, hadd]
          rw [if_neg (by simp), if_neg (by omega)]
        exact ⟨_, by rw [hf]; rfl⟩
    · have hf : m.exportRange iova size = fails m .zeroSized := by
        simp only [exportRange, hst, ExportState.canExport, hun]
        rw [if_neg (by simp), if_pos (by omega)]
      exact ⟨_, by rw [hf]; rfl⟩

/-- Two mappings that are neighbours and go on in guest memory are exported as one region; a
range that goes on behind them is refused. -/
theorem export_exact_neighbours :
    ∃ m st, (Traced.runAll step [.addMap ⟨0x1000, 0x8000, 0x1000, ⟨true, true⟩⟩,
          .addMap ⟨0x2000, 0x9000, 0x1000, ⟨true, true⟩⟩, .startExportSession true]
        (new 0)).value = .ok m ∧ m.exportState = some st ∧ st.unfaulted = true ∧
      (∃ m', (m.exportRange 0x1800 0x1000).value = .ok (.ok [⟨0x8800, 0x1000, ⟨true, true⟩⟩], m')) ∧
      ∃ e, (m.exportRange 0x1800 0x2000).value = .ok (.error e, m) := by
  refine ⟨_, _, rfl, rfl, rfl, ⟨_, rfl⟩, ?_⟩
  refine (export_exact 0 [.addMap ⟨0x1000, 0x8000, 0x1000, ⟨true, true⟩⟩,
    .addMap ⟨0x2000, 0x9000, 0x1000, ⟨true, true⟩⟩, .startExportSession true] rfl rfl rfl
    0x1800 0x2000).2 ?_
  rintro ⟨_, _, ha⟩
  obtain ⟨map, hm, hc⟩ := ha 0x3000 (by decide) (by decide)
  revert map
  decide

end BasicMemoryMapper

end GunyahVmm.Iommu
