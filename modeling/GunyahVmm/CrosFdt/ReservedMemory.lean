import GunyahVmm.CrosFdt.Overlay

/-! Merging reserved memory: entries that touch or overlap become one. -/

namespace GunyahVmm.CrosFdt
open Run Outcome List
namespace FdtReserveEntry

def stop (e : FdtReserveEntry) : Nat := e.address.toNat + e.size.toNat

def Covers (e : FdtReserveEntry) (byte : Nat) : Prop := e.address.toNat ≤ byte ∧ byte < e.stop

/-- At least one byte lies between the entries. -/
def Gap (a b : FdtReserveEntry) : Prop := a.stop < b.address.toNat

end FdtReserveEntry

open FdtReserveEntry
variable {entry next : FdtReserveEntry} {base newEntries rest result : List FdtReserveEntry}
  {byte : Nat}

def Reserved (entries : List FdtReserveEntry) (byte : Nat) : Prop := ∃ e ∈ entries, e.Covers byte

lemma reserved_cons : Reserved (entry :: rest) byte ↔ entry.Covers byte ∨ Reserved rest byte := by
  simp [Reserved]

lemma reserved_append :
    Reserved (result ++ rest) byte ↔ Reserved result byte ∨ Reserved rest byte := by
  simp only [Reserved, mem_append, or_and_right, exists_or]

def grown (entry next : FdtReserveEntry) : FdtReserveEntry :=
  { entry with size := BitVec.ofNat 64 (max entry.stop next.stop - entry.address.toNat) }

lemma stop_grown (hent : entry.stop < u64Size) (hn : next.stop < u64Size) :
    (grown entry next).stop = max entry.stop next.stop := by
  have hm : max entry.stop next.stop < 2 ^ 64 := max_lt hent hn
  rw [stop, grown, BitVec.toNat_ofNat, Nat.mod_eq_of_lt (Nat.lt_of_le_of_lt (Nat.sub_le _ _) hm)]
  exact Nat.add_sub_of_le ((Nat.le_add_right _ _).trans (le_max_left _ _))

lemma pairwise_push (hd : result.Pairwise Gap)
    (hf : ∀ a ∈ result, a.stop < entry.address.toNat) : (result ++ [entry]).Pairwise Gap :=
  pairwise_append.mpr ⟨hd, pairwise_singleton _ _, fun a ha _ hb =>
    mem_singleton.mp hb ▸ hf a ha⟩

/-- `entry` is compared with the entries behind it; those of `result` are merged already. -/
lemma mergeEntries_spec (hf : ∀ e ∈ entry :: rest, e.stop < u64Size)
    (hs : (entry :: rest).Pairwise fun a b => a.address.toNat ≤ b.address.toNat)
    (hd : result.Pairwise Gap) (hfar : ∀ a ∈ result, a.stop < entry.address.toNat) :
    ∃ merged, mergeEntries entry rest result = .ok merged ∧ merged.Pairwise Gap ∧
      ∀ byte, Reserved merged byte ↔ Reserved (result ++ entry :: rest) byte := by
  induction rest generalizing entry result with
  | nil => exact ⟨_, rfl, pairwise_push hd hfar, fun _ => .rfl⟩
  | cons next rest ih =>
    obtain ⟨hent, hn, hr⟩ := by simpa only [forall_mem_cons] using hf
    obtain ⟨⟨hle, hb⟩, hs⟩ := by
      simpa only [pairwise_cons, forall_mem_cons] using hs
    have hst := stop_grown hent hn
    have hmax : max entry.stop next.stop < u64Size := max_lt hent hn
    rw [mergeEntries, addU64_of_lt hent, ok_bind]
    split
    · rename_i ht
      rw [addU64_of_lt hn, ok_bind, subU64_of_le (by omega)]
      obtain ⟨merged, hm, hg, hc⟩ := ih
        (forall_mem_cons.mpr ⟨hst.trans_lt hmax, hr⟩)
        (pairwise_cons.mpr ⟨hb, hs.2⟩) hd hfar
      refine ⟨merged, hm, hg, fun byte => ?_⟩
      have hu : (grown entry next).Covers byte ↔ entry.Covers byte ∨ next.Covers byte := by
        rw [Covers, hst, grown]
        unfold Covers
        dsimp only
        change _ ≤ entry.stop at ht
        omega
      rw [hc, reserved_append, reserved_cons, hu, or_assoc, ← reserved_cons,
        ← reserved_cons, ← reserved_append]
    · rename_i hgap
      have hf' : ∀ a ∈ result ++ [entry], a.stop < next.address.toNat :=
        forall_mem_append.mpr ⟨fun a ha => (hfar a ha).trans_le hle,
          forall_mem_singleton.mpr (not_le.mp hgap)⟩
      obtain ⟨merged, hm, hg, hc⟩ := ih (forall_mem_cons.mpr ⟨hn, hr⟩)
        (pairwise_cons.mpr hs) (pairwise_push hd hfar) hf'
      refine ⟨merged, hm, hg, fun byte => ?_⟩
      rw [hc, append_assoc]
      rfl

lemma mergeResvmem_spec (h : ∀ e ∈ base ++ newEntries, e.stop < u64Size) :
    ∃ merged, mergeResvmem base newEntries = .ok merged ∧ merged.Pairwise Gap ∧
      ∀ byte, Reserved merged byte ↔ Reserved (base ++ newEntries) byte := by
  let r := fun a b : FdtReserveEntry => b.address.toNat ≤ a.address.toNat
  have hm (e : FdtReserveEntry) : e ∈ ((base ++ newEntries).insertionSort r).reverse ↔
      e ∈ base ++ newEntries := mem_reverse.trans (perm_insertionSort r _).mem_iff
  have hs := pairwise_reverse.mpr (pairwise_insertionSort r (base ++ newEntries))
  unfold mergeResvmem
  dsimp only
  split
  · rename_i hn
    refine ⟨[], rfl, .nil, fun byte => ?_⟩
    unfold Reserved
    simp only [← hm, r, hn]
  · rename_i entry rest hc
    simp only [r, hc] at hm hs
    obtain ⟨merged, hmrg, hg, hcov⟩ := mergeEntries_spec
      (fun e he => h e ((hm e).mp he)) hs .nil (forall_mem_nil _)
    refine ⟨merged, hmrg, hg, fun byte => (hcov byte).trans ?_⟩
    simp [Reserved, hm]

/-- **Reserved memory.** Entries that end below 2^64 are merged to a list in the order of the
addresses. Behind every entry but the last there is a byte that none of them covers, and
together they cover what the two lists do. -/
theorem mergeResvmem_union (h : ∀ e ∈ base ++ newEntries, e.stop ≤ 2 ^ 64 - 1) :
    ∃ merged, mergeResvmem base newEntries = .ok merged ∧
      (merged.Pairwise fun a b => a.address.toNat ≤ b.address.toNat) ∧
      (∀ front a b back, merged = front ++ a :: b :: back →
        ∃ byte, a.stop ≤ byte ∧ byte < b.address.toNat ∧ ¬ Reserved merged byte) ∧
      ∀ byte, Reserved merged byte ↔ Reserved base byte ∨ Reserved newEntries byte := by
  obtain ⟨merged, hm, hg, hc⟩ := mergeResvmem_spec
    fun e he => Nat.lt_of_le_of_lt (h e he) (by decide)
  refine ⟨merged, hm, hg.imp fun hab => (Nat.le_add_right _ _).trans hab.le, ?_,
    fun byte => (hc byte).trans reserved_append⟩
  rintro front a b back rfl
  simp only [pairwise_append, pairwise_cons, mem_cons, forall_eq_or_imp] at hg
  obtain ⟨-, ⟨⟨hab, -⟩, hb, -⟩, hf⟩ := hg
  -- the byte right behind `a`
  refine ⟨a.stop, le_rfl, hab, ?_⟩
  rw [reserved_append, reserved_cons, reserved_cons]
  rintro (⟨e, he, hc⟩ | hc | hc | ⟨e, he, hc⟩)
  · exact absurd ((hf e he).1.trans_le (Nat.le_add_right _ _)) hc.2.not_gt
  · exact lt_irrefl _ hc.2
  · exact absurd hab hc.1.not_gt
  · exact absurd (hab.trans_le ((Nat.le_add_right _ _).trans (hb e he).le)) hc.1.not_gt

theorem mergeResvmem_union_touching :
    ∃ merged, mergeResvmem [⟨1000, 100⟩, ⟨2000, 500⟩] [⟨1050, 950⟩, ⟨2501, 9⟩] = .ok merged ∧
      Reserved merged 2499 := by
  obtain ⟨merged, hm, -, -, hc⟩ :=
    @mergeResvmem_union [⟨1000, 100⟩, ⟨2000, 500⟩] [⟨1050, 950⟩, ⟨2501, 9⟩] (by decide)
  exact ⟨merged, hm, (hc 2499).mpr (.inl ⟨⟨2000, 500⟩, by decide, by decide, by decide⟩)⟩

end GunyahVmm.CrosFdt
