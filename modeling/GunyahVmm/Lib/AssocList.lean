import Mathlib.Data.List.AList

/-! Association lists as key-value stores: what insertion and removal do to the
entries as a whole. -/

namespace GunyahVmm.AssocList
variable {κ : Type} {β : κ → Type} [DecidableEq κ]

lemma entries_perm_of_lookup {s : AList β} {k : κ} {v : β k} (h : s.lookup k = some v) :
    s.entries.Perm (⟨k, v⟩ :: (s.erase k).entries) := by
  have hm := AList.mem_lookup_iff.mp h
  obtain ⟨w, l₁, l₂, hn, hen, her⟩ := List.exists_of_kerase (List.mem_keys_of_mem hm)
  have hw : w = v := by
    have hl : s.lookup k = some w := AList.mem_lookup_iff.mpr (by rw [hen]; simp)
    rw [hl] at h
    exact Option.some.inj h
  change s.entries.Perm (⟨k, v⟩ :: s.entries.kerase k)
  rw [her, hen, hw]
  exact List.perm_middle

end GunyahVmm.AssocList
