import GunyahVmm.Lib.Run

/-! Reading a source piece by piece until it gives nothing. -/

namespace GunyahVmm
open Run
variable {σ ε β : Type} {next : σ → Outcome ε (List β × σ)} {s : σ} {out : List β}

/-- The pieces that a source yields one after the other, up to the first empty one. -/
inductive Drains (next : σ → Outcome ε (List β × σ)) : σ → List β → Prop where
  | done {s s' : σ} (hnext : next s = .ok ([], s')) : Drains next s []
  | more {s s' : σ} {data rest : List β} (hnext : next s = .ok (data, s')) (hdata : data ≠ [])
      (hrest : Drains next s' rest) : Drains next s (data ++ rest)

lemma Drains.unique {out' : List β} (h : Drains next s out) (h' : Drains next s out') :
    out = out' := by
  induction h generalizing out' with
  | done hn =>
    cases h' with
    | done _ => rfl
    | more hn' hd' _ =>
      rw [hn] at hn'
      cases hn'
      contradiction
  | more hn hd _ ih =>
    cases h' with
    | done hn' =>
      rw [hn] at hn'
      cases hn'
      contradiction
    | more hn' _ hr' =>
      rw [hn] at hn'
      cases hn'
      rw [ih hr']

/-- A source that gives a part of what is left, and none only at the end, yields all. -/
lemma drains_iff (Left : σ → List β → Prop)
    (hs : ∀ s tail, Left s tail → ∃ data s' rest, next s = .ok (data, s') ∧ tail = data ++ rest ∧
      Left s' rest ∧ (data = [] → tail = []))
    {tail : List β} (h : Left s tail) : Drains next s out ↔ out = tail := by
  have hdr : Drains next s tail := by
    -- Each piece that is not empty leaves less.
    induction hn : tail.length using Nat.strongRecOn generalizing s tail with
    | ind n ih =>
      obtain ⟨data, s', rest, hnx, rfl, hl, hend⟩ := hs s tail h
      by_cases hd : data = []
      · subst hd
        rw [hend rfl]
        exact .done hnx
      · have hp := List.length_pos_of_ne_nil hd
        rw [List.length_append] at hn
        exact .more hnx hd (ih rest.length (by omega) hl rfl)
  exact ⟨fun ho => ho.unique hdr, fun ho => ho ▸ hdr⟩

end GunyahVmm
