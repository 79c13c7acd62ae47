import GunyahVmm.Virtio.DiskTransfer

/-! Rules for handlers. `Keeps mayAbort J x`: however `x` ends, the calls satisfy `J`, and `x` has
not aborted unless it may. -/

namespace GunyahVmm.Virtio
open Run Handler
variable {σ ε ε' α β : Type} {mayAbort : Prop} {J : List HostCall → Prop} {x : Handler σ ε α}

def Keeps (mayAbort : Prop) (J : List HostCall → Prop) (x : Handler σ ε α) : Prop :=
  ∀ io, J io.calls →
    Ends (x io) (fun _ io' => J io'.calls) (fun e io' => (e = .abort → mayAbort) ∧ J io'.calls)

lemma Keeps.bind {x : Handler σ ε β} {f : β → Handler σ ε α} (hx : Keeps mayAbort J x)
    (hf : ∀ b, Keeps mayAbort J (f b)) : Keeps mayAbort J (x >>= f) :=
  fun io hio => ends_bind (hx io hio) fun b io' hio' => hf b io' hio'

lemma keeps_pure (a : α) : Keeps mayAbort J (pure a : Handler σ ε α) := fun _ hio => hio

lemma keeps_fail (e : ε) : Keeps mayAbort J (fail e : Handler σ ε α) :=
  fun _ hio => ⟨fun h => absurd h Stop.returned_ne_abort, hio⟩

lemma keeps_abort (h : mayAbort) : Keeps mayAbort J (throw .abort : Handler σ ε α) :=
  fun _ hio => ⟨fun _ => h, hio⟩

lemma keeps_get : Keeps mayAbort J (get : Handler σ ε (Io σ)) := fun _ hio => hio

lemma keeps_ite {p : Prop} [Decidable p] {y : Handler σ ε α} (hx : p → Keeps mayAbort J x)
    (hy : ¬ p → Keeps mayAbort J y) : Keeps mayAbort J (if p then x else y) := by
  split
  all_goals rename_i hp
  · exact hx hp
  · exact hy hp

lemma keeps_of_calls_eq
    (h : ∀ io, Ends (x io) (fun _ io' => io'.calls = io.calls)
      (fun e io' => e ≠ .abort ∧ io'.calls = io.calls)) :
    Keeps mayAbort J x := by
  intro io hio
  refine (h io).mono ?_ ?_
  · intro _ io' heq
    rwa [heq]
  · rintro e io' ⟨he, heq⟩
    exact ⟨fun h => absurd h he, by rwa [heq]⟩

lemma Keeps.mapErr {f : ε → ε'} (hx : Keeps mayAbort J x) : Keeps mayAbort J (mapErr f x) := by
  intro io hio
  have h := hx io hio
  unfold Handler.mapErr
  cases hend : x io with
  | ok a io' =>
    rw [hend] at h
    exact h
  | error e io' =>
    rw [hend] at h
    cases e with
    | returned e => exact ⟨fun h => absurd h Stop.returned_ne_abort, h.2⟩
    | abort => exact ⟨fun _ => h.1 rfl, h.2⟩

/-! ## The chain -/

lemma keeps_writeAll (bytes : List (BitVec 8)) :
    Keeps mayAbort J (writeAll bytes : Handler σ IoError Unit) :=
  keeps_of_calls_eq (writeAll_ends bytes)

lemma keeps_peekObj (β : Type) [FromBytes β] :
    Keeps mayAbort J (peekObj β : Handler σ IoError β) :=
  keeps_get.bind fun _ => keeps_ite (fun _ => keeps_fail _) fun _ => keeps_pure _

lemma keeps_readObj (β : Type) [FromBytes β] :
    Keeps mayAbort J (readObj β : Handler σ IoError β) := by
  refine keeps_of_calls_eq fun io => ?_
  rcases Nat.lt_or_ge io.reader.availableBytes (FromBytes.size β) with hs | hl
  · rw [readObj_of_lt hs]
    exact ⟨Stop.returned_ne_abort, rfl⟩
  · rw [readObj_of_le hl]
    exact rfl

lemma keeps_readExact (count : Nat) :
    Keeps mayAbort J (readExact count : Handler σ IoError (List (BitVec 8))) := by
  refine keeps_of_calls_eq fun io => ?_
  unfold readExact
  rw [get_bind_apply, set_bind_apply]
  split
  · exact ⟨Stop.returned_ne_abort, rfl⟩
  · exact rfl

end GunyahVmm.Virtio
