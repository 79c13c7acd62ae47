import Mathlib.Logic.Basic

/-! Calls on a state that may fail part-way, and then keep what they had done. -/

namespace GunyahVmm.Run
variable {ε σ α β : Type}

/-- The call ended as `Q` says if it succeeded, and as `E` says if it failed. -/
def Ends (r : EStateM.Result ε σ α) (Q : α → σ → Prop) (E : ε → σ → Prop) : Prop :=
  match r with
  | .ok a s => Q a s
  | .error e s => E e s

section
variable {Q Q' : α → σ → Prop} {E E' : ε → σ → Prop} {s : σ}
variable {x : EStateM ε σ β} {f : β → EStateM ε σ α}

@[simp] lemma ends_ok {a : α} : Ends (.ok a s : EStateM.Result ε σ α) Q E ↔ Q a s := Iff.rfl

@[simp] lemma ends_error {e : ε} : Ends (.error e s : EStateM.Result ε σ α) Q E ↔ E e s := Iff.rfl

lemma Ends.mono {r : EStateM.Result ε σ α} (h : Ends r Q E) (hQ : ∀ a s, Q a s → Q' a s)
    (hE : ∀ e s, E e s → E' e s) : Ends r Q' E' := by
  cases r with
  | ok a s => exact hQ a s h
  | error e s => exact hE e s h

/-- However the call ended, the state is as `P` says. -/
abbrev Leaves (r : EStateM.Result ε σ α) (P : σ → Prop) : Prop := Ends r (fun _ => P) fun _ => P

lemma Leaves.imp {r : EStateM.Result ε σ α} {P P' : σ → Prop} (h : Leaves r P)
    (hP : ∀ s, P s → P' s) : Leaves r P' :=
  h.mono (fun _ => hP) fun _ => hP

lemma ends_bind {R : β → σ → Prop} (hx : Ends (x s) R E)
    (hf : ∀ b s', R b s' → Ends (f b s') Q E) : Ends ((x >>= f) s) Q E := by
  change Ends (EStateM.bind x f s) Q E
  unfold EStateM.bind
  cases h : x s with
  | ok b s' =>
    rw [h] at hx
    exact hf b s' hx
  | error e s' =>
    rw [h] at hx
    exact hx

/-- **Loop rule with an accumulator.** -/
lemma ends_foldlM {γ : Type} {xs : List γ} {f : α → γ → EStateM ε σ α} {I : α → σ → Prop} {a : α}
    (hs : I a s) (hf : ∀ x ∈ xs, ∀ a s, I a s → Ends (f a x s) I E) :
    Ends (xs.foldlM f a s) I E := by
  induction xs generalizing a s with
  | nil => exact hs
  | cons x rest ih =>
    rw [List.foldlM_cons]
    refine ends_bind (hf x List.mem_cons_self a s hs) fun b s' hs' => ?_
    exact ih hs' fun y hy => hf y (List.mem_cons_of_mem x hy)

lemma bind_of_ok {b : β} {s' : σ} (hx : x s = .ok b s') : (x >>= f) s = f b s' := by
  change EStateM.bind x f s = f b s'
  simp only [EStateM.bind, hx]

lemma bind_of_error {e : ε} {s' : σ} (hx : x s = .error e s') : (x >>= f) s = .error e s' := by
  change EStateM.bind x f s = .error e s'
  simp only [EStateM.bind, hx]

end

/-! ## Steps that only touch the state -/

section
variable (f : α → EStateM ε σ β) (s : σ)

@[simp] lemma pure_apply (a : α) : (pure a : EStateM ε σ α) s = .ok a s := rfl

@[simp] lemma throw_apply (e : ε) : (throw e : EStateM ε σ α) s = .error e s := rfl

@[simp] lemma throw_bind_apply (e : ε) : (throw e >>= f) s = .error e s := rfl

@[simp] lemma pure_bind_apply (a : α) : ((pure a : EStateM ε σ α) >>= f) s = f a s := rfl

@[simp] lemma get_bind_apply (f : σ → EStateM ε σ β) : (get >>= f) s = f s s := rfl

@[simp] lemma set_apply (t : σ) : (set t : EStateM ε σ PUnit) s = .ok ⟨⟩ t := rfl

@[simp] lemma set_bind_apply (t : σ) (f : PUnit → EStateM ε σ β) :
    ((set t : EStateM ε σ PUnit) >>= f) s = f ⟨⟩ t := rfl

@[simp] lemma modify_apply (g : σ → σ) : (modify g : EStateM ε σ PUnit) s = .ok ⟨⟩ (g s) := rfl

@[simp] lemma modify_bind_apply (g : σ → σ) (f : PUnit → EStateM ε σ β) :
    ((modify g : EStateM ε σ PUnit) >>= f) s = f ⟨⟩ (g s) := rfl

end

end GunyahVmm.Run
