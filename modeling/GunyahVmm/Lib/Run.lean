import Mathlib.Data.List.Basic

/-! Calls and runs. A call returns, fails or aborts the process; a run stops at the first abort. The
induction over runs is `run_invariant`. -/

namespace GunyahVmm.Run
open List

/-- What one call does. `panic` is the abort of the process. -/
inductive Outcome (ε α : Type) where
  | ok (a : α)
  | err (e : ε)
  | panic
  deriving DecidableEq

namespace Outcome
variable {ε α β : Type}

/-- Go on with the value; an error or an abort ends the call. -/
def bind (x : Outcome ε α) (f : α → Outcome ε β) : Outcome ε β :=
  match x with
  | ok a => f a
  | err e => err e
  | panic => panic

def expect : Option α → Outcome ε α
  | some a => ok a
  | none => panic

def unwrap : Outcome ε α → Outcome ε α
  | ok a => ok a
  | _ => panic

def okAnd (x : Outcome ε α) (p : α → Bool) : Bool :=
  match x with
  | ok a => p a
  | _ => false

def isPanic : Outcome ε α → Bool
  | panic => true
  | _ => false

def okAll (x : Outcome ε α) (p : α → Bool) : Bool :=
  match x with
  | ok a => p a
  | _ => true

instance : Monad (Outcome ε) where
  pure := ok
  bind := bind

variable {x : Outcome ε α} {p : α → Bool}

lemma okAnd_iff : x.okAnd p = true ↔ ∃ a, x = ok a ∧ p a = true := by
  cases x <;> simp [okAnd]

lemma exists_ok {P : α → Prop} [DecidablePred P] (h : x.okAnd (fun a => P a) = true) :
    ∃ a, x = ok a ∧ P a := by
  obtain ⟨a, ha, hp⟩ := okAnd_iff.mp h
  exact ⟨a, ha, of_decide_eq_true hp⟩

lemma exists_eq_ok (h : x.okAnd (fun _ => true) = true) : ∃ a, x = ok a := by
  obtain ⟨a, ha, -⟩ := okAnd_iff.mp h
  exact ⟨a, ha⟩

lemma isPanic_iff : x.isPanic = true ↔ x = panic := by
  cases x <;> simp [isPanic]

lemma okAll_iff : x.okAll p = true ↔ ∀ a, x = ok a → p a = true := by
  cases x <;> simp [okAll]

lemma bind_eq_ok {f : α → Outcome ε β} {b : β} :
    (x >>= f) = ok b ↔ ∃ a, x = ok a ∧ f a = ok b := by
  cases x with
  | ok a =>
    constructor
    · intro h
      exact ⟨a, rfl, h⟩
    · rintro ⟨_, h, hf⟩
      cases h
      exact hf
  | err | panic =>
    constructor
    · intro h
      cases h
    · rintro ⟨_, h, _⟩
      cases h

@[simp] lemma ok_bind (a : α) (f : α → Outcome ε β) : (ok a >>= f) = f a := rfl

@[simp] lemma err_bind (e : ε) (f : α → Outcome ε β) : (err e >>= f) = err e := rfl

@[simp] lemma panic_bind (f : α → Outcome ε β) : (panic >>= f) = panic := rfl

@[simp] lemma pure_eq_ok (a : α) : (pure a : Outcome ε α) = ok a := rfl

/-! ## Calls that do not abort -/

/-- The call does not abort, and a value that it returns satisfies `P`. -/
def Yields (x : Outcome ε α) (P : α → Prop) : Prop :=
  match x with
  | ok a => P a
  | err _ => True
  | panic => False

section Yields
variable {x : Outcome ε α} {f : α → Outcome ε β} {P : α → Prop} {Q : β → Prop}

@[simp] lemma yields_ok {a : α} : (ok a : Outcome ε α).Yields P ↔ P a := Iff.rfl

@[simp] lemma yields_err {e : ε} : (err e : Outcome ε α).Yields P := trivial

lemma yields_iff : x.Yields P ↔ x ≠ panic ∧ ∀ a, x = ok a → P a := by
  cases x <;> simp [Yields]

lemma Yields.mono {P' : α → Prop} (h : x.Yields P) (hP : ∀ a, P a → P' a) : x.Yields P' := by
  rw [yields_iff] at h ⊢
  exact ⟨h.1, fun a ha => hP a (h.2 a ha)⟩

lemma Yields.bind (hx : x.Yields P) (hf : ∀ a, P a → (f a).Yields Q) : (x >>= f).Yields Q := by
  cases x with
  | ok a => exact hf a hx
  | err e => trivial
  | panic => exact hx

/-- **Loop rule.** What every round keeps, the loop keeps. -/
lemma Yields.foldlM {σ : Type} {f : σ → α → Outcome ε σ} (I : σ → Prop) {l : List α} :
    ∀ {s : σ}, I s → (∀ s, ∀ a ∈ l, I s → (f s a).Yields I) → (l.foldlM f s).Yields I := by
  induction l with
  | nil => exact fun hs _ => hs
  | cons a l ih =>
    intro s hs hf
    rw [foldlM_cons]
    refine (hf s a mem_cons_self hs).bind fun s' hs' => ih hs' ?_
    exact fun t b hb ht => hf t b (mem_cons_of_mem _ hb) ht

end Yields

/-! ## Calls that do not abort under a condition -/

/-- A value that the call returns satisfies `P`, and the call does not abort if `c` holds. -/
def YieldsIf (c : Prop) (x : Outcome ε α) (P : α → Prop) : Prop :=
  match x with
  | ok a => P a
  | err _ => True
  | panic => ¬ c

section YieldsIf
variable {c : Prop} {x : Outcome ε α} {f : α → Outcome ε β} {P : α → Prop} {Q : β → Prop}

@[simp] lemma yieldsIf_err {e : ε} : YieldsIf c (err e : Outcome ε α) P := trivial

lemma Yields.yieldsIf (h : x.Yields P) : YieldsIf c x P := by
  cases x with
  | panic => exact h.elim
  | _ => exact h

lemma yieldsIf_iff : YieldsIf c x P ↔ (c → x ≠ panic) ∧ ∀ a, x = ok a → P a := by
  cases x <;> simp [YieldsIf]

lemma YieldsIf.mono {P' : α → Prop} (h : YieldsIf c x P) (hP : ∀ a, P a → P' a) :
    YieldsIf c x P' := by
  rw [yieldsIf_iff] at h ⊢
  exact ⟨h.1, fun a ha => hP a (h.2 a ha)⟩

lemma YieldsIf.bind (hx : YieldsIf c x P) (hf : ∀ a, P a → YieldsIf c (f a) Q) :
    YieldsIf c (x >>= f) Q := by
  cases x with
  | ok a => exact hf a hx
  | err e => trivial
  | panic => exact hx

end YieldsIf

end Outcome

variable {σ ω : Type}

/-- Perform the operations in order; `none` once one of them aborts. -/
def run (step : σ → ω → Option σ) : List ω → σ → Option σ
  | [], s => some s
  | op :: ops, s => (step s op).bind (run step ops)

variable {step : σ → ω → Option σ}

@[simp] lemma run_nil (step : σ → ω → Option σ) (s : σ) : run step [] s = some s := rfl

lemma run_cons (step : σ → ω → Option σ) (op : ω) (ops : List ω) (s : σ) :
    run step (op :: ops) s = (step s op).bind (run step ops) := rfl

lemma run_cons_eq_some {op : ω} {ops : List ω} {s t : σ} :
    run step (op :: ops) s = some t ↔ ∃ s', step s op = some s' ∧ run step ops s' = some t := by
  rw [run_cons, Option.bind_eq_some_iff]

lemma run_append (step : σ → ω → Option σ) (ops ops' : List ω) (s : σ) :
    run step (ops ++ ops') s = (run step ops s).bind (run step ops') := by
  induction ops generalizing s with
  | nil => rfl
  | cons op ops ih =>
    rw [cons_append, run_cons, run_cons, Option.bind_assoc]
    exact congrArg _ (funext ih)

/-- **Run rule.** What every step keeps, every run keeps. -/
lemma run_invariant (Inv : σ → Prop) (hst : ∀ s op s', Inv s → step s op = some s' → Inv s') :
    ∀ (ops : List ω) (s t : σ), Inv s → run step ops s = some t → Inv t := by
  intro ops
  induction ops with
  | nil =>
    intro s t hs hr
    cases hr
    exact hs
  | cons op ops ih =>
    intro s t hs hr
    obtain ⟨s', hs', hrs⟩ := run_cons_eq_some.mp hr
    exact ih s' t (hst s op s' hs hs') hrs

/-- **Run rule with the past.** An invariant of the state and of all operations so far. -/
lemma run_history (Inv : List ω → σ → Prop)
    (hst : ∀ past s op s', Inv past s → step s op = some s' → Inv (past ++ [op]) s') :
    ∀ (ops past : List ω) (s t : σ), Inv past s → run step ops s = some t →
      Inv (past ++ ops) t := by
  intro ops
  induction ops with
  | nil =>
    intro past s t hs hr
    cases hr
    rwa [append_nil]
  | cons op ops ih =>
    intro past s t hs hr
    obtain ⟨s', hs', hrs⟩ := run_cons_eq_some.mp hr
    rw [append_cons]
    exact ih _ s' t (hst past s op s' hs hs') hrs

/-- **Run rule for operations that do not abort.** -/
lemma run_completes (step : σ → ω → Option σ) (Inv : List ω → σ → Prop) (ops : List ω)
    (hst : ∀ past s, ∀ op ∈ ops, Inv past s → ∃ s', step s op = some s' ∧ Inv (past ++ [op]) s') :
    ∀ (past : List ω) (s : σ), Inv past s → ∃ t, run step ops s = some t ∧ Inv (past ++ ops) t := by
  induction ops with
  | nil =>
    intro past s hs
    exact ⟨s, rfl, by rwa [append_nil]⟩
  | cons op ops ih =>
    intro past s hs
    obtain ⟨s', hs', hi⟩ := hst past s op mem_cons_self hs
    obtain ⟨t, ht, hend⟩ := ih (fun past s op hop => hst past s op (mem_cons_of_mem _ hop))
      (past ++ [op]) s' hi
    rw [append_cons]
    exact ⟨t, run_cons_eq_some.mpr ⟨s', hs', ht⟩, hend⟩

end GunyahVmm.Run
