import GunyahVmm.Lib.Run

/-! Calls that leave a trace, which stays when the call ends in an error or an abort. -/

namespace GunyahVmm.Run

/-- What one call does, after the actions of its trace. -/
structure Traced (ι ε α : Type) where
  trace : List ι
  value : Outcome ε α

namespace Traced
variable {ι ε ε' α β : Type}

/-- Go on with the value; an error or an abort keeps the trace so far. -/
def bind (x : Traced ι ε α) (f : α → Traced ι ε β) : Traced ι ε β :=
  match x.value with
  | .ok a => ⟨x.trace ++ (f a).trace, (f a).value⟩
  | .err e => ⟨x.trace, .err e⟩
  | .panic => ⟨x.trace, .panic⟩

instance : Monad (Traced ι ε) where
  pure a := ⟨[], .ok a⟩
  bind := bind

def act (i : ι) : Traced ι ε Unit := ⟨[i], .ok ()⟩

/-- A call that does nothing to the outside. -/
def lift (x : Outcome ε α) : Traced ι ε α := ⟨[], x⟩

/-- Return the result, error or not, to a caller that looks at it. -/
def attempt (x : Traced ι ε α) : Traced ι ε' (Except ε α) :=
  match x.value with
  | .ok a => ⟨x.trace, .ok (.ok a)⟩
  | .err e => ⟨x.trace, .ok (.error e)⟩
  | .panic => ⟨x.trace, .panic⟩

def mapErr (x : Traced ι ε α) (f : ε → ε') : Traced ι ε' α :=
  match x.value with
  | .ok a => ⟨x.trace, .ok a⟩
  | .err e => ⟨x.trace, .err (f e)⟩
  | .panic => ⟨x.trace, .panic⟩

/-- Take the value; an error aborts. -/
def unwrap (x : Traced ι ε α) : Traced ι ε' α :=
  match x.value with
  | .ok a => ⟨x.trace, .ok a⟩
  | _ => ⟨x.trace, .panic⟩

/-- Every action the call takes, whatever its outcome, satisfies `P`. -/
def Only (P : ι → Prop) (x : Traced ι ε α) : Prop := ∀ i ∈ x.trace, P i

variable {x : Traced ι ε α} {f : α → Traced ι ε β} {a : α}

@[simp] lemma pure_value (a : α) : (pure a : Traced ι ε α).value = .ok a := rfl

@[simp] lemma lift_value (x : Outcome ε α) : (lift x : Traced ι ε α).value = x := rfl

@[simp] lemma act_value (i : ι) : (act i : Traced ι ε Unit).value = .ok () := rfl

lemma value_bind (x : Traced ι ε α) (f : α → Traced ι ε β) :
    (x >>= f).value = x.value >>= fun a => (f a).value := by
  change (bind x f).value = Outcome.bind x.value _
  unfold bind Outcome.bind
  cases x.value <;> rfl

lemma bind_value_eq_ok {b : β} :
    (x >>= f).value = .ok b ↔ ∃ a, x.value = .ok a ∧ (f a).value = .ok b := by
  rw [value_bind, Outcome.bind_eq_ok]

lemma bind_value_eq_panic :
    (x >>= f).value = .panic ↔ x.value = .panic ∨ ∃ a, x.value = .ok a ∧ (f a).value = .panic := by
  rw [value_bind]
  cases hx : x.value with
  | ok a => simp
  | err e =>
    change (Outcome.err e : Outcome ε β) = .panic ↔ _
    simp
  | panic =>
    change (Outcome.panic : Outcome ε β) = .panic ↔ _
    simp

lemma trace_bind_of_ok (h : x.value = .ok a) : (x >>= f).trace = x.trace ++ (f a).trace := by
  change (bind x f).trace = _
  simp only [bind, h]

/-- What follows a call adds nothing to the trace if it never acts. -/
lemma trace_bind_of_silent (hf : ∀ a, (f a).trace = []) : (x >>= f).trace = x.trace := by
  change (bind x f).trace = _
  unfold bind
  cases x.value <;> simp [hf]

lemma lift_ok_bind (a : α) (f : α → Traced ι ε β) : (lift (.ok a) >>= f) = f a := rfl

lemma map_value_eq_ok {f : α → β} {b : β} :
    (f <$> x).value = .ok b ↔ ∃ a, x.value = .ok a ∧ f a = b := by
  change (x >>= fun a => pure (f a)).value = _ ↔ _
  simp [bind_value_eq_ok]

@[simp] lemma map_trace (f : α → β) (x : Traced ι ε α) : (f <$> x).trace = x.trace :=
  trace_bind_of_silent fun _ => rfl

@[simp] lemma mapErr_trace (x : Traced ι ε α) (f : ε → ε') : (x.mapErr f).trace = x.trace := by
  unfold mapErr
  cases x.value <;> rfl

lemma mapErr_value_eq_ok {f : ε → ε'} : (x.mapErr f).value = .ok a ↔ x.value = .ok a := by
  unfold mapErr
  cases x.value <;> simp

lemma mapErr_value_eq_panic {f : ε → ε'} : (x.mapErr f).value = .panic ↔ x.value = .panic := by
  unfold mapErr
  cases x.value <;> simp

@[simp] lemma attempt_trace (x : Traced ι ε α) : (x.attempt : Traced ι ε' _).trace = x.trace := by
  unfold attempt
  cases x.value <;> rfl

lemma attempt_value_eq_ok :
    (x.attempt : Traced ι ε' _).value = .ok (.ok a) ↔ x.value = .ok a := by
  unfold attempt
  cases x.value <;> simp

lemma attempt_value_eq_panic : (x.attempt : Traced ι ε' _).value = .panic ↔ x.value = .panic := by
  unfold attempt
  cases x.value <;> simp

lemma unwrap_value_of_ok (h : x.value = .ok a) : (x.unwrap : Traced ι ε' α).value = .ok a := by
  unfold unwrap
  rw [h]

/-! ## Actions of a call -/

section Only
variable {P : ι → Prop}
variable {x : Traced ι ε α}

@[simp] lemma only_pure (a : α) : (pure a : Traced ι ε α).Only P := by
  intro i hi
  cases hi

@[simp] lemma only_lift (x : Outcome ε α) : (lift x : Traced ι ε α).Only P := by
  intro i hi
  cases hi

@[simp] lemma only_attempt : (x.attempt : Traced ι ε' _).Only P ↔ x.Only P := by
  simp [Only]

/-- **Sequence rule.** A call and what follows it keep to `P`. -/
lemma only_bind (hx : x.Only P) (hf : ∀ a, x.value = .ok a → (f a).Only P) :
    (x >>= f).Only P := by
  intro i hi
  change i ∈ (bind x f).trace at hi
  unfold bind at hi
  cases hv : x.value with
  | ok a =>
    simp only [hv, List.mem_append] at hi
    rcases hi with hi | hi
    · exact hx i hi
    · exact hf a hv i hi
  | err | panic =>
    simp only [hv] at hi
    exact hx i hi

/-- The call acts within `P` and does not abort. -/
structure Safe (P : ι → Prop) (x : Traced ι ε α) : Prop where
  only : x.Only P
  returns : x.value ≠ .panic

lemma safe_pure (a : α) : (pure a : Traced ι ε α).Safe P := ⟨only_pure a, nofun⟩

lemma Safe.attempt (h : x.Safe P) : (x.attempt : Traced ι ε' _).Safe P :=
  ⟨only_attempt.mpr h.only, fun hv => h.returns (attempt_value_eq_panic.mp hv)⟩

lemma Safe.bind (hx : x.Safe P) (hf : ∀ a, x.value = .ok a → (f a).Safe P) :
    (x >>= f).Safe P := by
  refine ⟨only_bind hx.only fun a ha => (hf a ha).only, fun hv => ?_⟩
  rcases bind_value_eq_panic.mp hv with h | ⟨a, ha, h⟩
  · exact hx.returns h
  · exact (hf a ha).returns h

end Only

/-! ## Runs -/

section Runs
variable {σ ω : Type} {step : σ → ω → Traced ι ε σ}

/-- Perform the operations in order, until one of them does not return. -/
def runAll (step : σ → ω → Traced ι ε σ) : List ω → σ → Traced ι ε σ
  | [], s => pure s
  | op :: ops, s => step s op >>= runAll step ops

lemma runAll_append {ops₁ ops₂ : List ω} {s t : σ} :
    (runAll step (ops₁ ++ ops₂) s).value = .ok t ↔
      ∃ s', (runAll step ops₁ s).value = .ok s' ∧ (runAll step ops₂ s').value = .ok t := by
  induction ops₁ generalizing s with
  | nil => simp [runAll]
  | cons op ops₁ ih =>
    simp only [List.cons_append, runAll, bind_value_eq_ok, ih]
    constructor
    · rintro ⟨s₁, hs₁, s', hs', ht⟩
      exact ⟨s', ⟨s₁, hs₁, hs'⟩, ht⟩
    · rintro ⟨s', ⟨s₁, hs₁, hs'⟩, ht⟩
      exact ⟨s₁, hs₁, s', hs', ht⟩

/-- **Run rule.** Where every step keeps the invariant and acts within `P`, every run does. -/
lemma runAll_only {P : ι → Prop} (Inv : σ → Prop)
    (hst : ∀ s op, Inv s → (step s op).Only P ∧ ∀ s', (step s op).value = .ok s' → Inv s') :
    ∀ (ops : List ω) (s : σ), Inv s →
      (runAll step ops s).Only P ∧ ∀ t, (runAll step ops s).value = .ok t → Inv t := by
  intro ops
  induction ops with
  | nil =>
    intro s hs
    refine ⟨only_pure s, fun t ht => ?_⟩
    cases ht
    exact hs
  | cons op ops ih =>
    intro s hs
    obtain ⟨ho, hi⟩ := hst s op hs
    refine ⟨only_bind ho fun s' hs' => (ih s' (hi s' hs')).1, fun t ht => ?_⟩
    obtain ⟨s', hs', ht⟩ := bind_value_eq_ok.mp ht
    exact (ih s' (hi s' hs')).2 t ht

/-- **Run rule with the past.** An invariant of the state and of all that was done so far. -/
lemma runAll_invariant (Inv : List ι → σ → Prop)
    (hst : ∀ past s op s', Inv past s → (step s op).value = .ok s' →
      Inv (past ++ (step s op).trace) s') :
    ∀ (ops : List ω) (past : List ι) (s t : σ), Inv past s → (runAll step ops s).value = .ok t →
      Inv (past ++ (runAll step ops s).trace) t := by
  intro ops
  induction ops with
  | nil =>
    intro past s t hs ht
    cases ht
    simpa [runAll, pure] using hs
  | cons op ops ih =>
    intro past s t hs ht
    obtain ⟨s', hs', ht⟩ := bind_value_eq_ok.mp ht
    have htl := ih _ s' t (hst past s op s' hs hs') ht
    rwa [List.append_assoc, ← trace_bind_of_ok hs'] at htl

lemma runAll_eq_panic_iff : ∀ (ops : List ω) (s : σ), (runAll step ops s).value = .panic ↔
    ∃ pre op post t, ops = pre ++ op :: post ∧ (runAll step pre s).value = .ok t ∧
      (step t op).value = .panic := by
  intro ops
  induction ops with
  | nil =>
    intro s
    simp [runAll]
  | cons op ops ih =>
    intro s
    simp only [runAll, bind_value_eq_panic, ih]
    constructor
    · rintro (h | ⟨s', hs', pre, op', post, t, rfl, hp, h⟩)
      · exact ⟨[], op, ops, s, rfl, rfl, h⟩
      · exact ⟨op :: pre, op', post, t, rfl, bind_value_eq_ok.mpr ⟨s', hs', hp⟩, h⟩
    · rintro ⟨pre, op', post, t, ho, hp, h⟩
      cases pre with
      | nil =>
        cases ho
        cases hp
        exact .inl h
      | cons op₁ pre =>
        cases ho
        obtain ⟨s', hs', hp⟩ := bind_value_eq_ok.mp hp
        exact .inr ⟨s', hs', pre, op', post, t, rfl, hp, h⟩

/-- **Run rule.** A run goes through exactly if every operation is accepted in the state it meets.
-/
lemma runAll_returns_iff (Inv : σ → Prop) {accepts : σ → ω → Prop}
    (hst : ∀ s op, Inv s → ((step s op).value = .panic ↔ ¬ accepts s op) ∧
      ∀ s', (step s op).value = .ok s' → Inv s') {s : σ} (hs : Inv s) (ops : List ω) :
    (runAll step ops s).value ≠ .panic ↔ ∀ pre op post t, ops = pre ++ op :: post →
      (runAll step pre s).value = .ok t → accepts t op := by
  have hp : ∀ {pre op t}, (runAll step pre s).value = .ok t →
      ((step t op).value = .panic ↔ ¬ accepts t op) := fun {pre op t} hpre =>
    (hst t op ((runAll_only (P := fun _ => True) Inv
      (fun s op hs => ⟨fun _ _ => trivial, (hst s op hs).2⟩) pre s hs).2 t hpre)).1
  rw [ne_eq, runAll_eq_panic_iff]
  constructor
  · intro hno pre op post t ho hpre
    by_contra hb
    exact hno ⟨pre, op, post, t, ho, hpre, (hp hpre).mpr hb⟩
  · rintro ha ⟨pre, op, post, t, ho, hpre, h⟩
    exact (hp hpre).mp h (ha pre op post t ho hpre)

end Runs

end Traced

end GunyahVmm.Run
