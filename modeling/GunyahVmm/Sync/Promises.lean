import GunyahVmm.Sync.MutualExclusion

/-! Why a sleeping task is not forgotten. Each flag promises a task that will act on it, and every
move keeps this but one: a task cancels its waiter while `LONG_WAIT` is its own and it was taken off
the queue, but not yet woken. -/

namespace GunyahVmm.Sync
open Function View Role Bool
variable {n : Nat}

/-! ## Who stands behind a flag -/

namespace Role

/-- `HAS_WAITERS` is set because of this task. -/
def pending : Role → Bool
  | .queued _ => true
  | .enqueuing _ => true
  | .enqueued _ => true
  | .leaving _ dequeued _ => !dequeued
  | .left _ dequeued _ => !dequeued
  | _ => false

def wakes : Role → Bool
  | .inFlight _ => true
  | .choosing => true
  | .chosen r => r.clearDesignatedWaker
  | .leaving _ dequeued _ => dequeued
  | .left _ dequeued r => dequeued && r.clearDesignatedWaker
  | _ => false

/-- The task will wake a waiter or take the lock. -/
def serves : Role → Bool
  | .unlocking => true
  | r => r.wakes

/-- The task wants the lock and has waited for it. -/
def waits : Role → Bool
  | .inFlight _ => true
  | .queued _ => true
  | .enqueuing _ => true
  | .enqueued _ => true
  | .leaving _ _ _ => true
  | .left _ _ _ => true
  | _ => false

def long : Role → Bool
  | .inFlight long => long
  | .queued long => long
  | .enqueuing long => long
  | .enqueued long => long
  | .leaving long _ _ => long
  | .left long _ r => long && r.clearLongWait
  | _ => false

/-- The task has waited long and is off the queue, or is choosing whom to wake. -/
def hurries : Role → Bool
  | .inFlight long => long
  | .choosing => true
  | .leaving long dequeued _ => long && dequeued
  | .left long dequeued _ => long && dequeued
  | _ => false

def rushes : Role → Bool
  | .unlocking => true
  | r => r.hurries

/-- The task is about to set `LONG_WAIT`. -/
def soon : Role → Bool
  | .enqueuing long => long
  | .enqueued long => long
  | _ => false

/-- The task is about to write its release of the spin lock. -/
def releases : Role → Bool
  | .chosen _ => true
  | .left _ _ _ => true
  | _ => false

end Role

namespace View

def Some (s : View n) (p : Role → Bool) : Prop := ∃ t, p (s.role t) = true

/-- `LONG_WAIT` is set or about to be. -/
def Urgent (s : View n) : Prop := s.word.longWait = true ∨ s.Some soon

/-- The flags that a task is about to clear and set agree with the queue. -/
def Released (s : View n) (t : Fin n) : Prop :=
  match s.role t with
  | .chosen r =>
    (r.clearHasWaiters = true → s.queue = []) ∧
      (r.clearDesignatedWaker = true → r.clearHasWaiters = true) ∧
      r.clearLongWait = false ∧ r.clearWriterWaiting = false ∧
      (r.setWriterWaiting = true → ∃ u ∈ s.queue, s.kind u = .exclusive)
  | .left long dequeued r =>
    (r.clearHasWaiters = true → s.queue = []) ∧
      (dequeued = true → r.clearDesignatedWaker = true → r.clearHasWaiters = true) ∧
      (dequeued = false → r.clearDesignatedWaker = true) ∧
      (long = true → dequeued = true → r.clearLongWait = true) ∧
      (s.kind t = .exclusive → r.clearWriterWaiting = true) ∧
      (r.setWriterWaiting = true → ∃ u ∈ s.queue, s.kind u = .exclusive)
  | _ => True

structure Sound (s : View n) : Prop where
  waiters : s.Some pending → s.word.hasWaiters = true
  waker : s.word.designatedWaker = true → s.Some wakes
  served : s.word.hasWaiters = true → s.word.Free → s.Some serves
  writer : s.word.writerWaiting = true → ∃ t, s.kind t = .exclusive ∧ (s.role t).waits = true
  long : s.word.longWait = true → s.Some long
  hurry : s.Urgent → s.word.designatedWaker = true → s.Some hurries
  rush : s.Urgent → s.word.Free → s.Some rushes
  front : s.queue.Pairwise fun t u => (s.role u).long = true → (s.role t).long = true
  released : ∀ t, s.Released t

end View

/-! ## Roles after a move -/

section Some
variable {s : View n} {t : Fin n} {r : Role} {p : Role → Bool}

lemma View.Some.turn {s' : View n} (h : s.Some p) (ho : ∀ u, u ≠ t → s'.role u = s.role u)
    (hp : p (s.role t) = true → p (s'.role t) = true) : s'.Some p := by
  obtain ⟨u, hu⟩ := h
  refine ⟨u, ?_⟩
  by_cases hut : u = t
  · subst hut
    exact hp hu
  · rwa [ho u hut]

lemma View.Some.move {b : Bits} {r₀ : Role} (h : s.Some p) (hrole : s.role t = r₀)
    (hp : p r₀ = true → p r = true) : ((s.setWord b).setRole t r).Some p := by
  refine h.turn (fun u hu => role_setRole_of_ne _ hu r) ?_
  rwa [role_setRole_self, hrole]

lemma View.Some.of_move {b : Bits} (h : ((s.setWord b).setRole t r).Some p)
    (hp : p r = true → p (s.role t) = true) : s.Some p := by
  refine h.turn (fun u hu => (role_setRole_of_ne (s.setWord b) hu r).symm) ?_
  rwa [role_setRole_self]

lemma View.some_self (s : View n) (t : Fin n) (hp : p r = true) : (s.setRole t r).Some p :=
  ⟨t, by rwa [s.role_setRole_self]⟩

lemma View.Some.imp {q : Role → Bool} (h : s.Some p) (hpq : ∀ r, p r = true → q r = true) :
    s.Some q :=
  Exists.imp (fun _ hu => hpq _ hu) h

lemma View.Some.of_remove {wake rest : List (Fin n)} (h : (s.remove wake rest).Some p)
    (hp : ∀ r, p r.dequeue = true → p r = true) : s.Some p := by
  obtain ⟨u, hu⟩ := h
  refine ⟨u, ?_⟩
  rw [role_remove] at hu
  split_ifs at hu
  · exact hp _ hu
  · exact hu

lemma Role.serves_of_wakes (h : r.wakes = true) : r.serves = true := by
  cases r <;> first | exact h | cases h

lemma Role.rushes_of_hurries (h : r.hurries = true) : r.rushes = true := by
  cases r <;> first | exact h | cases h

/-- Outside a section under the spin lock, whoever hurries has been woken. -/
lemma Role.wakes_of_hurries (h : r.hurries = true) (hc : r.critical = false) :
    r.wakes = true := by
  cases r with
  | inFlight => rfl
  | choosing | leaving | left => cases hc
  | _ => cases h

lemma Role.inQueue_of_pending (h : r.pending = true) (hc : r.critical = false) :
    r.inQueue = true := by
  cases r with
  | queued => rfl
  | enqueuing | enqueued | leaving | left => cases hc
  | _ => cases h

lemma Role.critical_of_soon (h : r.soon = true) : r.critical = true := by
  cases r with
  | enqueuing | enqueued => rfl
  | _ => cases h

end Some

section Moves
variable {s : View n} {t : Fin n}
variable {b : Bits} {r : Role} {waited long : Bool}

lemma and_not_eq_true_iff {a b : Bool} : (a && !b) = true ↔ a = true ∧ b = false := by
  simp

lemma View.released_of_not_critical (h : (s.role t).critical = false) : s.Released t := by
  unfold View.Released
  split
  · next hr => rw [hr] at h; cases h
  · next hr => rw [hr] at h; cases h
  · trivial

lemma View.Sound.hurry_of_served (h : s.Sound)
    (hwr : s.word.hasWaiters = false ∨ s.word.designatedWaker = true) (hurg : s.Urgent) :
    s.Some hurries := by
  obtain hw | hd := hwr
  swap
  · exact h.hurry hurg hd
  have hn : ∀ u, (s.role u).pending = false := by
    intro u
    rw [eq_false_iff]
    exact fun hu => false_ne_true (hw.symm.trans (h.waiters ⟨u, hu⟩))
  obtain hl | ⟨u, hu⟩ := hurg
  · obtain ⟨u, hu⟩ := h.long hl
    refine ⟨u, ?_⟩
    have hp := hn u
    cases hr : s.role u with
    | inFlight long =>
      rw [hr] at hu
      exact hu
    | leaving long dequeued wakeNext =>
      rw [hr] at hu hp
      cases dequeued with
      | true => exact (Bool.and_true _).trans hu
      | false => cases hp
    | left long dequeued r =>
      rw [hr] at hu hp
      cases dequeued with
      | true => exact (Bool.and_true _).trans (Bool.and_eq_true_iff.mp hu).1
      | false => cases hp
    | queued | enqueuing | enqueued => rw [hr] at hp; cases hp
    | _ => rw [hr] at hu; cases hu
  · have hp := hn u
    cases hr : s.role u with
    | enqueuing | enqueued => rw [hr] at hp; cases hp
    | _ => rw [hr] at hu; cases hu

/-- Those who waited long come first in the queue. -/
def View.Front (s : View n) : Prop :=
  s.queue.Pairwise fun t u => (s.role u).long = true → (s.role t).long = true

lemma View.Front.of_same {s' : View n} (h : s.Front) (hsub : s'.queue.Sublist s.queue)
    (hsm : ∀ u ∈ s'.queue, (s'.role u).long = (s.role u).long) : s'.Front := by
  refine List.Pairwise.imp_of_mem ?_ (h.sublist hsub)
  intro a u ha hu hau
  rw [hsm a ha, hsm u hu]
  exact hau

lemma View.front_setRole (h : s.Front) (hl : t ∈ s.queue → r.long = (s.role t).long) :
    ((s.setWord b).setRole t r).Front := by
  refine h.of_same (.refl _) fun u hu => ?_
  by_cases hut : u = t
  · subst hut
    rw [role_setRole_self, hl hu]
  · rw [role_setRole_of_ne _ hut]
    rfl

/-- What a task is about to release does not depend on the others' roles and on the word. -/
lemma View.Sound.released_move (h : s.Sound) (hr : r.releases = false) (u : Fin n) :
    ((s.setWord b).setRole t r).Released u := by
  by_cases hut : u = t
  · subst hut
    unfold View.Released
    rw [role_setRole_self]
    cases r <;> trivial
  · have hu := h.released u
    unfold View.Released at hu ⊢
    rwa [role_setRole_of_ne _ hut]

lemma View.Sound.writer_move {r₀ : Role} (h : s.Sound) (hrole : s.role t = r₀)
    (hr : s.kind t = .exclusive → r₀.waits = true → r.waits = true)
    (hw : s.word.writerWaiting = true) :
    ∃ u, s.kind u = .exclusive ∧ (((s.setWord b).setRole t r).role u).waits = true := by
  obtain ⟨u, hu, hwt⟩ := h.writer hw
  refine ⟨u, hu, ?_⟩
  by_cases hut : u = t
  · subst hut
    rw [hrole] at hwt
    rw [role_setRole_self]
    exact hr hu hwt
  · rwa [role_setRole_of_ne _ hut]

lemma View.Urgent.of_setRole (hln : b.longWait = true → s.word.longWait = true)
    (hsn : r.soon = true → (s.role t).soon = true) (h : ((s.setWord b).setRole t r).Urgent) :
    s.Urgent := by
  obtain hl | hs := h
  · exact .inl (hln hl)
  · exact .inr (View.Some.of_move hs hsn)

section
variable (h : s.Sound) (hs : s.Guarded)
include h hs

lemma View.Sound.start (kind : Kind)
    (hrole : s.role t = .outside) : ({ s with kind := update s.kind t kind } : View n).Sound := by
  have hkn : ∀ u, s.role u ≠ .outside → update s.kind t kind u = s.kind u := by
    intro u hu
    refine update_of_ne ?_ _ _
    rintro rfl
    exact hu hrole
  have hq : ∀ u ∈ s.queue, update s.kind t kind u = s.kind u := by
    intro u hu
    refine hkn u fun hout => ?_
    rw [hs.mem, hout] at hu
    cases hu
  refine ⟨h.waiters, h.waker, h.served, fun hw => ?_, h.long, h.hurry, h.rush, h.front, fun u => ?_⟩
  · obtain ⟨u, hu, hwt⟩ := h.writer hw
    refine ⟨u, (hkn u fun hout => ?_).trans hu, hwt⟩
    rw [hout] at hwt
    cases hwt
  · have ho := h.released u
    have hwr : (∃ w ∈ s.queue, s.kind w = .exclusive) →
        ∃ w ∈ s.queue, update s.kind t kind w = .exclusive :=
      fun ⟨w, hw, hk⟩ => ⟨w, hw, (hq w hw).trans hk⟩
    unfold View.Released at ho ⊢
    cases hr : s.role u with
    | chosen r =>
      rw [hr] at ho
      exact ⟨ho.1, ho.2.1, ho.2.2.1, ho.2.2.2.1, fun hset => hwr (ho.2.2.2.2 hset)⟩
    | left long dequeued r =>
      rw [hr] at ho
      have hku := hkn u (by rw [hr]; exact Role.noConfusion)
      refine ⟨ho.1, ho.2.1, ho.2.2.1, ho.2.2.2.1, fun hk => ?_,
        fun hset => hwr (ho.2.2.2.2.2 hset)⟩
      exact ho.2.2.2.2.1 (hku.symm.trans hk)
    | _ => trivial

lemma View.Sound.acquire (hrole : s.role t = .entering waited long) :
    ((s.setWord (s.word.acquire (s.kind t) waited long)).setRole
      t (.holding (s.kind t))).Sound := by
  have htq := hs.notMem hrole (inQueue_entering waited long)
  have hb : ¬(s.word.acquire (s.kind t) waited long).Free := by
    intro hfree
    cases hk : s.kind t with
    | shared =>
      rw [hk] at hfree
      exact absurd hfree.2 (Nat.succ_ne_zero _)
    | exclusive =>
      rw [hk] at hfree
      have hlc : (s.word.locked || true) = false := hfree.1
      rw [Bool.or_true] at hlc
      cases hlc
  have ho : waited = false → s.role t = .outside := by
    rintro rfl
    exact hrole
  constructor
  · intro hp
    exact h.waiters (View.Some.of_move hp (by cases ·))
  · intro hw
    obtain ⟨hw, hn⟩ := and_not_eq_true_iff.mp hw
    exact (h.waker hw).move (ho hn) (by cases ·)
  · exact fun _ hfree => absurd hfree hb
  · intro hw
    obtain ⟨hw, hn⟩ := and_eq_true_iff.mp hw
    refine h.writer_move rfl (fun hk => ?_) hw
    rw [hk] at hn
    cases hn
  · intro hl
    obtain ⟨hl, hn⟩ := and_not_eq_true_iff.mp hl
    refine (h.long hl).move hrole ?_
    rw [hn]
    cases waited <;> exact (by cases ·)
  · intro hu hw
    obtain ⟨hw, hn⟩ := and_not_eq_true_iff.mp hw
    have hurg : s.Urgent := hu.of_setRole (fun hl => (and_eq_true_iff.mp hl).1) (by cases ·)
    exact (h.hurry hurg hw).move (ho hn) (by cases ·)
  · exact fun _ hfree => absurd hfree hb
  · exact front_setRole h.front fun ht => absurd ht htq
  · exact h.released_move rfl

variable (hrole : s.role t = .entering waited long) (hfree : s.word.spinlock = false)
  (hblocked : ¬s.word.Acquirable (s.kind t) waited long)

include hrole hfree hblocked

lemma View.Sound.serves_of_blocked (hwo : s.word.Free) :
    (long = false ∧ s.word.longWait = true) ∨
      (waited = false ∧ ∃ u, u ≠ t ∧ (s.role u).serves = true) := by
  by_cases hl : long = false ∧ s.word.longWait = true
  · exact .inl hl
  right
  have hnl : long = false → s.word.longWait = false := by
    intro hf
    rw [eq_false_iff]
    exact fun hlw => hl ⟨hf, hlw⟩
  -- What is left is a waiting writer that a reader who comes new must let pass.
  have hwr : waited = false ∧ s.word.writerWaiting = true := by
    by_contra hno
    refine hblocked ⟨hwo.1, fun _ => hwo.2, hnl, fun _ hw => ?_⟩
    rw [eq_false_iff]
    exact fun hww => hno ⟨hw, hww⟩
  obtain ⟨rfl, hww⟩ := hwr
  have ho : s.role t = .outside := hrole
  refine ⟨rfl, ?_⟩
  obtain ⟨u, hu, hwt⟩ := h.writer hww
  have hsr : s.Some serves := by
    have hc := hs.not_critical hfree u
    cases hr : s.role u with
    | inFlight l => exact ⟨u, by rw [hr]; rfl⟩
    | queued l => exact h.served (h.waiters ⟨u, by rw [hr]; rfl⟩) hwo
    | enqueuing | enqueued | leaving | left => rw [hr] at hc; cases hc
    | _ => rw [hr] at hwt; cases hwt
  obtain ⟨w, hw⟩ := hsr
  refine ⟨w, ?_, hw⟩
  rintro rfl
  rw [ho] at hw
  cases hw

lemma View.Sound.enqueue {long' : Bool} (hln : long = true → waited = true ∧ long' = true)
    (hl' : long' = true → waited = true) :
    ((s.setWord (s.word.enqueue (s.kind t) waited long)).setRole t (.enqueuing long')).Sound := by
  have htq := hs.notMem hrole (inQueue_entering waited long)
  have ho : waited = false → s.role t = .outside := by
    rintro rfl
    exact hrole
  have hurg (hn : waited = false) (hu : ((s.setWord (s.word.enqueue (s.kind t) waited
      long)).setRole t (.enqueuing long')).Urgent) : s.Urgent := by
    refine hu.of_setRole (fun hl => (and_eq_true_iff.mp hl).1) fun hsn => ?_
    exact absurd (hn.symm.trans (hl' hsn)) false_ne_true
  have hnt : long = false → (s.role t).hurries = false := by
    rintro rfl
    rw [hrole]
    cases waited <;> rfl
  -- A free lock that this task must leave alone because of `LONG_WAIT` has another task for it.
  have hrs : long = false → s.word.longWait = true → s.word.Free →
      ∃ u, u ≠ t ∧ (s.role u).rushes = true := by
    intro hl hlw hwr
    obtain ⟨u, hu⟩ := h.rush (.inl hlw) hwr
    refine ⟨u, ?_, hu⟩
    rintro rfl
    have hn := hnt hl
    cases waited with
    | true => rw [hrole] at hu hn; exact false_ne_true (hn.symm.trans hu)
    | false => rw [hrole] at hu; cases hu
  constructor
  · exact fun _ => rfl
  · intro hw
    obtain ⟨hw, hn⟩ := and_not_eq_true_iff.mp hw
    exact (h.waker hw).move (ho hn) (by cases ·)
  · intro _ hwr
    obtain ⟨hl, hlw⟩ | ⟨-, u, hut, hu⟩ := h.serves_of_blocked hs hrole hfree hblocked hwr
    · obtain ⟨u, hut, hu⟩ := hrs hl hlw hwr
      refine ⟨u, ?_⟩
      rw [role_setRole_of_ne _ hut]
      have hc := hs.not_critical hfree u
      change (s.role u).serves = true
      cases hr : s.role u with
      | unlocking => rfl
      | _ =>
        rw [hr] at hu hc
        exact serves_of_wakes (wakes_of_hurries hu hc)
    · exact ⟨u, by rwa [role_setRole_of_ne _ hut]⟩
  · intro hw
    by_cases hk : s.kind t = .exclusive
    · exact ⟨t, hk, by rw [role_setRole_self]; rfl⟩
    have hww : s.word.writerWaiting = true := by
      change (s.word.writerWaiting || decide (s.kind t = .exclusive)) = true at hw
      rwa [decide_eq_false hk, Bool.or_false] at hw
    exact h.writer_move rfl (fun hkt => absurd hkt hk) hww
  · intro hl
    obtain ⟨hl, hn⟩ := and_not_eq_true_iff.mp hl
    refine (h.long hl).move hrole ?_
    rw [hn]
    cases waited <;> exact (by cases ·)
  · intro hu hw
    obtain ⟨hw, hn⟩ := and_not_eq_true_iff.mp hw
    exact (h.hurry (hurg hn hu) hw).move (ho hn) (by cases ·)
  · intro hu hwr
    obtain ⟨hl, hlw⟩ | ⟨hn, -⟩ := h.serves_of_blocked hs hrole hfree hblocked hwr
    · obtain ⟨u, hut, hu⟩ := hrs hl hlw hwr
      exact ⟨u, by rwa [role_setRole_of_ne _ hut]⟩
    · exact (h.rush (hurg hn hu) hwr).move (ho hn) (by cases ·)
  · exact front_setRole h.front fun ht => absurd ht htq
  · exact h.released_move rfl

end

lemma View.Sound.same {s' : View n} (h : s.Sound)
    (hw : ∃ spin, s'.word = { s.word with spinlock := spin }) (hk : s'.kind = s.kind)
    (hr : ∀ u, (s'.role u).pending = (s.role u).pending ∧
      (s'.role u).wakes = (s.role u).wakes ∧ (s'.role u).serves = (s.role u).serves ∧
      (s'.role u).waits = (s.role u).waits ∧ (s'.role u).long = (s.role u).long ∧
      (s'.role u).hurries = (s.role u).hurries ∧ (s'.role u).rushes = (s.role u).rushes ∧
      (s'.role u).soon = (s.role u).soon)
    (hf : s'.Front) (hrel : ∀ t, s'.Released t) : s'.Sound := by
  obtain ⟨spin, hw⟩ := hw
  have hu : s'.Urgent ↔ s.Urgent := by
    simp only [View.Urgent, View.Some, hw, hr]
  have hfree : s'.word.Free ↔ s.word.Free := by
    simp only [Bits.Free, hw]
  refine ⟨?_, ?_, ?_, ?_, ?_, ?_, ?_, hf, hrel⟩
  · simp only [View.Some, hr, hw]
    exact h.waiters
  · simp only [View.Some, hr, hw]
    exact h.waker
  · rw [hfree]
    simp only [View.Some, hr, hw]
    exact h.served
  · simp only [hr, hw, hk]
    exact h.writer
  · simp only [View.Some, hr, hw]
    exact h.long
  · rw [hu]
    simp only [View.Some, hr, hw]
    exact h.hurry
  · rw [hu, hfree]
    simp only [View.Some, hr]
    exact h.rush

section
variable (h : s.Sound)
include h

lemma View.Sound.push (hs : s.Guarded) (hrole : s.role t = .enqueuing long) :
    ({ s with queue := if long then t :: s.queue else s.queue ++ [t] }.setRole t
      (.enqueued long)).Sound := by
  set s' := { s with queue := if long then t :: s.queue else s.queue ++ [t] }.setRole t
    (.enqueued long) with hs'
  have hsl : s'.role t = .enqueued long := role_setRole_self _ _ _
  have ho : ∀ u, u ≠ t → s'.role u = s.role u := fun u hu => role_setRole_of_ne _ hu _
  have hl : ∀ u, (s'.role u).long = (s.role u).long := by
    intro u
    by_cases hut : u = t
    · rw [hut, hsl, hrole]
      rfl
    · rw [ho u hut]
  refine h.same ⟨s.word.spinlock, rfl⟩ rfl (fun u => ?_) ?_ fun u => ?_
  · by_cases hut : u = t
    · rw [hut, hsl, hrole]
      exact ⟨rfl, rfl, rfl, rfl, rfl, rfl, rfl, rfl⟩
    · rw [ho u hut]
      exact ⟨rfl, rfl, rfl, rfl, rfl, rfl, rfl, rfl⟩
  · simp only [Front, hl]
    change (if long then t :: s.queue else s.queue ++ [t]).Pairwise _
    have hlt : (s.role t).long = long := by
      rw [hrole]
      rfl
    cases long with
    | true =>
      rw [if_pos rfl, List.pairwise_cons]
      exact ⟨fun u _ _ => hlt, h.front⟩
    | false =>
      rw [if_neg Bool.false_ne_true, List.pairwise_append]
      refine ⟨h.front, List.pairwise_singleton _ _, fun a _ b hb hlb => ?_⟩
      rw [List.mem_singleton.mp hb, hlt] at hlb
      cases hlb
  · by_cases hut : u = t
    · subst hut
      unfold View.Released
      rw [hsl]
      trivial
    · refine released_of_not_critical ?_
      rw [ho u hut]
      exact hs.not_critical_of_ne (congrArg _ hrole) hut

lemma View.Sound.settle (hrole : s.role t = .enqueued long) :
    ((s.setWord { s.word with
      spinlock := false
      longWait := s.word.longWait || long }).setRole t (.queued long)).Sound := by
  have hurg : ((s.setWord { s.word with
      longWait := s.word.longWait || long }).setRole t (.queued long)).Urgent → s.Urgent := by
    rintro (hl | hsn)
    · obtain hl | hl := or_eq_true_iff.mp hl
      · exact .inl hl
      · exact .inr ⟨t, by rw [hrole]; exact hl⟩
    · exact .inr (View.Some.of_move hsn (by cases ·))
  constructor
  · intro hp
    exact h.waiters (View.Some.of_move hp fun _ => (congrArg pending hrole).trans rfl)
  · exact fun hw => (h.waker hw).move hrole (by cases ·)
  · exact fun hw hfree => (h.served hw hfree).move hrole (by cases ·)
  · exact h.writer_move hrole fun _ _ => rfl
  · intro hl
    obtain hl | hl := or_eq_true_iff.mp hl
    · exact (h.long hl).move hrole id
    · exact some_self _ t hl
  · exact fun hu hw => (h.hurry (hurg hu) hw).move hrole (by cases ·)
  · exact fun hu hfree => (h.rush (hurg hu) hfree).move hrole (by cases ·)
  · refine front_setRole h.front fun _ => ?_
    rw [hrole]
    rfl
  · exact h.released_move rfl

lemma View.Sound.giveUp (htq : t ∉ s.queue) (hrole : s.role t = .unlocking)
    (hwr : s.word.Free → s.word.hasWaiters = false ∨ s.word.designatedWaker = true) :
    (s.setRole t .outside).Sound := by
  have hurg : (s.setRole t .outside).Urgent → s.Urgent :=
    View.Urgent.of_setRole (b := s.word) id (by cases ·)
  constructor
  · exact fun hp => h.waiters (hp.of_move (b := s.word) (by cases ·))
  · exact fun hw => (h.waker hw).move (b := s.word) hrole (by cases ·)
  · intro hw hfree
    obtain hn | hd := hwr hfree
    · exact absurd (hw.symm.trans hn) Bool.noConfusion
    · exact ((h.waker hd).move hrole (by cases ·)).imp fun _ => serves_of_wakes
  · exact h.writer_move (b := s.word) hrole fun _ => (by cases ·)
  · exact fun hl => (h.long hl).move (b := s.word) hrole (by cases ·)
  · exact fun hu hw => (h.hurry (hurg hu) hw).move (b := s.word) hrole (by cases ·)
  · intro hu hfree
    have hh := h.hurry_of_served (hwr hfree) (hurg hu)
    exact (hh.move hrole (by cases ·)).imp fun _ => rushes_of_hurries
  · exact front_setRole (b := s.word) h.front fun ht => absurd ht htq
  · exact h.released_move (b := s.word) rfl

lemma View.Sound.unlock (hs : s.Guarded) (hh : s.Held) {kind : Kind}
    (hrole : s.role t = .holding kind) :
    ((s.setWord (s.word.unlock kind)).setRole t
      (if s.word.Unserved kind then .unlocking else .outside)).Sound := by
  have htq := hs.notMem hrole rfl
  have hsm : (s.word.unlock kind).hasWaiters = s.word.hasWaiters ∧
      (s.word.unlock kind).designatedWaker = s.word.designatedWaker ∧
      (s.word.unlock kind).writerWaiting = s.word.writerWaiting ∧
      (s.word.unlock kind).longWait = s.word.longWait := by
    cases kind <;> exact ⟨rfl, rfl, rfl, rfl⟩
  have htr : ((s.setWord (s.word.unlock kind)).setRole t .unlocking).Sound := by
    constructor
    · exact fun hp => hsm.1.trans (h.waiters (hp.of_move (by cases ·)))
    · exact fun hw => (h.waker (hsm.2.1 ▸ hw)).move hrole (by cases ·)
    · exact fun _ _ => some_self _ t rfl
    · exact fun hw => h.writer_move hrole (fun _ => (by cases ·)) (hsm.2.2.1 ▸ hw)
    · exact fun hl => (h.long (hsm.2.2.2 ▸ hl)).move hrole (by cases ·)
    · intro hu hw
      have hurg : s.Urgent := hu.of_setRole (fun hl => hsm.2.2.2 ▸ hl) (by cases ·)
      exact (h.hurry hurg (hsm.2.1 ▸ hw)).move hrole (by cases ·)
    · exact fun _ _ => some_self _ t rfl
    · exact front_setRole h.front fun ht => absurd ht htq
    · exact h.released_move rfl
  split_ifs with hun
  · exact htr
  have hg := htr.giveUp htq (role_setRole_self _ t _) ?_
  · rwa [setRole_setRole] at hg
  -- The last holder leaves the waiters only to a designated waker.
  intro hfree
  by_contra hno
  obtain ⟨hw, hd⟩ := not_or.mp hno
  refine hun ⟨?_, ?_, ?_⟩
  · exact hsm.1.symm.trans (not_eq_false _ ▸ hw)
  · exact hsm.2.1.symm.trans (eq_false_iff.mpr hd)
  · rintro rfl
    have hpos := (hh.counted t).2 hrole
    have hls : s.word.readers - 1 = 0 := hfree.2
    omega

lemma View.Sound.take (hs : s.Guarded) (hrole : s.role t = .unlocking) :
    ((s.setWord { s.word with
      spinlock := true
      designatedWaker := true }).setRole t .choosing).Sound := by
  constructor
  · exact fun hp => h.waiters (View.Some.of_move hp (by cases ·))
  · exact fun _ => some_self _ t rfl
  · exact fun _ _ => some_self _ t rfl
  · exact h.writer_move hrole fun _ => (by cases ·)
  · exact fun hl => (h.long hl).move hrole (by cases ·)
  · exact fun _ _ => some_self _ t rfl
  · exact fun _ _ => some_self _ t rfl
  · exact front_setRole h.front fun ht => absurd ht (hs.notMem hrole rfl)
  · exact h.released_move rfl

lemma View.Sound.cancel {dequeued wakeNext : Bool}
    (hrole : s.role t = .waiting dequeued long) :
    ((s.setWord { s.word with spinlock := true }).setRole t
      (.leaving long dequeued wakeNext)).Sound := by
  refine h.same ⟨true, rfl⟩ rfl (fun u => ?_) ?_ (h.released_move rfl)
  · by_cases hut : u = t
    · rw [hut, role_setRole_self, hrole]
      cases dequeued <;> cases long <;> exact ⟨rfl, rfl, rfl, rfl, rfl, rfl, rfl, rfl⟩
    · rw [role_setRole_of_ne _ hut]
      exact ⟨rfl, rfl, rfl, rfl, rfl, rfl, rfl, rfl⟩
  · refine front_setRole h.front fun _ => ?_
    rw [hrole]
    cases dequeued <;> rfl

end

end Moves

end GunyahVmm.Sync
