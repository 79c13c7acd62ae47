import GunyahVmm.Sync.Moves
import Mathlib.Data.Finset.Card

/-! The word counts the holders of the lock, and at most one task is in a section under the spin
lock. -/

namespace GunyahVmm.Sync
open Function Role Bool List
variable {n : Nat}

/-! ## Holders -/

/-- The word counts the holders, and an exclusive holder is alone. -/
structure View.Held (s : View n) : Prop where
  locked : s.word.locked = true ↔ ∃ t, s.role t = .holding .exclusive
  readers : s.word.readers = (Finset.univ.filter fun t => s.role t = .holding .shared).card
  alone : ∀ t u kind, s.role t = .holding .exclusive → s.role u = .holding kind → u = t

lemma View.Held.counted {s : View n} (h : s.Held) : s.Counted := by
  intro t
  constructor
  · exact fun ht => h.locked.mpr ⟨t, ht⟩
  · intro ht
    rw [h.readers]
    exact Finset.card_pos.mpr ⟨t, Finset.mem_filter.mpr ⟨Finset.mem_univ t, ht⟩⟩

def Role.isHolding : Role → Bool
  | .holding _ => true
  | _ => false

lemma Role.ne_holding {r : Role} (h : r.isHolding = false) (kind : Kind) : r ≠ .holding kind := by
  rintro rfl
  cases h

lemma Role.dequeue_eq_holding {r : Role} {kind : Kind} :
    r.dequeue = .holding kind ↔ r = .holding kind := by
  cases r <;> simp [dequeue]

lemma Role.isHolding_entering (waited long : Bool) :
    (entering waited long).isHolding = false := by
  cases waited <;> rfl

lemma Role.isHolding_waiting (dequeued long : Bool) :
    (waiting dequeued long).isHolding = false := by
  cases dequeued <;> rfl

section Held
variable {s s' : View n} {t : Fin n}

/-- A move that neither takes nor gives up the lock. -/
lemma View.Held.frame (h : s.Held) (hl : s'.word.locked = s.word.locked)
    (hrds : s'.word.readers = s.word.readers)
    (hr : ∀ t kind, s'.role t = .holding kind ↔ s.role t = .holding kind) : s'.Held := by
  constructor
  · rw [hl, h.locked]
    simp only [hr]
  · rw [hrds, h.readers]
    simp only [hr]
  · intro t u kind ht hu
    exact h.alone t u kind ((hr t _).mp ht) ((hr u _).mp hu)

lemma View.Held.move (h : s.Held) {b : Bits} {r : Role} (hl : b.locked = s.word.locked)
    (hrds : b.readers = s.word.readers) (ht : (s.role t).isHolding = false)
    (hr : r.isHolding = false) : ((s.setWord b).setRole t r).Held := by
  refine h.frame hl hrds fun u kind => ?_
  rw [View.setRole, View.setWord]
  by_cases hu : u = t
  · subst hu
    simp [ne_holding ht, ne_holding hr]
  · simp [hu]

lemma View.Held.remove (h : s.Held) (wake rest : List (Fin n)) : (s.remove wake rest).Held := by
  refine h.frame rfl rfl fun u kind => ?_
  rw [View.role_remove]
  split_ifs with hu
  · exact dequeue_eq_holding
  · exact Iff.rfl

lemma View.isHolding_remove (s : View n) (wake rest : List (Fin n)) (t : Fin n) :
    ((s.remove wake rest).role t).isHolding = (s.role t).isHolding := by
  rw [View.role_remove]
  split_ifs with ht
  · cases s.role t <;> rfl
  · rfl

lemma View.Held.acquire (h : s.Held) {waited long : Bool} (hr : (s.role t).isHolding = false)
    (hwr : s.word.Acquirable (s.kind t) waited long) :
    ((s.setWord (s.word.acquire (s.kind t) waited long)).setRole t (.holding (s.kind t))).Held := by
  have hn : ∀ u, s.role u ≠ .holding .exclusive := by
    intro u hu
    exact false_ne_true (hwr.1.symm.trans (h.locked.mpr ⟨u, hu⟩))
  generalize hk : s.kind t = kind at *
  cases kind with
  | exclusive =>
    -- Nobody held the lock in any way.
    have hrds := h.readers
    rw [hwr.2.1 rfl, eq_comm, Finset.card_eq_zero, Finset.filter_eq_empty_iff] at hrds
    have hno : ∀ u kind, s.role u ≠ .holding kind := by
      intro u kind
      cases kind with
      | exclusive => exact hn u
      | shared => exact hrds (Finset.mem_univ u)
    constructor
    · simp only [View.setRole, View.setWord, Bits.acquire, decide_true, Bool.or_true, true_iff]
      exact ⟨t, by simp⟩
    · simp only [View.setRole, View.setWord, Bits.acquire, hwr.2.1 rfl, reduceCtorEq, if_false]
      rw [eq_comm, Finset.card_eq_zero, Finset.filter_eq_empty_iff]
      intro u _
      by_cases hu : u = t
      · simp [hu]
      · simpa [hu] using hno u .shared
    · intro u w k hu hw
      by_cases hut : u = t <;> by_cases hwt : w = t <;>
        simp_all [View.setRole, View.setWord]
  | shared =>
    constructor
    · simp only [View.setRole, View.setWord, Bits.acquire, hwr.1, reduceCtorEq, decide_false,
        Bool.or_false, Bool.false_eq_true, false_iff]
      rintro ⟨u, hu⟩
      by_cases hut : u = t
      · simp [hut] at hu
      · simp [hut] at hu
        exact hn u hu
    · simp only [View.setRole, View.setWord, Bits.acquire, if_true, h.readers]
      rw [← Finset.card_insert_of_notMem (a := t) (by simp [ne_holding hr])]
      congr 1
      ext u
      by_cases hu : u = t
      · simp [hu]
      · simp [hu]
    · intro u w k hu hw
      by_cases hut : u = t
      · simp [View.setRole, hut] at hu
      · simp [View.setRole, View.setWord, hut] at hu
        exact absurd hu (hn u)

lemma View.Held.unlock (h : s.Held) {kind : Kind} {r : Role}
    (hrl : s.role t = .holding kind) (hr : r.isHolding = false) :
    ((s.setWord (s.word.unlock kind)).setRole t r).Held := by
  have hno (k : Kind) (ho : ∀ u, u ≠ t → s.role u ≠ .holding k) (u : Fin n) :
      ((s.setWord (s.word.unlock kind)).setRole t r).role u ≠ .holding k := by
    by_cases hu : u = t
    · simpa [View.setRole, hu] using ne_holding hr k
    · simpa [View.setRole, View.setWord, hu] using ho u hu
  cases kind with
  | exclusive =>
    have ho : ∀ k u, u ≠ t → s.role u ≠ .holding k := fun k u hu hk => hu (h.alone t u k hrl hk)
    have hn : ∀ u k, _ := fun u k => hno k (ho k) u
    have hrds : s.word.readers = 0 := by
      rw [h.readers, Finset.card_eq_zero, Finset.filter_eq_empty_iff]
      intro u _ hu
      by_cases hut : u = t
      · rw [hut, hrl] at hu
        cases hu
      · exact ho _ u hut hu
    constructor
    · simp only [hn, exists_false, iff_false]
      simp [View.setRole, View.setWord, Bits.unlock]
    · simp only [hn, Finset.filter_false, Finset.card_empty]
      exact hrds
    · exact fun u w k hu _ => absurd hu (hn u _)
  | shared =>
    have hex : ∀ u, s.role u ≠ .holding .exclusive := by
      intro u hu
      have hut := h.alone u t .shared hu hrl
      rw [hut, hu] at hrl
      cases hrl
    have hn := hno .exclusive fun u _ => hex u
    constructor
    · simp only [hn, exists_false, iff_false]
      change ¬s.word.locked = true
      rw [h.locked]
      rintro ⟨u, hu⟩
      exact hex u hu
    · change s.word.readers - 1 = _
      have ht : t ∈ Finset.univ.filter fun u => s.role u = .holding .shared := by simp [hrl]
      rw [h.readers, ← Finset.card_erase_of_mem ht]
      congr 1
      ext u
      rw [Finset.mem_erase, Finset.mem_filter, Finset.mem_filter]
      by_cases hu : u = t
      · simp [View.setRole, hu, ne_holding hr]
      · simp [View.setRole, View.setWord, hu]
    · exact fun u w k hu _ => absurd hu (hn u)

lemma Move.held (h : Move s s') (hs : s.Held) : s'.Held := by
  cases h with
  | start t kind hr => exact hs.frame rfl rfl fun _ _ => Iff.rfl
  | acquire t waited long hr hw =>
    exact hs.acquire (hr ▸ isHolding_entering _ _) hw
  | enqueue t waited long long' hr =>
    exact hs.move rfl rfl ((congrArg _ hr).trans (isHolding_entering _ _)) rfl
  | push t long hr =>
    have hq : ({ s with queue := if long then t :: s.queue else s.queue ++ [t] }).Held :=
      hs.frame rfl rfl fun _ _ => Iff.rfl
    exact hq.move (b := s.word) rfl rfl (congrArg _ hr) rfl
  | settle _ _ hr | take _ hr | chosen _ _ hr | left _ _ _ _ hr =>
    exact hs.move rfl rfl (congrArg _ hr) rfl
  | unlock t kind hr => exact hs.unlock hr (by split_ifs <;> rfl)
  | giveUp t hr => exact hs.move (b := s.word) rfl rfl (congrArg _ hr) rfl
  | choose t wake rest _ hr | leave t _ _ _ wake rest _ hr =>
    exact (hs.remove wake rest).move (b := s.word) rfl rfl
      ((s.isHolding_remove wake rest t).trans (congrArg _ hr)) rfl
  | cancel t long dequeued wakeNext hr =>
    exact hs.move rfl rfl ((congrArg _ hr).trans (isHolding_waiting _ _)) rfl

end Held

/-! ## The spin lock and the queue -/

def Role.critical : Role → Bool
  | .enqueuing _ => true
  | .enqueued _ => true
  | .choosing => true
  | .chosen _ => true
  | .leaving _ _ _ => true
  | .left _ _ _ => true
  | _ => false

def Role.inQueue : Role → Bool
  | .queued _ => true
  | .enqueued _ => true
  | .leaving _ dequeued _ => !dequeued
  | _ => false

/-- The spin lock is held by one task at a time, and the queue is made of the tasks that are in
it. -/
structure View.Guarded (s : View n) : Prop where
  one : ∀ t u, (s.role t).critical = true → (s.role u).critical = true → t = u
  spin : s.word.spinlock = true ↔ ∃ t, (s.role t).critical = true
  nodup : s.queue.Nodup
  mem : ∀ t, t ∈ s.queue ↔ (s.role t).inQueue = true

section Guarded
variable {s s' : View n} {t : Fin n} (waited long : Bool)

lemma Role.critical_entering : (entering waited long).critical = false := by
  cases waited <;> rfl

lemma Role.inQueue_entering : (entering waited long).inQueue = false := by
  cases waited <;> rfl

lemma Role.inQueue_waiting (dequeued long : Bool) :
    (waiting dequeued long).inQueue = !dequeued := by
  cases dequeued <;> rfl

lemma Role.critical_dequeue (r : Role) : r.dequeue.critical = r.critical := by
  cases r <;> rfl

lemma View.critical_remove (s : View n) (wake rest : List (Fin n)) (u : Fin n) :
    ((s.remove wake rest).role u).critical = (s.role u).critical := by
  rw [View.role_remove]
  split_ifs
  · exact critical_dequeue _
  · rfl

lemma View.role_setRole_self (s : View n) (t : Fin n) (r : Role) : (s.setRole t r).role t = r := by
  simp [View.setRole]

lemma View.role_setRole_of_ne (s : View n) {u : Fin n} (h : u ≠ t) (r : Role) :
    (s.setRole t r).role u = s.role u := by
  simp [View.setRole, h]

lemma View.role_remove_of_notMem (s : View n) {wake : List (Fin n)} (rest : List (Fin n))
    (h : t ∉ wake) : (s.remove wake rest).role t = s.role t := by
  rw [role_remove, if_neg h]

namespace View.Guarded
variable {b : Bits} {r : Role}

/-- A task alone is in a section under the spin lock. -/
lemma of_only (hs : s.word.spinlock = true) (hc : r.critical = true)
    (hoth : ∀ u, u ≠ t → (s.role u).critical = false) (hnd : s.queue.Nodup)
    (hm : ∀ u, u ∈ s.queue ↔ ((s.setRole t r).role u).inQueue = true) :
    (s.setRole t r).Guarded := by
  have ho : ∀ u, ((s.setRole t r).role u).critical = true → u = t := by
    intro u hu
    by_contra hut
    rw [s.role_setRole_of_ne hut, hoth u hut] at hu
    cases hu
  refine ⟨fun u w hu hw => (ho u hu).trans (ho w hw).symm, ?_, hnd, hm⟩
  exact iff_of_true hs ⟨t, by rwa [s.role_setRole_self]⟩

section
variable (h : s.Guarded) {wake rest : List (Fin n)} {set : Bool}
include h

lemma not_critical (hf : s.word.spinlock = false) (u : Fin n) : (s.role u).critical = false := by
  rw [eq_false_iff]
  exact fun hu => false_ne_true (hf.symm.trans (h.spin.mpr ⟨u, hu⟩))

lemma not_critical_of_ne (ht : (s.role t).critical = true) {u : Fin n} (hu : u ≠ t) :
    (s.role u).critical = false := by
  rw [eq_false_iff]
  exact fun hc => hu (h.one u t hc ht)

lemma notMem {r₀ : Role} (hrl : s.role t = r₀) (hr : r₀.inQueue = false) : t ∉ s.queue := by
  rw [h.mem, hrl, hr]
  exact false_ne_true

lemma setWord (hs : b.spinlock = s.word.spinlock) : (s.setWord b).Guarded :=
  ⟨h.one, hs ▸ h.spin, h.nodup, h.mem⟩

lemma mem_setRole (hq : r.inQueue = (s.role t).inQueue) (u : Fin n) :
    u ∈ s.queue ↔ (((s.setWord b).setRole t r).role u).inQueue = true := by
  change _ ↔ ((s.setRole t r).role u).inQueue = true
  rw [h.mem]
  by_cases hu : u = t
  · rw [hu, s.role_setRole_self, hq]
  · rw [s.role_setRole_of_ne hu]

lemma setRole (hc : r.critical = (s.role t).critical)
    (hq : r.inQueue = (s.role t).inQueue) : (s.setRole t r).Guarded := by
  have hs : ∀ u, ((s.setRole t r).role u).critical = (s.role u).critical := by
    intro u
    by_cases hu : u = t
    · rw [hu, s.role_setRole_self, hc]
    · rw [s.role_setRole_of_ne hu]
  refine ⟨fun u w hu hw => ?_, ?_, h.nodup, h.mem_setRole (b := s.word) hq⟩
  · exact h.one u w (hs u ▸ hu) (hs w ▸ hw)
  · simp only [hs]
    exact h.spin

lemma enter (hf : s.word.spinlock = false) (hs : b.spinlock = true)
    (hc : r.critical = true) (hq : r.inQueue = (s.role t).inQueue) :
    ((s.setWord b).setRole t r).Guarded := by
  exact of_only hs hc (fun u _ => h.not_critical hf u) h.nodup (h.mem_setRole hq)

section
variable (ht : (s.role t).critical = true)
include ht

lemma exit (hs : b.spinlock = false) (hc : r.critical = false)
    (hq : r.inQueue = (s.role t).inQueue) : ((s.setWord b).setRole t r).Guarded := by
  have hn : ∀ u, ¬(((s.setWord b).setRole t r).role u).critical = true := by
    intro u hu
    by_cases hut : u = t
    · rw [hut, role_setRole_self] at hu
      exact false_ne_true (hc.symm.trans hu)
    · rw [role_setRole_of_ne _ hut] at hu
      exact hut (h.one u t hu ht)
  refine ⟨fun u _ hu _ => absurd hu (hn u), ?_, h.nodup, h.mem_setRole hq⟩
  refine iff_of_false (fun hb => false_ne_true (hs.symm.trans hb)) ?_
  exact fun ⟨u, hu⟩ => hn u hu

/-- With the spin lock in other hands a task in the queue only waits. -/
lemma queued_of_mem (htq : (s.role t).inQueue = false) {u : Fin n} (hu : u ∈ s.queue) :
    u ≠ t ∧ ∃ long, s.role u = .queued long := by
  have hq := (h.mem u).mp hu
  have hut : u ≠ t := by
    rintro rfl
    exact h.notMem rfl htq hu
  have hc := h.not_critical_of_ne ht hut
  refine ⟨hut, ?_⟩
  cases hr : s.role u with
  | queued long => exact ⟨long, rfl⟩
  | enqueued | leaving => rw [hr] at hc; cases hc
  | _ => rw [hr] at hq; cases hq

lemma remove (htq : (s.role t).inQueue = false) (hp : Parts s.kind s.queue wake rest set) :
    (s.remove wake rest).Guarded := by
  have hc := s.critical_remove wake rest
  have hnd : (wake ++ rest).Nodup := hp.perm.nodup_iff.mpr h.nodup
  refine ⟨fun u w hu hw => ?_, ?_, hp.sublist.nodup h.nodup, fun u => ?_⟩
  · exact h.one u w (hc u ▸ hu) (hc w ▸ hw)
  · simp only [hc]
    exact h.spin
  · rw [View.role_remove]
    split_ifs with hu
    · -- A waiter that is taken off the queue had no spin lock, since `t` has it.
      obtain ⟨-, long, hrl⟩ := h.queued_of_mem ht htq
        (hp.perm.subset (mem_append_left _ hu))
      rw [hrl]
      exact iff_of_false (fun hr => (nodup_append.mp hnd).2.2 u hu u hr rfl)
        false_ne_true
    · rw [← h.mem, ← hp.perm.mem_iff, mem_append]
      exact (or_iff_right hu).symm

end

/-- A task with the spin lock that is not in the queue is not among those taken off. -/
lemma notMem_wake (htq : (s.role t).inQueue = false)
    (hp : Parts s.kind s.queue wake rest set) :
    t ∉ wake :=
  fun ht => h.notMem rfl htq (hp.perm.subset (mem_append_left _ ht))

variable (ht : (s.role t).critical = true)
include ht

lemma choose (htq : (s.role t).inQueue = false) (hp : Parts s.kind s.queue wake rest set)
    (hc : r.critical = true) (hq : r.inQueue = false) :
    ((s.remove wake rest).setRole t r).Guarded := by
  have hs := s.role_remove_of_notMem rest (h.notMem_wake htq hp)
  refine (h.remove ht htq hp).setRole ?_ ?_
  · rw [hs, ht, hc]
  · rw [hs, htq, hq]

lemma leave (hc : r.critical = true) (hq : r.inQueue = false) :
    ((s.remove [] (s.queue.erase t)).setRole t r).Guarded := by
  have hs : ∀ u, (s.remove [] (s.queue.erase t)).role u = s.role u :=
    fun u => s.role_remove_of_notMem _ not_mem_nil
  refine of_only (h.spin.mpr ⟨t, ht⟩) hc (fun u hu => ?_) (h.nodup.erase t) fun u => ?_
  · rw [hs]
    exact h.not_critical_of_ne ht hu
  · change u ∈ s.queue.erase t ↔ _
    rw [h.nodup.mem_erase_iff, h.mem]
    by_cases hu : u = t
    · rw [hu, role_setRole_self, hq]
      simp
    · rw [role_setRole_of_ne _ hu, hs]
      exact and_iff_right hu

lemma push {queue : List (Fin n)} (htq : (s.role t).inQueue = false)
    (hc : r.critical = true) (hq : r.inQueue = true)
    (hp : queue.Perm (t :: s.queue)) :
    ({ s with queue := queue }.setRole t r).Guarded := by
  refine of_only (h.spin.mpr ⟨t, ht⟩) hc (fun u hu => h.not_critical_of_ne ht hu) ?_
    fun u => ?_
  · exact hp.nodup_iff.mpr (nodup_cons.mpr ⟨h.notMem rfl htq, h.nodup⟩)
  · change u ∈ queue ↔ _
    rw [hp.mem_iff, mem_cons, h.mem]
    by_cases hu : u = t
    · rw [hu, role_setRole_self]
      exact iff_of_true (.inl rfl) hq
    · rw [role_setRole_of_ne _ hu]
      exact or_iff_right hu

end

end View.Guarded

lemma Move.guarded (h : Move s s') (hs : s.Guarded) : s'.Guarded := by
  cases h with
  | start t kind hr => exact ⟨hs.one, hs.spin, hs.nodup, hs.mem⟩
  | acquire t waited long hr hw =>
    have hw : (s.setWord (s.word.acquire (s.kind t) waited long)).Guarded := hs.setWord rfl
    refine hw.setRole ?_ ?_
    · exact ((congrArg _ hr).trans (critical_entering _ _)).symm
    · exact ((congrArg _ hr).trans (inQueue_entering _ _)).symm
  | enqueue t waited long long' hr hf =>
    exact hs.enter hf rfl rfl ((congrArg _ hr).trans (inQueue_entering _ _)).symm
  | push t long hr =>
    refine hs.push (congrArg _ hr) (congrArg _ hr) rfl rfl ?_
    cases long
    · exact perm_append_comm
    · exact .refl _
  | settle _ _ hr | chosen _ _ hr | left _ _ _ _ hr =>
    exact hs.exit (congrArg _ hr) rfl rfl (congrArg inQueue hr).symm
  | unlock t kind hr =>
    have hw : (s.setWord (s.word.unlock kind)).Guarded := hs.setWord (by cases kind <;> rfl)
    refine hw.setRole ?_ ?_
    all_goals exact Eq.trans (by split_ifs <;> rfl) (congrArg _ hr).symm
  | giveUp t hr =>
    exact hs.setRole (congrArg critical hr).symm (congrArg inQueue hr).symm
  | take t hr hf => exact hs.enter hf rfl rfl (congrArg inQueue hr).symm
  | choose t wake rest set hr hp =>
    exact hs.choose (congrArg _ hr) (congrArg _ hr) hp rfl rfl
  | cancel t long dequeued wakeNext hr hf =>
    exact hs.enter hf rfl rfl ((congrArg _ hr).trans (inQueue_waiting _ _)).symm
  | leave t long dequeued wakeNext wake rest set hr hwk hp =>
    cases dequeued with
    | true => exact hs.choose (congrArg _ hr) (congrArg _ hr) hp rfl rfl
    | false =>
      obtain ⟨rfl, rfl, -⟩ := hp
      exact hs.leave (congrArg _ hr) rfl rfl

end Guarded

end GunyahVmm.Sync
