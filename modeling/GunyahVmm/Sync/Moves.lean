import GunyahVmm.Sync.Roles

/-! Every step of the lock is a move, with the task's variables in one of the few forms that the
calls give them. -/

namespace GunyahVmm.Sync
open Function State Slow View Option
variable {n : Nat}

/-! ## The variables of a call -/

/-- The forms of the variables of `lock_slow`: before the first wait, after it, and once
`LONG_WAIT` was set. -/
inductive Slow.Ok : Kind → Slow → Prop where
  | fresh (kind : Kind) : Slow.Ok kind (lockSlow kind 0 0)
  | waited (kind : Kind) (waitCount : Nat) :
      Slow.Ok kind ⟨kind, designatedWaker, kind.zeroToAcquire &&& ~~~writerWaiting, waitCount⟩
  | long (kind : Kind) (waitCount : Nat) (h : longWaitThreshold ≤ waitCount) :
      Slow.Ok kind ⟨kind, designatedWaker ||| longWait,
        kind.zeroToAcquire &&& ~~~writerWaiting &&& ~~~longWait, waitCount⟩

/-- The masks for a release of the spin lock: no holder's part is cleared, and at most the flag of
waiting writers set. -/
structure Masks (clear set : Word) : Prop where
  clear_lt : clear.toNat < 256
  set_lt : set.toNat < 256
  keeps : (bits clear).locked = false
  spinlock : (bits clear).spinlock = true
  only : bits set = { bits 0 with writerWaiting := (bits set).writerWaiting }

def Pc.Ok (kind : Kind) : Pc n → Prop
  | .idle => True
  | .lockFirst k => k = kind
  | .lockSecond k oldstate => k = kind ∧ oldstate &&& k.zeroToAcquire = 0
  | .slowLoad v => v.Ok kind
  | .slowAcquire v oldstate => v.Ok kind ∧ oldstate &&& v.zeroToAcquire = 0
  | .slowReset v oldstate =>
    v.Ok kind ∧ oldstate &&& v.zeroToAcquire ≠ 0 ∧ oldstate &&& spinlock = 0
  | .slowEnqueue v oldstate =>
    v.Ok kind ∧ oldstate &&& v.zeroToAcquire ≠ 0 ∧ oldstate &&& spinlock = 0
  | .slowPush v _ => v.Ok kind
  | .slowRelease v _ set => v.Ok kind ∧ set = if v.long then longWait else 0
  | .slowWait v => v.Ok kind
  | .holding _ => True
  | .unlockLoad => True
  | .unlockAcquire oldstate =>
    oldstate &&& hasWaiters ≠ 0 ∧ oldstate &&& designatedWaker = 0 ∧ oldstate &&& spinlock = 0
  | .unlockList _ => True
  | .unlockRelease _ clear set _ => Masks clear set ∧ (bits clear).writerWaiting = false
  | .cancelLoad v _ => v.Ok kind
  | .cancelAcquire v _ _ => v.Ok kind
  | .cancelList v _ _ => v.Ok kind
  | .cancelRelease v _ clear set _ => v.Ok kind ∧ Masks clear set
  | .cancelReload v clear set _ => v.Ok kind ∧ Masks clear set
  | .waking _ => True

/-- The variables of every task are in order. -/
def State.Local (s : State n) : Prop := ∀ t, (s.tasks t).pc.Ok (s.tasks t).waiter.kind

/-- A waiter in no queue is not waited for as if it were, and a woken one is in no queue. -/
def Pc.Fits (w : Waiter) : Pc n → Prop
  | .slowEnqueue _ _ => w.dequeued = false ∧ w.state = .init
  | .slowPush _ _ => w.dequeued = false ∧ w.state = .init
  | .slowRelease _ _ _ => w.dequeued = false ∧ w.linked = true ∧ w.state = .init
  | .slowWait _ =>
    w.state ≠ .finished ∧ (w.state = .woken → w.dequeued = true) ∧
      (w.dequeued = false → w.linked = true)
  | .cancelLoad _ wakeNext =>
    (wakeNext = true → w.dequeued = true) ∧ (w.dequeued = false → w.linked = true)
  | .cancelAcquire _ wakeNext _ =>
    (wakeNext = true → w.dequeued = true) ∧ (w.dequeued = false → w.linked = true)
  | .cancelList _ wakeNext _ =>
    (wakeNext = true → w.dequeued = true) ∧ (w.dequeued = false → w.linked = true)
  | _ => True

def State.Fits (s : State n) : Prop := ∀ t, (s.tasks t).pc.Fits (s.tasks t).waiter

/-! ## The word -/

section Word
variable {kind : Kind} {v : Slow} {old clear : Word}
section
variable (h : v.Ok kind)
include h

lemma Slow.Ok.kind_eq : v.kind = kind := by
  cases h <;> rfl

lemma Slow.Ok.clear_lt : v.clear.toNat < 256 := by
  cases h <;> simp only [lockSlow] <;> decide

lemma Slow.Ok.waited_of_long (hl : v.long = true) :
    v.waited = true ∧ longWaitThreshold ≤ v.waitCount := by
  cases h with
  | fresh => simp [Slow.long, lockSlow] at hl
  | waited => simp [Slow.long] at hl
  | long c hc => exact ⟨by simp [Slow.waited], hc⟩

lemma Slow.Ok.waited_of_count (hc : longWaitThreshold ≤ v.waitCount) : v.waited = true := by
  cases h with
  | fresh => cases hc
  | waited | long => simp [Slow.waited]

lemma Slow.Ok.afterWait : v.afterWait.Ok kind := by
  cases h with
  | fresh => cases kind <;> exact .waited _ 1
  | waited c => simpa [afterWait, BitVec.and_assoc] using Ok.waited kind (c + 1)
  | long c hc =>
    simp only [Slow.afterWait]
    convert Ok.long kind (c + 1) (Nat.le_succ_of_le hc) using 2 <;> cases kind <;> decide

lemma Slow.Ok.atFront (hcnt : longWaitThreshold ≤ v.waitCount) : v.atFront.Ok kind := by
  cases h with
  | fresh => cases hcnt
  | waited c => exact .long kind c hcnt
  | long c hc => simpa [Slow.atFront, BitVec.or_assoc, BitVec.and_assoc] using Ok.long kind c hc

end

lemma Slow.long_atFront (v : Slow) : v.atFront.long = true := by
  simp [long, atFront, bits_or _ longWait (by decide)]

lemma Slow.long_afterWait (v : Slow) : v.afterWait.long = v.long := by
  simp [long, afterWait, bits_or _ designatedWaker (by decide)]

lemma Slow.waited_afterWait (v : Slow) : v.afterWait.waited = true := by
  simp [waited, afterWait, bits_or _ designatedWaker (by decide)]

lemma Slow.Ok.zeroToAcquire_eq (h : v.Ok kind) : v.zeroToAcquire =
    locked ||| (match kind with
      | .shared => if v.waited then 0 else writerWaiting
      | .exclusive => readMask) ||| if v.long then 0 else longWait := by
  cases h <;> cases kind <;> simp [Slow.waited, Slow.long, lockSlow] <;> decide

/-- The test of `lock_slow` before it tries to acquire the lock. -/
lemma Slow.Ok.acquirable_iff (h : v.Ok kind) :
    old &&& v.zeroToAcquire = 0 ↔ (bits old).Acquirable kind v.waited v.long := by
  have hu (b : Bool) (m : Word) : old &&& (if b then 0 else m) = 0 ↔ b = false → old &&& m = 0 := by
    cases b <;> simp
  rw [h.zeroToAcquire_eq, and_or_eq_zero, and_or_eq_zero, and_locked, hu, and_longWait]
  cases kind with
  | shared =>
    rw [hu, and_writerWaiting]
    simp [Bits.Acquirable, and_comm, and_left_comm]
  | exclusive =>
    rw [and_readMask]
    simp [Bits.Acquirable, and_assoc]

lemma Slow.Ok.bits_acquire (h : v.Ok kind) {new : Word}
    (hwr : (bits old).Acquirable kind v.waited v.long)
    (hn : acquireWord kind v.clear old = some new) :
    bits new = (bits old).acquire kind v.waited v.long := by
  unfold acquireWord at hn
  split_ifs at hn with hsum
  cases hn
  have hlt : (v.clear ||| kind.clearOnAcquire).toNat < 256 := by
    exact Nat.or_lt_two_pow (n := 8) h.clear_lt (by cases kind <;> decide)
  have hc : (bits v.clear).locked = false ∧ (bits v.clear).hasWaiters = false ∧
      (bits v.clear).spinlock = false ∧ (bits v.clear).writerWaiting = false := by
    cases h <;> simp [lockSlow]
  obtain ⟨hl, hw, hs, hww⟩ := hc
  rw [bits_and_not _ _ hlt]
  cases kind with
  | shared =>
    rw [show Kind.shared.addToAcquire = readLock from rfl, bits_add_readLock _ hsum,
      bits_or _ _ (by decide)]
    simp [Bits.acquire, Kind.clearOnAcquire, hl, hw, hs, hww, Slow.waited, Slow.long]
  | exclusive =>
    rw [show Kind.exclusive.addToAcquire = locked from rfl, bits_add_locked _ hwr.1,
      bits_or _ _ (by decide)]
    simp [Bits.acquire, Kind.clearOnAcquire, hl, hw, hs, hww, Slow.waited, Slow.long]

lemma Slow.Ok.bits_enqueue (h : v.Ok kind) :
    bits (enqueueWord v old) = (bits old).enqueue kind v.waited v.long := by
  rw [enqueueWord, bits_and_not _ _ h.clear_lt, h.kind_eq]
  have hs : kind.setWhenWaiting.toNat < 256 := by cases kind <;> decide
  rw [bits_or _ _ hs, bits_or _ hasWaiters (by decide), bits_or _ spinlock (by decide)]
  cases kind <;> cases h <;>
    simp [Bits.enqueue, Kind.setWhenWaiting, Slow.waited, Slow.long, lockSlow]

lemma bits_settle (long : Bool) :
    bits ((old ||| if long then longWait else 0) &&& ~~~spinlock) =
      { bits old with spinlock := false, longWait := (bits old).longWait || long } := by
  rw [bits_and_not _ _ (by decide), bits_or _ _ (by cases long <;> decide)]
  cases long <;> simp

/-- The release in `unlock_slow`. -/
lemma Masks.bits_unlock {set : Word} (h : Masks clear set)
    (hwr : (bits clear).writerWaiting = false) :
    bits ((old ||| set) &&& ~~~clear) = (bits old).release (.ofMasks clear set) := by
  rw [bits_and_not _ _ h.clear_lt, bits_or _ _ h.set_lt, h.only]
  simp [Bits.release, Release.ofMasks, h.keeps, h.spinlock, hwr]

/-- The release in `cancel_waiter`. -/
lemma Masks.bits_cancel {set : Word} (h : Masks clear set) :
    bits ((old &&& ~~~clear) ||| set) = (bits old).release (.ofMasks clear set) := by
  rw [bits_or _ _ h.set_lt, bits_and_not _ _ h.clear_lt, h.only]
  simp [Bits.release, Release.ofMasks, h.keeps, h.spinlock]

/-- The masks that the two sections under the spin lock collect. -/
lemma masks_of_flags (empty none long writer set : Bool) {set' : Word}
    (hc : clear = spinlock ||| (if long then longWait else 0) |||
      (if empty then hasWaiters else 0) ||| (if none then designatedWaker else 0) |||
      (if writer then writerWaiting else 0))
    (hs : set' = if set then writerWaiting else 0) :
    Masks clear set' ∧ Release.ofMasks clear set' = ⟨empty, none, long, writer, set⟩ := by
  subst hc hs
  cases empty <;> cases none <;> cases long <;> cases writer <;> cases set <;>
    exact ⟨⟨by decide, by decide, by decide, by decide, by decide⟩, by decide⟩

end Word

/-! ## The waiter list -/

section WakeList
variable (kind : Fin n → Kind)

lemma wakeLoop_spec (wakingReaders : Bool) (queue : List (Fin n)) :
    ((wakeLoop kind wakingReaders queue).1 ++ (wakeLoop kind wakingReaders queue).2.1).Perm queue ∧
      (wakeLoop kind wakingReaders queue).2.1.Sublist queue ∧
      ((wakeLoop kind wakingReaders queue).2.2 = 0 ∨
        (wakeLoop kind wakingReaders queue).2.2 = writerWaiting ∧
          ∃ t ∈ (wakeLoop kind wakingReaders queue).2.1, kind t = .exclusive) := by
  fun_induction wakeLoop kind wakingReaders queue with
  | case1 => exact ⟨.refl _, .refl _, .inl rfl⟩
  | case2 _ w ws hw wake rest set hr ih =>
    rw [hr] at ih
    exact ⟨ih.1.cons w, ih.2.1.cons w, ih.2.2⟩
  | case3 w ws hw wake rest set hr ih =>
    rw [hr] at ih
    obtain ⟨hp, hs, hset⟩ := ih
    refine ⟨List.perm_middle.trans (hp.cons w), hs.cons_cons w, .inr ⟨?_, w, ?_, hw⟩⟩
    · obtain h | ⟨h, -⟩ := hset
      all_goals exact (congrArg (· ||| writerWaiting) h).trans (by decide)
    · exact List.mem_cons_self
  | case4 _ w ws => exact ⟨.refl _, List.sublist_cons_self w ws, .inl rfl⟩

lemma getWakeList_parts (queue : List (Fin n)) :
    ∃ wake rest, ∃ set : Bool, getWakeList kind queue =
      (wake, rest, if set then writerWaiting else 0) ∧
      Parts kind queue wake rest set := by
  have hh : ∀ t, queue.head? = some t → t ∈ (wakeLoop kind false queue).1 := by
    intro t ht
    cases queue with
    | nil => cases ht
    | cons w ws =>
      cases ht
      unfold wakeLoop
      cases kind t <;> exact List.mem_cons_self
  obtain ⟨hp, hs, h | ⟨h, hwr⟩⟩ := wakeLoop_spec kind false queue
  · refine ⟨_, _, false, Prod.ext rfl (Prod.ext rfl h), hp, hs, hh, ?_⟩
    exact fun hset => absurd hset Bool.false_ne_true
  · exact ⟨_, _, true, Prod.ext rfl (Prod.ext rfl h), hp, hs, hh, fun _ => hwr⟩

end WakeList

/-! ## The view of an update -/

section Updates
variable {s : State n} {t : Fin n} {pc : Pc n} (v : View n)

lemma View.setRole_self (t : Fin n) {r : Role} (h : r = v.role t) : v.setRole t r = v := by
  rw [setRole, h, update_eq_self]

lemma View.setRole_setRole (t : Fin n) (r r' : Role) :
    (v.setRole t r).setRole t r' = v.setRole t r' := by
  rw [setRole, setRole, setRole, update_idem]

section
variable (s : State n) (t : Fin n)

lemma State.view_update (task : Task n) :
    ({ s with tasks := update s.tasks t task } : State n).view =
      { s.view with
        kind := update s.view.kind t task.waiter.kind
        role := update s.view.role t (task.pc.role task.waiter) } := by
  simp only [view, View.mk.injEq, true_and]
  exact ⟨comp_update (fun task : Task n => task.waiter.kind) s.tasks t task,
    comp_update (fun task : Task n => task.pc.role task.waiter) s.tasks t task⟩

lemma State.view_goto (pc : Pc n) :
    (s.goto t pc).view = s.view.setRole t (pc.role (s.tasks t).waiter) := by
  have hkind := update_eq_self t s.view.kind
  rw [goto, view_update]
  exact congrArg (View.mk s.view.word s.view.queue · _) hkind

lemma State.view_setWaiter {w : Waiter} (h : w.kind = s.kindOf t) :
    (s.setWaiter t w).view = s.view.setRole t ((s.tasks t).pc.role w) := by
  have hkind := update_eq_self t s.view.kind
  rw [setWaiter, view_update, h]
  exact congrArg (View.mk s.view.word s.view.queue · _) hkind

end

lemma State.role_of_pc (hpc : (s.tasks t).pc = pc) : s.view.role t = pc.role (s.tasks t).waiter :=
  congrArg (Pc.role · _) hpc

lemma Pc.role_dequeue (pc : Pc n) (w : Waiter) :
    pc.role (w.setWaitingFor .none) = (pc.role w).dequeue := by
  have hen : ∀ waited long, (Role.entering waited long).dequeue = .entering waited long := by
    intro waited long
    cases waited <;> rfl
  have hw : ∀ long, Role.waiting (w.setWaitingFor .none).dequeued long
      = (Role.waiting w.dequeued long).dequeue := by
    intro long
    cases h : w.dequeued <;> rfl
  cases pc with
  | slowLoad | slowAcquire | slowReset | slowEnqueue => exact (hen _ _).symm
  | slowWait | cancelLoad | cancelAcquire => exact hw _
  | _ => rfl

lemma State.view_removeWaiters (s : State n) (wake rest : List (Fin n)) :
    (s.removeWaiters wake rest).view = s.view.remove wake rest := by
  simp only [view, removeWaiters, View.remove, View.mk.injEq, true_and]
  constructor
  all_goals funext u
  · by_cases hu : u ∈ wake
    · simp [kindOf, hu, Waiter.setWaitingFor]
    · simp [kindOf, hu]
  · by_cases hu : u ∈ wake
    · simpa [hu] using Pc.role_dequeue _ _
    · simp [hu]

lemma State.Local.update (h : s.Local) {task : Task n} (ht : task.pc.Ok task.waiter.kind) :
    State.Local { s with tasks := update s.tasks t task } := by
  intro u
  by_cases hu : u = t
  · subst hu
    simpa using ht
  · simpa [hu] using h u

lemma State.Local.goto (h : s.Local) (hpc : pc.Ok (s.kindOf t)) : (s.goto t pc).Local :=
  h.update hpc

lemma State.Local.setWaiter (h : s.Local) {w : Waiter} (hkind : w.kind = s.kindOf t) :
    (s.setWaiter t w).Local := by
  refine h.update ?_
  rw [hkind]
  exact h t

lemma State.Local.removeWaiters (h : s.Local) (wake rest : List (Fin n)) :
    (s.removeWaiters wake rest).Local := by
  intro u
  by_cases hu : u ∈ wake
  · simpa [State.removeWaiters, hu, Waiter.setWaitingFor] using h u
  · simpa [State.removeWaiters, hu] using h u

end Updates

/-! ## Steps -/

/-- The variables stay in order, and the step is a move or changes nothing that others see. -/
def Goes (s s' : State n) : Prop := s'.Local ∧ (s'.view = s.view ∨ Move s.view s'.view)

section Steps
variable {s s' : State n} {t : Fin n} {fails : Bool}
variable {old new oldstate : Word} {failure success : Pc n} {v : Slow} {kind : Kind}
  {wakeNext : Bool}

lemma goes_stay (h : s.Local) (pc : Pc n) (hpc : pc.Ok (s.kindOf t))
    (hrole : pc.role (s.tasks t).waiter = s.view.role t) : Goes s (s.goto t pc) := by
  refine ⟨h.goto hpc, .inl ?_⟩
  rw [view_goto, setRole_self _ _ hrole]

lemma goes_compareExchange
    (hs : s.word = old → Goes s (({ s with word := new } : State n).goto t success))
    (hf : Goes s (s.goto t failure)) :
    Goes s (s.compareExchange t fails old new success failure) := by
  unfold compareExchange
  split_ifs with h
  · exact hs h.1
  · exact hf

lemma goes_exchange (h : s.Local) (hs : success.Ok (s.kindOf t))
    (hm : s.word = old → Move s.view
      ((s.view.setWord (bits new)).setRole t (success.role (s.tasks t).waiter)))
    (hf : failure.Ok (s.kindOf t)) (hrole : failure.role (s.tasks t).waiter = s.view.role t) :
    Goes s (s.compareExchange t fails old new success failure) := by
  refine goes_compareExchange (fun hw => ?_) (goes_stay h _ hf hrole)
  refine ⟨State.Local.goto (s := { s with word := new }) h hs, .inr ?_⟩
  rw [view_goto]
  exact hm hw

lemma goes_update (h : s.Local) (pc : Pc n) {w : Waiter} (hpc : pc.Ok (s.kindOf t))
    (hkind : w.kind = s.kindOf t) (hrole : pc.role w = s.view.role t) :
    Goes s ((s.setWaiter t w).goto t pc) := by
  have hs : (s.setWaiter t w).kindOf t = s.kindOf t := by
    simp [kindOf, setWaiter, hkind]
  have hw : ((s.setWaiter t w).tasks t).waiter = w := by
    simp [setWaiter]
  refine ⟨(h.setWaiter hkind).goto (hs ▸ hpc), .inl ?_⟩
  rw [view_goto, view_setWaiter _ _ hkind, setRole_setRole, hw]
  exact setRole_self _ _ hrole

section
variable (h : s.Local) (hv : v.Ok kind) (hkind : s.kindOf t = kind)
  (hrole : s.view.role t = .entering v.waited v.long)

include h hv hkind hrole

/-- A compare-exchange that takes the lock. -/
lemma goes_acquire (hw : (bits s.word).Acquirable kind v.waited v.long)
    (hn : bits new = (bits s.word).acquire kind v.waited v.long) :
    Goes s (({ s with word := new } : State n).goto t (.holding kind)) := by
  refine ⟨State.Local.goto (s := { s with word := new }) h trivial, .inr ?_⟩
  subst hkind
  have hm := Move.acquire s.view t v.waited v.long hrole hw
  rw [view_goto]
  change Move s.view ((s.view.setWord (bits new)).setRole t _)
  rw [hn]
  exact hm

lemma goes_tryAcquire (ho : old &&& v.zeroToAcquire = 0) (hf : Goes s (s.goto t failure))
    (hs : tryAcquire s t fails kind v.clear old failure = some s') : Goes s s' := by
  obtain ⟨new, hn, hs⟩ := bind_eq_some_iff.mp hs
  cases hs
  refine goes_compareExchange (fun hw => ?_) hf
  have ha := hv.acquirable_iff.mp ho
  subst hw
  exact goes_acquire h hv hkind hrole ha (hv.bits_acquire ha hn)

end

lemma role_unlock {p q : Prop} [Decidable p] [Decidable q] (h : p ↔ q) (w : Waiter) :
    (if p then .unlockLoad else .idle : Pc n).role w = if q then .unlocking else .outside := by
  by_cases hp : p
  · rw [if_pos hp, if_pos (h.mp hp)]
    rfl
  · rw [if_neg hp, if_neg (fun hq => hp (h.mpr hq))]
    rfl

lemma goes_unlock (h : s.Local) (hrole : s.view.role t = .holding kind)
    (hl : kind = .exclusive → (bits s.word).locked = true)
    (hr : kind = .shared → 0 < (bits s.word).readers) : Goes s (unlockNow s t kind) := by
  have hwt : (s.word &&& hasWaiters ≠ 0 ∧ s.word &&& designatedWaker = 0) ↔
      (bits s.word).hasWaiters = true ∧ (bits s.word).designatedWaker = false := by
    rw [Ne, and_hasWaiters, and_designatedWaker, Bool.not_eq_false]
  have hgo (new : Word) (p : Prop) [Decidable p] (hn : bits new = (bits s.word).unlock kind)
      (ht : p ↔ s.view.word.Unserved kind) :
      Goes s (({ s with word := new } : State n).goto t (if p then .unlockLoad else .idle)) := by
    refine ⟨State.Local.goto (s := { s with word := new }) h (by split_ifs <;> trivial), .inr ?_⟩
    have hm := Move.unlock s.view t kind hrole
    rw [view_goto, role_unlock ht]
    change Move s.view ((s.view.setWord (bits new)).setRole t _)
    rw [hn]
    exact hm
  cases kind with
  | exclusive =>
    refine hgo _ _ (bits_sub_locked _ (hl rfl)) ?_
    rw [hwt, Bits.Unserved]
    exact ⟨fun hw => ⟨hw.1, hw.2, fun hk => by cases hk⟩, fun hw => ⟨hw.1, hw.2.1⟩⟩
  | shared =>
    refine hgo _ _ (bits_sub_readLock _ (hr rfl)) ?_
    rw [hwt, and_readMask_eq_readLock, Bits.Unserved]
    exact ⟨fun hw => ⟨hw.1.1, hw.1.2, fun _ => hw.2⟩, fun hw => ⟨⟨hw.1, hw.2.1⟩, hw.2.2 rfl⟩⟩

lemma goes_unlockLook (h : s.Local) (hrole : s.view.role t = .unlocking) :
    Goes s (s.goto t (unlockLook s.word)) := by
  unfold unlockLook
  split_ifs with hi hf
  · refine ⟨h.goto trivial, .inr ?_⟩
    rw [view_goto]
    refine Move.giveUp s.view t hrole ?_
    obtain hw | hd := hi
    · exact .inl ((and_hasWaiters _).mp hw)
    · right
      rw [Ne, and_designatedWaker, Bool.not_eq_false] at hd
      exact hd
  · push Not at hi
    exact goes_stay h _ ⟨hi.1, hi.2, hf⟩ hrole.symm
  · exact goes_stay h _ trivial hrole.symm

lemma goes_unlockList (h : s.Local) (hrole : s.view.role t = .choosing) :
    Goes s (unlockList s t oldstate) := by
  obtain ⟨wake, rest, set, hl, hp⟩ := getWakeList_parts s.kindOf s.waiters
  rw [unlockList, hl]
  obtain ⟨hm, hr⟩ :=
    masks_of_flags (decide (rest = [])) (decide (wake = [])) false false set rfl rfl
  have hz : ∀ w : Word, w ||| 0 = w := fun w => BitVec.or_zero
  simp only [decide_eq_true_eq, Bool.false_eq_true, if_false, hz] at hm hr
  refine ⟨(h.removeWaiters wake rest).goto ⟨hm, ?_⟩, .inr ?_⟩
  · exact congrArg Release.clearWriterWaiting hr
  · rw [view_goto, view_removeWaiters, Pc.role, hr]
    exact Move.choose s.view t wake rest set hrole hp

lemma cancelParts_parts (hwk : wakeNext = true → (s.tasks t).waiter.dequeued = true)
    (hln : (s.tasks t).waiter.dequeued = false → (s.tasks t).waiter.linked = true) :
    ∃ wake rest, ∃ set : Bool,
      cancelParts s t wakeNext = (wake, rest, if set then writerWaiting else 0) ∧
      LeaveParts s.kindOf t (s.tasks t).waiter.dequeued s.waiters wake rest set := by
  unfold LeaveParts cancelParts
  cases hd : (s.tasks t).waiter.dequeued with
  | true =>
    have hn : (s.tasks t).waiter.waitingFor = .none := of_decide_eq_true hd
    obtain ⟨wake, rest, set, hl, hp⟩ := getWakeList_parts s.kindOf s.waiters
    refine ⟨wake, rest, set, ?_, hp⟩
    simp [hn, hl]
  | false =>
    have hm : (s.tasks t).waiter.waitingFor = .mutex := by
      cases hw : (s.tasks t).waiter.waitingFor with
      | none => exact absurd hw (of_decide_eq_false hd)
      | mutex => rfl
    have hnot : wakeNext = false := by
      rw [Bool.eq_false_iff]
      exact fun hw => Bool.false_ne_true (hd.symm.trans (hwk hw))
    refine ⟨[], s.waiters.erase t, false, ?_, rfl, rfl, rfl⟩
    simp [hm, hnot, hln hd]

lemma goes_cancelList (h : s.Local) (hv : v.Ok (s.kindOf t))
    (hpc : (s.tasks t).pc = .cancelList v wakeNext oldstate)
    (hw : wakeNext = true → (s.tasks t).waiter.dequeued = true)
    (hln : (s.tasks t).waiter.dequeued = false → (s.tasks t).waiter.linked = true) :
    Goes s (cancelList s t v wakeNext oldstate) := by
  have hrole : s.view.role t = .leaving v.long (s.tasks t).waiter.dequeued wakeNext :=
    role_of_pc hpc
  obtain ⟨wake, rest, set, hl, hp⟩ := cancelParts_parts hw hln
  rw [cancelList, hl]
  obtain ⟨hm, hr⟩ := masks_of_flags (decide (rest = [])) (decide (wake = []))
    (decide (wakeNext = true ∨ s.waiters.head? = some t))
    (decide ((s.tasks t).waiter.kind = .exclusive)) set rfl rfl
  simp only [decide_eq_true_eq] at hm hr
  refine ⟨(h.removeWaiters wake rest).goto ⟨?_, hm⟩, .inr ?_⟩
  · have hkind : (s.removeWaiters wake rest).kindOf t = s.kindOf t := by
      simp only [kindOf, removeWaiters]
      split_ifs <;> rfl
    rwa [hkind]
  · have hdeq : ((s.removeWaiters wake rest).tasks t).waiter.dequeued
        = (s.tasks t).waiter.dequeued := by
      simp only [removeWaiters]
      split_ifs with ht
      · cases hd : (s.tasks t).waiter.dequeued with
        | true => rfl
        | false =>
          rw [LeaveParts, hd] at hp
          obtain ⟨rfl, -⟩ := hp
          cases ht
      · rfl
    rw [view_goto, view_removeWaiters, Pc.role, hdeq, hr]
    exact Move.leave s.view t _ _ wakeNext wake rest set hrole hw hp

lemma goes_slowPush (h : s.Local) (hv : v.Ok (s.kindOf t))
    (hrole : s.view.role t = .enqueuing (decide (longWaitThreshold ≤ v.waitCount))) :
    Goes s (slowPush s t v oldstate) := by
  have hm := Move.push s.view t _ hrole
  have hlc := h.setWaiter (t := t) (w := { (s.tasks t).waiter with linked := true }) rfl
  have hvw := s.view_setWaiter t (w := { (s.tasks t).waiter with linked := true }) rfl
  have hkind : (s.setWaiter t { (s.tasks t).waiter with linked := true }).kindOf t
      = s.kindOf t := by
    simp [kindOf, setWaiter]
  have hq : (s.setWaiter t { (s.tasks t).waiter with linked := true }).waiters = s.waiters := rfl
  unfold slowPush
  generalize s.setWaiter t { (s.tasks t).waiter with linked := true } = s₁ at *
  rw [← hkind] at hv
  have hgo (v' : Slow) (hv' : v'.Ok (s₁.kindOf t))
      (hl : decide (longWaitThreshold ≤ v.waitCount) = v'.long) :
      Goes s (({ s₁ with waiters := if v'.long then t :: s.waiters else s.waiters ++ [t] } :
        State n).goto t (.slowRelease v' oldstate (if v'.long then longWait else 0))) := by
    refine ⟨State.Local.goto (s := { s₁ with waiters := _ }) hlc ⟨hv', rfl⟩, .inr ?_⟩
    rw [view_goto]
    change Move s.view (({ s₁.view with queue := _ } : View n).setRole t (.enqueued v'.long))
    rw [hvw]
    rw [hl] at hm
    exact (setRole_setRole { s.view with queue := _ } t _ _).symm ▸ hm
  dsimp only
  rw [hq]
  split_ifs with hc
  · have hl : v.long = false := by
      rw [Bool.eq_false_iff]
      exact fun hl => absurd (hv.waited_of_long hl).2 (Nat.not_le.mpr hc)
    have hb := hgo v hv ((decide_eq_false (Nat.not_le.mpr hc)).trans hl.symm)
    rwa [hl] at hb
  · have hfar : longWaitThreshold ≤ v.waitCount := Nat.le_of_not_lt hc
    have hf := hgo v.atFront (hv.atFront hfar) ((decide_eq_true hfar).trans v.long_atFront.symm)
    rwa [v.long_atFront] at hf

lemma State.view_wake (s : State n) (r : WaiterRef n) : (s.wake r).view = s.view := by
  unfold wake
  split_ifs with hop
  · rw [s.view_setWaiter r.task (w := (s.tasks r.task).waiter.wake) rfl]
    refine setRole_self _ _ ?_
    change (s.tasks r.task).pc.role _ = (s.tasks r.task).pc.role _
    cases (s.tasks r.task).pc <;> rfl
  · rfl

lemma State.Local.wake (h : s.Local) (r : WaiterRef n) : (s.wake r).Local := by
  unfold State.wake
  split_ifs with hop
  · exact h.setWaiter rfl
  · exact h

lemma entering_fresh (kind : Kind) :
    Role.entering (lockSlow kind 0 0).waited (lockSlow kind 0 0).long = .outside := by
  simp [Role.entering, waited, lockSlow]

lemma goes_go (h : s.Local) (hft : s.Fits)
    (hs : taskStep s t (s.tasks t).pc (.go fails) = some s') :
    Goes s s' := by
  have hok := h t
  have hrole : s.view.role t = (s.tasks t).pc.role (s.tasks t).waiter := rfl
  have hfit := hft t
  generalize hpc : (s.tasks t).pc = pc at hs hok hrole hfit
  cases pc with
  | idle => cases hs
  | lockFirst kind =>
    cases hs
    have hkind : s.kindOf t = kind := hok.symm
    have hfr : (lockSlow kind 0 0).Ok (s.kindOf t) := hkind ▸ .fresh _
    have ho := entering_fresh kind
    refine goes_compareExchange (fun hw => ?_) ?_
    · refine goes_acquire h (.fresh kind) hkind (hrole.trans ho.symm) ?_ ?_
      · rw [hw]
        cases kind <;> simp [Bits.Acquirable]
      · rw [hw]
        cases kind <;> simp only [waited, long, lockSlow] <;> decide
    · split_ifs with hz
      · exact goes_stay h _ hfr (ho.trans hrole.symm)
      · exact goes_stay h _ ⟨hok, not_not.mp hz⟩ hrole.symm
  | lockSecond kind oldstate =>
    obtain ⟨hkind, hold⟩ := hok
    have hfr : (lockSlow kind 0 0).Ok (s.kindOf t) := hkind ▸ .fresh _
    have ho := entering_fresh kind
    have hm : (lockSlow kind 0 0).zeroToAcquire = kind.zeroToAcquire := by
      cases kind <;> decide
    exact goes_tryAcquire h (.fresh kind) hkind.symm (hrole.trans ho.symm) (hm ▸ hold)
      (goes_stay h (.slowLoad _) hfr (ho.trans hrole.symm)) hs
  | slowLoad v =>
    cases hs
    unfold slowLook
    split_ifs with hz hf
    · exact goes_stay h _ ⟨hok, hz⟩ hrole.symm
    · exact goes_stay h _ ⟨hok, hz, hf⟩ hrole.symm
    · exact goes_stay h _ hok hrole.symm
  | slowAcquire v oldstate =>
    obtain ⟨hv, hold⟩ := hok
    change tryAcquire s t fails v.kind v.clear oldstate _ = some s' at hs
    rw [hv.kind_eq] at hs
    exact goes_tryAcquire h hv rfl hrole hold (goes_stay h (.slowLoad v) hv hrole.symm) hs
  | slowReset v oldstate =>
    cases hs
    exact goes_update h (.slowEnqueue v oldstate) hok rfl hrole.symm
  | slowEnqueue v oldstate =>
    cases hs
    obtain ⟨hv, hb, hf⟩ := hok
    refine goes_exchange h hv (fun hw => ?_) hv hrole.symm
    subst hw
    rw [hv.bits_enqueue]
    refine Move.enqueue s.view t v.waited v.long _ hrole ((and_spinlock _).mp hf) ?_ ?_ ?_
    · exact fun ha => hb (hv.acquirable_iff.mpr ha)
    · exact fun hl => (hv.waited_of_long hl).imp_right decide_eq_true
    · exact fun hl => hv.waited_of_count (of_decide_eq_true hl)
  | slowPush v oldstate =>
    cases hs
    exact goes_slowPush h hok hrole
  | slowRelease v state set =>
    cases hs
    obtain ⟨hv, rfl⟩ := hok
    refine goes_exchange h hv (fun hw => ?_) ⟨hv, rfl⟩ hrole.symm
    subst hw
    have hq : (Pc.slowWait v : Pc n).role (s.tasks t).waiter = .queued v.long := by
      rw [Pc.role, hfit.1]
      rfl
    rw [bits_settle, hq]
    exact Move.settle s.view t v.long hrole
  | slowWait v => cases hs
  | holding kind => cases hs
  | unlockLoad =>
    cases hs
    exact goes_unlockLook h hrole
  | unlockAcquire oldstate =>
    cases hs
    obtain ⟨hwts, hwk, hf⟩ := hok
    refine goes_exchange h trivial (fun hw => ?_) trivial hrole.symm
    subst hw
    rw [bits_or_spinlock_or_designatedWaker]
    rw [Ne, and_hasWaiters, Bool.not_eq_false] at hwts
    exact Move.take s.view t hrole ((and_spinlock _).mp hf) hwts
      ((and_designatedWaker _).mp hwk)
  | unlockList oldstate =>
    cases hs
    exact goes_unlockList h hrole
  | unlockRelease state clear set wake =>
    cases hs
    refine goes_exchange h trivial (fun hw => ?_) hok hrole.symm
    subst hw
    rw [hok.1.bits_unlock hok.2]
    exact Move.chosen s.view t _ hrole
  | cancelLoad | cancelReload =>
    cases hs
    exact goes_stay h _ hok hrole.symm
  | cancelAcquire v wakeNext oldstate =>
    change (if oldstate &&& spinlock ≠ 0 then some (s.goto t (.cancelLoad v wakeNext)) else _) = _
      at hs
    split_ifs at hs with hf
    all_goals cases hs
    · exact goes_stay h _ hok hrole.symm
    · refine goes_exchange h hok (fun hw => ?_) hok hrole.symm
      subst hw
      rw [bits_or_spinlock]
      exact Move.cancel s.view t v.long _ wakeNext hrole
        ((and_spinlock _).mp (not_not.mp hf))
  | cancelList v wakeNext oldstate =>
    cases hs
    exact goes_cancelList h hok hpc hfit.1 hfit.2
  | cancelRelease v oldstate clear set wake =>
    cases hs
    refine goes_exchange h trivial (fun hw => ?_) hok hrole.symm
    subst hw
    rw [hok.2.bits_cancel]
    exact Move.left s.view t _ _ _ hrole
  | waking wake =>
    cases wake with
    | nil =>
      cases hs
      exact goes_stay h _ trivial hrole.symm
    | cons r rs =>
      cases hs
      refine ⟨(h.wake r).goto trivial, .inl ?_⟩
      rw [wakeStep, view_goto, s.view_wake]
      exact setRole_self _ _ hrole.symm

def View.Counted (s : View n) : Prop :=
  ∀ t, (s.role t = .holding .exclusive → s.word.locked = true) ∧
    (s.role t = .holding .shared → 0 < s.word.readers)

lemma goes_startLock (h : s.Local) (hpc : (s.tasks t).pc = .idle) :
    Goes s (startLock s t kind) := by
  refine ⟨h.update rfl, .inr ?_⟩
  have ho := role_of_pc hpc
  have hm := Move.start s.view t kind ho
  rw [startLock, view_update]
  change Move s.view { s.view with kind := _, role := update s.view.role t Role.outside }
  rwa [show Role.outside = s.view.role t from ho.symm, update_eq_self]

lemma goes_pollWait (h : s.Local) (hpc : (s.tasks t).pc = .slowWait v)
    (hw : (s.tasks t).waiter.state = .woken → (s.tasks t).waiter.dequeued = true)
    (hs : pollWait s t v = some s') : Goes s s' := by
  have hv : (Pc.slowWait v : Pc n).Ok (s.kindOf t) := hpc ▸ h t
  have hrole : s.view.role t = .waiting (s.tasks t).waiter.dequeued v.long := role_of_pc hpc
  have hsty : Goes s (s.setWaiter t { (s.tasks t).waiter with state := .waiting }) := by
    refine ⟨h.setWaiter rfl, .inl ?_⟩
    rw [s.view_setWaiter t (w := { (s.tasks t).waiter with state := .waiting }) rfl, hpc]
    exact setRole_self _ _ hrole.symm
  unfold pollWait at hs
  split at hs
  · cases hs
    exact hsty
  · cases hs
    exact hsty
  · rename_i hst
    cases hs
    refine goes_update h (.slowLoad v.afterWait) hv.afterWait rfl ?_
    rw [hrole, hw hst, Pc.role, v.waited_afterWait, v.long_afterWait]
    rfl
  · cases hs

lemma goes_dropWait (h : s.Local) (hpc : (s.tasks t).pc = .slowWait v)
    (hf : (s.tasks t).waiter.state ≠ .finished) : Goes s (dropWait s t v) := by
  have hv : (Pc.slowWait v : Pc n).Ok (s.kindOf t) := hpc ▸ h t
  have hrole : s.view.role t = .waiting (s.tasks t).waiter.dequeued v.long := role_of_pc hpc
  unfold dropWait
  split
  · exact absurd ‹_› hf
  · exact goes_stay h _ hv hrole.symm
  · exact goes_stay h _ hv hrole.symm
  · exact goes_stay h _ hv hrole.symm

lemma step_goes {e : Fin n × Event} (h : s.Local) (hf : s.Fits) (hc : s.view.Counted)
    (hs : step s e = some s') : Goes s s' := by
  obtain ⟨t, event⟩ := e
  cases event with
  | go fails => exact goes_go h hf hs
  | lock kind =>
    obtain ⟨hpc, rfl⟩ := taskStep_lock hs
    exact goes_startLock h hpc
  | poll =>
    obtain ⟨v, hpc, hp⟩ := taskStep_poll hs
    have hfit := hf t
    rw [hpc] at hfit
    exact goes_pollWait h hpc hfit.2.1 hp
  | drop =>
    obtain ⟨v, hpc, rfl⟩ := taskStep_drop hs
    have hfit := hf t
    rw [hpc] at hfit
    exact goes_dropWait h hpc hfit.1
  | unlock =>
    obtain ⟨kind, hpc, rfl⟩ := taskStep_unlock hs
    have hrole : s.view.role t = .holding kind := role_of_pc hpc
    refine goes_unlock h hrole ?_ ?_
    all_goals rintro rfl
    · exact (hc t).1 hrole
    · exact (hc t).2 hrole

end Steps

end GunyahVmm.Sync
