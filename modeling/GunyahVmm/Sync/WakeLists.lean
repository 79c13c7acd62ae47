import GunyahVmm.Sync.Exclusion

/-! A waiter off the queue is in exactly one list to be woken: no wake-up is lost or doubled. -/

namespace GunyahVmm.Sync
open Function State Option
variable {n : Nat}

def Pc.wakes : Pc n → List (WaiterRef n)
  | .unlockRelease _ _ _ wake => wake
  | .cancelRelease _ _ _ _ wake => wake
  | .cancelReload _ _ _ wake => wake
  | .waking wake => wake
  | _ => []

/-- Where a task can be whose waiter is still to be woken. -/
def Pc.Unwoken (w : Waiter) : Pc n → Prop
  | .idle => True
  | .slowWait _ => w.dequeued = true ∧ w.state ≠ .woken
  | .cancelLoad _ _ => w.dequeued = true
  | .cancelAcquire _ _ _ => w.dequeued = true
  | .cancelList _ _ _ => w.dequeued = true
  | .cancelRelease _ _ _ _ _ => True
  | .cancelReload _ _ _ _ => True
  | .waking _ => True
  | _ => False

/-- The task sleeps and is off the queue: it relies on a wake-up to come. -/
def Pc.Awaits (w : Waiter) : Pc n → Prop
  | .slowWait _ => w.dequeued = true ∧ w.state ≠ .woken
  | _ => False

def State.ref (s : State n) (t : Fin n) : WaiterRef n := ⟨t, (s.tasks t).operation⟩

structure State.Lists (s : State n) : Prop where
  nodup : ∀ t, (s.tasks t).pc.wakes.Nodup
  apart : ∀ t u r, r ∈ (s.tasks t).pc.wakes → r ∈ (s.tasks u).pc.wakes → t = u
  fresh : ∀ t r, r ∈ (s.tasks t).pc.wakes → r.operation ≤ (s.tasks r.task).operation
  unwoken : ∀ t u, s.ref u ∈ (s.tasks t).pc.wakes → (s.tasks u).pc.Unwoken (s.tasks u).waiter
  awaited : ∀ u, (s.tasks u).pc.Awaits (s.tasks u).waiter → ∃ t, s.ref u ∈ (s.tasks t).pc.wakes

/-! ## Steps of one task -/

/-- A step of a task that touches no list and no other task. -/
structure Task.Turn (old new : Task n) : Prop where
  operation : new.operation = old.operation
  wakes : new.pc.wakes = old.pc.wakes
  unwoken : old.pc.Unwoken old.waiter → new.pc.Unwoken new.waiter
  awaits : new.pc.Awaits new.waiter → old.pc.Awaits old.waiter
  fits : old.pc.Fits old.waiter → new.pc.Fits new.waiter

section Turn
variable {s s' : State n} {t : Fin n} {task : Task n}

lemma State.Fits.turn (h : s.Fits) (hs : s'.tasks = update s.tasks t task)
    (ht : (s.tasks t).Turn task) : s'.Fits := by
  intro u
  rw [hs]
  by_cases hu : u = t
  · rw [hu, update_self]
    exact ht.fits (h t)
  · rw [update_of_ne hu]
    exact h u

/-- The lists stay apart when what is new in the list of task `t` was in none of them. -/
lemma State.Lists.of_tasks {pc : Pc n} (h : s.Lists)
    (hpc : ∀ u, (s'.tasks u).pc = if u = t then pc else (s.tasks u).pc)
    (hop : ∀ u, (s'.tasks u).operation = (s.tasks u).operation) (hnd : pc.wakes.Nodup)
    (hnew : ∀ r ∈ pc.wakes, r ∈ (s.tasks t).pc.wakes ∨
      r.operation ≤ (s.tasks r.task).operation ∧ ∀ u, r ∉ (s.tasks u).pc.wakes)
    (hun : ∀ v u, s.ref u ∈ (s'.tasks v).pc.wakes → (s'.tasks u).pc.Unwoken (s'.tasks u).waiter)
    (ha : ∀ u, (s'.tasks u).pc.Awaits (s'.tasks u).waiter →
      ∃ v, s.ref u ∈ (s'.tasks v).pc.wakes) : s'.Lists := by
  have href : ∀ u, s'.ref u = s.ref u := fun u => congrArg _ (hop u)
  have hm : ∀ u r, r ∈ (s'.tasks u).pc.wakes → r ∈ (s.tasks u).pc.wakes ∨
      u = t ∧ r.operation ≤ (s.tasks r.task).operation ∧ ∀ v, r ∉ (s.tasks v).pc.wakes := by
    intro u r hr
    rw [hpc] at hr
    split_ifs at hr with hu
    · subst hu
      exact (hnew r hr).imp_right fun hn => ⟨rfl, hn⟩
    · exact .inl hr
  refine ⟨fun u => ?_, fun u v r hu hv => ?_, fun u r hu => ?_, fun v u hu => ?_, fun u hu => ?_⟩
  · rw [hpc]
    split_ifs
    · exact hnd
    · exact h.nodup u
  · obtain hu | ⟨rfl, -, hnn⟩ := hm u r hu
    · obtain hv | ⟨-, -, hnn⟩ := hm v r hv
      · exact h.apart u v r hu hv
      · exact absurd hu (hnn u)
    · obtain hv | ⟨rfl, -⟩ := hm v r hv
      · exact absurd hv (hnn v)
      · rfl
  · rw [hop]
    obtain hu | ⟨-, hle, -⟩ := hm u r hu
    · exact h.fresh u r hu
    · exact hle
  · rw [href] at hu
    exact hun v u hu
  · simp only [href]
    exact ha u hu

lemma State.Lists.turn (h : s.Lists) (hs : s'.tasks = update s.tasks t task)
    (ht : (s.tasks t).Turn task) : s'.Lists := by
  have hsl : s'.tasks t = task := by
    rw [hs, update_self]
  have ho : ∀ u, u ≠ t → s'.tasks u = s.tasks u := by
    intro u hu
    rw [hs, update_of_ne hu]
  have hw : ∀ u, (s'.tasks u).pc.wakes = (s.tasks u).pc.wakes := by
    intro u
    by_cases hu : u = t
    · rw [hu, hsl, ht.wakes]
    · rw [ho u hu]
  refine h.of_tasks (fun u => ?_) (fun u => ?_) (ht.wakes ▸ h.nodup t)
    (fun r hr => .inl (ht.wakes ▸ hr)) (fun v u hv => ?_) fun u hu => ?_
  · split_ifs with hu
    · rw [hu, hsl]
    · rw [ho u hu]
  · by_cases hu : u = t
    · rw [hu, hsl, ht.operation]
    · rw [ho u hu]
  · rw [hw] at hv
    have hold := h.unwoken v u hv
    by_cases hut : u = t
    · subst hut
      rw [hsl]
      exact ht.unwoken hold
    · rwa [ho u hut]
  · simp only [hw]
    refine h.awaited u ?_
    by_cases hut : u = t
    · subst hut
      rw [hsl] at hu
      exact ht.awaits hu
    · rwa [ho u hut] at hu

end Turn

def Turned (s : State n) (t : Fin n) (s' : State n) : Prop :=
  ∃ task, s'.tasks = update s.tasks t task ∧ (s.tasks t).Turn task

section Turned
variable {s s' : State n} {t : Fin n} {fails : Bool} {pc pc' : Pc n}
variable {v : Slow}

lemma turned_goto (hpc : (s.tasks t).pc = pc)
    (h : Task.Turn { s.tasks t with pc } { s.tasks t with pc := pc' }) :
    Turned s t (s.goto t pc') := by
  subst hpc
  exact ⟨_, rfl, h⟩

lemma turned_compareExchange {old new : Word} {success failure : Pc n}
    (hpc : (s.tasks t).pc = pc)
    (hs : Task.Turn { s.tasks t with pc } { s.tasks t with pc := success })
    (hf : Task.Turn { s.tasks t with pc } { s.tasks t with pc := failure }) :
    Turned s t (s.compareExchange t fails old new success failure) := by
  unfold compareExchange
  split_ifs
  · exact turned_goto hpc hs
  · exact turned_goto hpc hf

lemma turned_update {waiter : Waiter} (hpc : (s.tasks t).pc = pc)
    (h : Task.Turn { s.tasks t with pc } ⟨pc', (s.tasks t).operation, waiter⟩) :
    Turned s t ((s.setWaiter t waiter).goto t pc') := by
  subst hpc
  refine ⟨_, ?_, h⟩
  simp [goto, setWaiter]

lemma turned_slowPush {oldstate : Word} (hpc : (s.tasks t).pc = .slowPush v oldstate) :
    Turned s t (slowPush s t v oldstate) := by
  have ht : ∀ v' set, Turned s t ((s.setWaiter t { (s.tasks t).waiter with linked := true }).goto t
      (.slowRelease v' oldstate set)) := by
    intro v' set
    exact turned_update hpc ⟨rfl, rfl, id, id, fun hf => ⟨hf.1, rfl, hf.2⟩⟩
  unfold slowPush
  split_ifs
  · exact ht v 0
  · exact ht v.atFront longWait

lemma turned_pollWait (hpc : (s.tasks t).pc = .slowWait v) (hs : pollWait s t v = some s') :
    Turned s t s' := by
  have hsty : (s.tasks t).waiter.state ≠ .woken →
      Turned s t (s.setWaiter t { (s.tasks t).waiter with state := .waiting }) := by
    intro hst
    refine ⟨{ s.tasks t with waiter := { (s.tasks t).waiter with state := .waiting } }, rfl, rfl,
      rfl, ?_, ?_, ?_⟩
    all_goals rw [hpc]
    · exact fun h => ⟨h.1, (by cases ·)⟩
    · exact fun h => ⟨h.1, hst⟩
    · exact fun h => ⟨(by cases ·), (by cases ·), h.2.2⟩
  unfold pollWait at hs
  split at hs
  · cases hs
    exact hsty (by simp [*])
  · cases hs
    exact hsty (by simp [*])
  · next hst =>
    cases hs
    exact turned_update hpc ⟨rfl, rfl, fun h => h.2 hst, False.elim, fun _ => trivial⟩
  · cases hs

lemma turned_dropWait (hpc : (s.tasks t).pc = .slowWait v) : Turned s t (dropWait s t v) := by
  unfold dropWait
  split
  · exact turned_goto hpc ⟨rfl, rfl, fun _ => trivial, False.elim, fun _ => trivial⟩
  · next hst =>
    refine turned_goto hpc ⟨rfl, rfl, fun h => h.1, False.elim, fun h => ⟨fun _ => ?_, h.2.2⟩⟩
    exact h.2.1 hst
  all_goals
    exact turned_goto hpc ⟨rfl, rfl, fun h => h.1, False.elim, fun h => ⟨(by cases ·), h.2.2⟩⟩

lemma turned_go (hf : s.Fits) (hs : taskStep s t (s.tasks t).pc (.go fails) = some s') :
    Turned s t s' ∨ (∃ oldstate, (s.tasks t).pc = .unlockList oldstate ∧
      s' = unlockList s t oldstate) ∨
    (∃ v wakeNext oldstate, (s.tasks t).pc = .cancelList v wakeNext oldstate ∧
      s' = cancelList s t v wakeNext oldstate) ∨
    ∃ wake, (s.tasks t).pc = .waking wake ∧ s' = wakeStep s t wake := by
  have hfit := hf t
  generalize hpc : (s.tasks t).pc = pc at hs hfit ⊢
  cases pc with
  | unlockList oldstate => exact .inr (.inl ⟨oldstate, rfl, (some.inj hs).symm⟩)
  | cancelList v wakeNext oldstate =>
    exact .inr (.inr (.inl ⟨v, wakeNext, oldstate, rfl, (some.inj hs).symm⟩))
  | waking wake => exact .inr (.inr (.inr ⟨wake, rfl, (some.inj hs).symm⟩))
  | idle | slowWait | holding => cases hs
  | lockFirst kind =>
    cases hs
    refine .inl (turned_compareExchange hpc ⟨rfl, rfl, id, id, fun _ => trivial⟩ ?_)
    split_ifs
    all_goals exact ⟨rfl, rfl, id, id, fun _ => trivial⟩
  | lockSecond | slowAcquire =>
    obtain ⟨new, -, hs⟩ := bind_eq_some_iff.mp hs
    cases hs
    refine .inl (turned_compareExchange hpc ?_ ?_)
    all_goals exact ⟨rfl, rfl, id, id, fun _ => trivial⟩
  | slowLoad v =>
    cases hs
    refine .inl (turned_goto hpc ?_)
    unfold slowLook
    split_ifs
    all_goals exact ⟨rfl, rfl, id, id, fun _ => trivial⟩
  | slowReset v oldstate =>
    cases hs
    exact .inl (turned_update hpc ⟨rfl, rfl, id, id, fun _ => ⟨rfl, rfl⟩⟩)
  | slowEnqueue v oldstate =>
    cases hs
    refine .inl (turned_compareExchange hpc ?_ ?_)
    · exact ⟨rfl, rfl, id, id, id⟩
    · exact ⟨rfl, rfl, id, id, fun _ => trivial⟩
  | slowPush v oldstate =>
    cases hs
    exact .inl (turned_slowPush hpc)
  | slowRelease v state set =>
    cases hs
    refine .inl (turned_compareExchange hpc ⟨rfl, rfl, False.elim, ?_, fun _ => ?_⟩ ?_)
    · exact fun h => Bool.false_ne_true (hfit.1.symm.trans h.1)
    · rw [Pc.Fits, hfit.2.2]
      exact ⟨(by cases ·), (by cases ·), fun _ => hfit.2.1⟩
    · exact ⟨rfl, rfl, id, id, id⟩
  | unlockLoad =>
    cases hs
    refine .inl (turned_goto hpc ?_)
    unfold unlockLook
    split_ifs
    · exact ⟨rfl, rfl, False.elim, id, fun _ => trivial⟩
    · exact ⟨rfl, rfl, id, id, fun _ => trivial⟩
    · exact ⟨rfl, rfl, id, id, fun _ => trivial⟩
  | unlockAcquire | cancelRelease =>
    cases hs
    refine .inl (turned_compareExchange hpc ?_ ?_)
    all_goals exact ⟨rfl, rfl, id, id, fun _ => trivial⟩
  | unlockRelease state clear set wake =>
    cases hs
    refine .inl (turned_compareExchange hpc ?_ ?_)
    · exact ⟨rfl, rfl, False.elim, id, fun _ => trivial⟩
    · exact ⟨rfl, rfl, id, id, fun _ => trivial⟩
  | cancelLoad | cancelReload =>
    cases hs
    exact .inl (turned_goto hpc ⟨rfl, rfl, id, id, id⟩)
  | cancelAcquire v wakeNext oldstate =>
    change (if oldstate &&& spinlock ≠ 0 then some (s.goto t (.cancelLoad v wakeNext)) else _) = _
      at hs
    split_ifs at hs
    all_goals cases hs
    · exact .inl (turned_goto hpc ⟨rfl, rfl, id, id, id⟩)
    · exact .inl (turned_compareExchange hpc ⟨rfl, rfl, id, id, id⟩ ⟨rfl, rfl, id, id, id⟩)

end Turned

/-! ## Steps that touch others -/

section Others
variable {s : State n} {t : Fin n}
variable {pc : Pc n} {w : Waiter}

lemma startLock_lists {kind : Kind} (h : s.Lists) (hf : s.Fits)
    (hpc : (s.tasks t).pc = .idle) : (startLock s t kind).Lists ∧ (startLock s t kind).Fits := by
  have hs : (startLock s t kind).tasks t
      = ⟨.lockFirst kind, (s.tasks t).operation + 1, .new kind⟩ := by
    simp [startLock]
  have ho : ∀ u, u ≠ t → (startLock s t kind).tasks u = s.tasks u := by
    intro u hu
    simp [startLock, hu]
  have hwk : ∀ u, ((startLock s t kind).tasks u).pc.wakes = (s.tasks u).pc.wakes := by
    intro u
    by_cases hu : u = t
    · rw [hu, hs, hpc]
      rfl
    · rw [ho u hu]
  have hop : ∀ u, (s.tasks u).operation ≤ ((startLock s t kind).tasks u).operation := by
    intro u
    by_cases hu : u = t
    · rw [hu, hs]
      exact Nat.le_succ _
    · rw [ho u hu]
  have href : ∀ u, u ≠ t → (startLock s t kind).ref u = s.ref u := by
    intro u hu
    rw [ref, ho u hu]
    rfl
  refine ⟨⟨fun u => ?_, fun u w r => ?_, fun u r hr => ?_, fun u w hw => ?_, fun u hu => ?_⟩,
    fun u => ?_⟩
  · rw [hwk]
    exact h.nodup u
  · rw [hwk, hwk]
    exact h.apart u w r
  · rw [hwk] at hr
    exact (h.fresh u r hr).trans (hop r.task)
  · rw [hwk] at hw
    by_cases hwt : w = t
    · -- The lists know no waiter of an operation that has just begun.
      have hfr := h.fresh u _ hw
      rw [hwt, ref, hs] at hfr
      exact absurd hfr (Nat.not_succ_le_self _)
    · rw [ho w hwt]
      rw [href w hwt] at hw
      exact h.unwoken u w hw
  · by_cases hut : u = t
    · rw [hut, hs] at hu
      exact hu.elim
    · rw [ho u hut] at hu
      obtain ⟨w, hw⟩ := h.awaited u hu
      exact ⟨w, by rwa [hwk, href u hut]⟩
  · by_cases hut : u = t
    · rw [hut, hs]
      trivial
    · rw [ho u hut]
      exact hf u

lemma Pc.waits_of_queued {long : Bool} (h : pc.role w = .queued long) :
    w.dequeued = false ∧ ((∃ v, pc = .slowWait v) ∨ (∃ v wakeNext, pc = .cancelLoad v wakeNext) ∨
      ∃ v wakeNext oldstate, pc = .cancelAcquire v wakeNext oldstate) := by
  have hen : ∀ a b, Role.entering a b ≠ .queued long := by
    intro a b
    cases a <;> simp [Role.entering]
  have hwt : ∀ b, Role.waiting w.dequeued b = .queued long → w.dequeued = false := by
    intro b hb
    cases hw : w.dequeued with
    | true => rw [hw] at hb; cases hb
    | false => rfl
  cases pc with
  | slowWait v => exact ⟨hwt _ h, .inl ⟨v, rfl⟩⟩
  | cancelLoad v wakeNext => exact ⟨hwt _ h, .inr (.inl ⟨v, wakeNext, rfl⟩)⟩
  | cancelAcquire v wakeNext oldstate =>
    exact ⟨hwt _ h, .inr (.inr ⟨v, wakeNext, oldstate, rfl⟩)⟩
  | slowLoad | slowAcquire | slowReset | slowEnqueue => exact absurd h (hen _ _)
  | _ => cases h

/-- A waiter that is taken off the queue is to be woken from then on. -/
lemma Pc.dequeue_of_queued {long : Bool} (h : pc.role w = .queued long) (hf : pc.Fits w) :
    ¬pc.Unwoken w ∧ pc.Unwoken (w.setWaitingFor .none) ∧ pc.Fits (w.setWaitingFor .none) := by
  obtain ⟨hq, hpc⟩ := Pc.waits_of_queued h
  have hn : ¬w.dequeued = true := fun hd => Bool.false_ne_true (hq.symm.trans hd)
  obtain ⟨v, rfl⟩ | ⟨v, wakeNext, rfl⟩ | ⟨v, wakeNext, oldstate, rfl⟩ := hpc
  · refine ⟨fun hu => hn hu.1, ⟨rfl, fun hw => hn (hf.2.1 hw)⟩, hf.1, fun _ => rfl, ?_⟩
    exact fun hd => absurd hd Bool.noConfusion
  · exact ⟨hn, rfl, fun _ => rfl, fun hd => absurd hd Bool.noConfusion⟩
  · exact ⟨hn, rfl, fun _ => rfl, fun hd => absurd hd Bool.noConfusion⟩

lemma removeWaiters_lists {wake rest : List (Fin n)} (h : s.Lists) (hf : s.Fits)
    (hq : ∀ u ∈ wake, u ≠ t ∧ ∃ long, s.view.role u = .queued long) (hnd : wake.Nodup)
    (hemp : (s.tasks t).pc.wakes = []) (hwk : pc.wakes = s.refs wake)
    (hunw : (s.tasks t).pc.Unwoken (s.tasks t).waiter → pc.Unwoken (s.tasks t).waiter)
    (haw : ¬pc.Awaits (s.tasks t).waiter) (hfit : pc.Fits (s.tasks t).waiter) :
    ((s.removeWaiters wake rest).goto t pc).Lists ∧
      ((s.removeWaiters wake rest).goto t pc).Fits := by
  set s' := (s.removeWaiters wake rest).goto t pc with hs'
  have ht : t ∉ wake := fun ht => (hq t ht).1 rfl
  have hts : ∀ u, s'.tasks u = ⟨if u = t then pc else (s.tasks u).pc, (s.tasks u).operation,
      if u ∈ wake then (s.tasks u).waiter.setWaitingFor .none else (s.tasks u).waiter⟩ := by
    intro u
    by_cases hut : u = t
    · subst hut
      simp [hs', goto, removeWaiters, ht]
    · simp only [hs', goto, removeWaiters, update_of_ne hut, if_neg hut]
      split_ifs <;> rfl
  have hm : ∀ r, r ∈ pc.wakes ↔ ∃ u ∈ wake, s.ref u = r := by
    intro r
    rw [hwk, refs, List.mem_map]
    rfl
  refine ⟨h.of_tasks (fun u => congrArg Task.pc (hts u)) (fun u => by rw [hts]) ?_
    (fun r hr => ?_) (fun v u hv => ?_) fun u hu => ?_, fun u => ?_⟩
  · rw [hwk]
    exact hnd.map fun a b hab => congrArg WaiterRef.task hab
  · -- No list names a waiter of the queue.
    obtain ⟨u, hu, rfl⟩ := (hm r).mp hr
    obtain ⟨-, long, hrl⟩ := hq u hu
    exact .inr ⟨le_rfl, fun w hw =>
      (Pc.dequeue_of_queued hrl (hf u)).1 (h.unwoken w u hw)⟩
  · rw [hts]
    by_cases hu : u ∈ wake
    · obtain ⟨hut, long, hrl⟩ := hq u hu
      rw [if_pos hu, if_neg hut]
      exact (Pc.dequeue_of_queued hrl (hf u)).2.1
    · rw [hts] at hv
      dsimp only at hv
      split_ifs at hv with hvt
      · obtain ⟨a, ha, hau⟩ := (hm _).mp hv
        rw [show a = u from congrArg WaiterRef.task hau] at ha
        exact absurd ha hu
      · have hun := h.unwoken v u hv
        split_ifs with hut
        · subst hut
          exact hunw hun
        · exact hun
  · rw [hts] at hu
    by_cases hmem : u ∈ wake
    · refine ⟨t, ?_⟩
      rw [hts, if_pos rfl]
      exact (hm _).mpr ⟨u, hmem, rfl⟩
    split_ifs at hu with hut
    · subst hut
      exact absurd hu haw
    obtain ⟨w, hw⟩ := h.awaited u hu
    have hwt : w ≠ t := by
      rintro rfl
      rw [hemp] at hw
      cases hw
    exact ⟨w, by rwa [hts, if_neg hwt]⟩
  · rw [hts]
    by_cases hmem : u ∈ wake
    · obtain ⟨hut, long, hrl⟩ := hq u hmem
      rw [if_pos hmem, if_neg hut]
      exact (Pc.dequeue_of_queued hrl (hf u)).2.2
    · rw [if_neg hmem]
      split_ifs with hut
      · subst hut
        exact hfit
      · exact hf u

/-- A waiter that is still to be woken is woken. -/
lemma Pc.wake_of_unwoken (h : pc.Unwoken w) : ¬pc.Awaits w.wake ∧ pc.Fits w.wake := by
  cases pc with
  | slowWait v =>
    refine ⟨fun ha => ha.2 rfl, (by cases ·), fun _ => h.1, fun hd => ?_⟩
    exact absurd (h.1.symm.trans hd) Bool.noConfusion
  | cancelLoad | cancelAcquire | cancelList =>
    exact ⟨id, fun _ => h, fun hd => absurd (Eq.trans h.symm hd) Bool.noConfusion⟩
  | idle | cancelRelease | cancelReload | waking => exact ⟨id, trivial⟩
  | _ => exact h.elim

lemma State.tasks_wake (s : State n) (r : WaiterRef n) (u : Fin n) :
    (s.wake r).tasks u =
      if s.ref u = r then { s.tasks u with waiter := (s.tasks u).waiter.wake } else s.tasks u := by
  by_cases hu : u = r.task
  · subst hu
    have hr : s.ref r.task = r ↔ (s.tasks r.task).operation = r.operation :=
      ⟨fun h => congrArg WaiterRef.operation h, fun h => congrArg (WaiterRef.mk r.task) h⟩
    simp only [wake, hr]
    split_ifs with hop
    · simp [setWaiter]
    · rfl
  · rw [if_neg fun h => hu (congrArg WaiterRef.task h), wake]
    split_ifs with hop
    · simp [setWaiter, hu]
    · rfl

lemma wakeNext_lists {r : WaiterRef n} {rs : List (WaiterRef n)} (h : s.Lists) (hf : s.Fits)
    (hpc : (s.tasks t).pc = .waking (r :: rs)) :
    ((s.wake r).goto t (.waking rs)).Lists ∧ ((s.wake r).goto t (.waking rs)).Fits := by
  set s' := (s.wake r).goto t (.waking rs) with hs'
  have ht : ∀ u, s'.tasks u = ⟨if u = t then .waking rs else (s.tasks u).pc,
      (s.tasks u).operation,
      if s.ref u = r then (s.tasks u).waiter.wake else (s.tasks u).waiter⟩ := by
    intro u
    by_cases hu : u = t
    · subst hu
      simp only [hs', goto, update_self, s.tasks_wake, if_true]
      split_ifs <;> rfl
    · simp only [hs', goto, update_of_ne hu, s.tasks_wake, if_neg hu]
      split_ifs <;> rfl
  have hm : ∀ a, a ∈ (s.tasks t).pc.wakes ↔ a = r ∨ a ∈ rs := by
    intro a
    rw [hpc]
    exact List.mem_cons
  have hnd : r ∉ rs ∧ rs.Nodup := by
    have hn := h.nodup t
    rw [hpc] at hn
    exact List.nodup_cons.mp hn
  refine ⟨h.of_tasks (fun u => congrArg Task.pc (ht u)) (fun u => by rw [ht]) hnd.2
    (fun a ha => .inl ((hm a).mpr (.inr ha))) (fun v u hv => ?_) fun u hu => ?_, fun u => ?_⟩
  · rw [ht] at hv
    dsimp only at hv
    -- What has been woken is in no list: its only place was the head of this one.
    have ho : s.ref u ∈ (s.tasks v).pc.wakes ∧ s.ref u ≠ r := by
      split_ifs at hv with hvt
      · subst hvt
        exact ⟨(hm _).mpr (.inr hv), ne_of_mem_of_not_mem hv hnd.1⟩
      · refine ⟨hv, fun hr => hvt ?_⟩
        exact h.apart v t r (hr ▸ hv) ((hm r).mpr (.inl rfl))
    rw [ht, if_neg ho.2]
    split_ifs
    · trivial
    · exact h.unwoken v u ho.1
  · rw [ht] at hu
    by_cases hut : u = t
    · rw [if_pos hut] at hu
      exact hu.elim
    · rw [if_neg hut] at hu
      split_ifs at hu with hr
      · have hun := h.unwoken t u ((hm _).mpr (.inl hr))
        exact absurd hu (Pc.wake_of_unwoken hun).1
      · obtain ⟨w, hw⟩ := h.awaited u hu
        refine ⟨w, ?_⟩
        rw [ht]
        dsimp only
        split_ifs with hwt
        · subst hwt
          exact ((hm _).mp hw).resolve_left hr
        · exact hw
  · rw [ht]
    dsimp only
    split_ifs with hr hut hut
    · trivial
    · exact (Pc.wake_of_unwoken (h.unwoken t u ((hm _).mpr (.inl hr)))).2
    · trivial
    · exact hf u

end Others

end GunyahVmm.Sync
