import GunyahVmm.Sync.Progress
import Mathlib.Data.List.Infix

/-! No sleeping task is forgotten unless a long waiter is dropped between leaving the queue and
being woken; then `LONG_WAIT` stays set with nobody to clear it. -/

namespace GunyahVmm.Sync
variable {n : Nat}

def Task.asleep (task : Task n) : Bool :=
  match task.pc with
  | .slowWait _ => decide (task.waiter.state = .waiting)
  | _ => false

lemma Task.slowWait_of_asleep {task : Task n} (h : task.asleep = true) :
    (∃ v, task.pc = .slowWait v) ∧ task.waiter.state = .waiting := by
  unfold Task.asleep at h
  cases hpc : task.pc with
  | slowWait v =>
    rw [hpc] at h
    exact ⟨⟨v, rfl⟩, of_decide_eq_true h⟩
  | _ => rw [hpc] at h; cases h

/-- Nobody holds the lock or is in the middle of an operation, and yet a task sleeps. -/
def State.Stuck (s : State n) : Prop :=
  (∀ t, (s.tasks t).pc = .idle ∨ (s.tasks t).asleep = true) ∧ ∃ t, (s.tasks t).asleep = true

instance (s : State n) : Decidable s.Stuck := by
  unfold State.Stuck
  infer_instance

/-- The task cancels a long waiter that left the queue and was not woken before the drop. -/
def Task.lateDrop (task : Task n) : Bool :=
  match task.pc with
  | .cancelList v wakeNext _ =>
    !wakeNext && decide (task.waiter.waitingFor = .none) && decide (v.clear &&& longWait ≠ 0)
  | _ => false

def State.LateDrop (s : State n) : Prop := ∃ t, (s.tasks t).lateDrop = true

instance (s : State n) : Decidable s.LateDrop := by
  unfold State.LateDrop
  infer_instance

lemma lateDrop_of_late {s : State n} (h : s.view.Late) : s.LateDrop := by
  obtain ⟨t, ht⟩ := h
  change (s.tasks t).pc.role (s.tasks t).waiter = _ at ht
  refine ⟨t, ?_⟩
  unfold Task.lateDrop
  cases hpc : (s.tasks t).pc with
  | cancelList v wakeNext oldstate =>
    rw [hpc] at ht
    obtain ⟨hl, hd, rfl⟩ := Role.leaving.inj ht
    have hc : v.clear &&& longWait ≠ 0 := by
      rw [Ne, and_longWait, Bool.not_eq_false]
      exact hl
    have hn : (s.tasks t).waiter.waitingFor = .none := of_decide_eq_true hd
    change (true && decide (_ = WaitingFor.none) && decide (v.clear &&& longWait ≠ 0)) = true
    rw [decide_eq_true hn, decide_eq_true hc]
    rfl
  | slowLoad v | slowAcquire v | slowReset v | slowEnqueue v =>
    rw [hpc] at ht
    cases hw : v.waited <;> simp [Pc.role, Role.entering, hw] at ht
  | slowWait v | cancelLoad v | cancelAcquire v =>
    rw [hpc] at ht
    cases hw : (s.tasks t).waiter.dequeued <;> simp [Pc.role, Role.waiting, hw] at ht
  | _ => rw [hpc] at ht; cases ht

lemma not_stuck_of_sound {s : State n} (hi : s.Inv) (hs : s.view.Sound) : ¬s.Stuck := by
  rintro ⟨hq, t, ht⟩
  -- Every task is outside or in the queue: nobody is left to wake one that was taken off.
  have hl : ∀ u, (s.tasks u).pc.wakes = [] := by
    intro u
    obtain hpc | ha := hq u
    · rw [hpc]
      rfl
    · obtain ⟨⟨v, hpc⟩, -⟩ := Task.slowWait_of_asleep ha
      rw [hpc]
      rfl
  have hrl : ∀ u, s.view.role u = .outside ∨
      ((s.tasks u).asleep = true ∧ ∃ long, s.view.role u = .queued long) := by
    intro u
    obtain hpc | ha := hq u
    · exact .inl (State.role_of_pc hpc)
    · obtain ⟨⟨v, hpc⟩, hst⟩ := Task.slowWait_of_asleep ha
      refine .inr ⟨ha, v.long, (State.role_of_pc hpc).trans ?_⟩
      cases hd : (s.tasks u).waiter.dequeued with
      | false =>
        rw [Pc.role, hd]
        rfl
      | true =>
        have haw : (s.tasks u).pc.Awaits (s.tasks u).waiter := by
          rw [hpc]
          exact ⟨hd, by rw [hst]; exact (by cases ·)⟩
        obtain ⟨w, hw⟩ := hi.lists.awaited u haw
        rw [hl w] at hw
        cases hw
  have hh : ∀ u kind, s.view.role u ≠ .holding kind := by
    intro u kind hu
    obtain hr | ⟨-, long, hr⟩ := hrl u
    all_goals
      rw [hr] at hu
      cases hu
  have hf : s.view.word.Free := by
    constructor
    · rw [Bool.eq_false_iff, Ne, hi.held.locked]
      rintro ⟨u, hu⟩
      exact hh u _ hu
    · rw [hi.held.readers, Finset.card_eq_zero, Finset.filter_eq_empty_iff]
      exact fun u _ => hh u _
  have hwts : s.view.word.hasWaiters = true := by
    refine hs.waiters ⟨t, ?_⟩
    obtain hr | ⟨-, long, hr⟩ := hrl t
    · obtain ⟨⟨v, hpc⟩, -⟩ := Task.slowWait_of_asleep ht
      rw [State.role_of_pc hpc] at hr
      cases hd : (s.tasks t).waiter.dequeued <;> simp [Pc.role, Role.waiting, hd] at hr
    · rw [hr]
      rfl
  obtain ⟨u, hu⟩ := hs.served hwts hf
  obtain hr | ⟨-, long, hr⟩ := hrl u
  all_goals
    rw [hr] at hu
    cases hu

lemma sound_start (n : Nat) : (start n).view.Sound := by
  have hn : ∀ p : Role → Bool, p .outside = false → ¬(start n).view.Some p := by
    rintro p hp ⟨t, ht⟩
    exact Bool.false_ne_true (hp.symm.trans ht)
  constructor
  · exact fun hp => absurd hp (hn _ rfl)
  · simp [word_start]
  · simp [word_start]
  · simp [word_start]
  · simp [word_start]
  · simp [word_start]
  · rintro (hl | hs)
    · simp [word_start] at hl
    · exact absurd hs (hn _ rfl)
  · exact List.Pairwise.nil
  · exact fun t => View.released_of_not_critical rfl

/-- The lock is never stuck, whatever the tasks do and wherever a future is dropped, unless a long
waiter is dropped after it was taken off the queue and before it was woken. -/
theorem never_stuck (n : Nat) (events : List (Fin n × Event)) (s : State n)
    (h : Run.run step events (start n) = some s)
    (hlate : ∀ past r, past <+: events → Run.run step past (start n) = some r → ¬r.LateDrop) :
    ¬s.Stuck := by
  have ha := Run.run_history
    (fun past r => Run.run step past (start n) = some r ∧
      (past <+: events → r.Inv ∧ r.view.Sound)) ?_ events [] (start n) s
    ⟨rfl, fun _ => ⟨inv_start n, sound_start n⟩⟩ h
  · obtain ⟨hi, hsn⟩ := ha.2 (List.prefix_refl _)
    exact not_stuck_of_sound hi hsn
  · rintro past r e r' ⟨hp, hg⟩ hs
    refine ⟨?_, fun hpr => ?_⟩
    · rw [Run.run_append, hp]
      exact Run.run_cons_eq_some.mpr ⟨r', hs, rfl⟩
    · have hpre : past <+: events := (List.prefix_append past [e]).trans hpr
      obtain ⟨hi, hsn⟩ := hg hpre
      have hno : ¬r.view.Late := fun hl => hlate past r hpre hp (lateDrop_of_late hl)
      obtain ⟨hi', hsm | hm⟩ := hi.step hs
      · exact ⟨hi', hsm ▸ hsn⟩
      · exact ⟨hi', hm.sound hsn hi.guarded hi.held hno⟩

def oneSleeps (t u : Fin n) : List (Fin n × Event) :=
  [(t, .lock .exclusive), (t, .go false), (u, .lock .exclusive)] ++
    List.replicate 7 (u, .go false) ++ [(u, .poll)]

theorem never_stuck_one_sleeps :
    ∃ s, Run.run step (oneSleeps 0 1) (start 2) = some s ∧ (s.tasks 1).asleep = true ∧
      ¬s.Stuck := by
  have hrun : (Run.run step (oneSleeps 0 1) (start 2)).any
    (fun s => (s.tasks 1).asleep) = true := by
    decide +kernel
  have her : ∀ past ∈ (oneSleeps 0 1).inits,
      (Run.run step past (start 2)).all (fun r => !decide r.LateDrop) = true := by
    decide +kernel
  obtain ⟨s, hs, ha⟩ := (Option.any_eq_true _ _).mp hrun
  refine ⟨s, hs, ha, never_stuck 2 (oneSleeps 0 1) s hs fun past r hp hr => ?_⟩
  have hn := (Option.all_eq_true _ _).mp (her past ((List.mem_inits _ _).mpr hp)) r hr
  exact of_decide_eq_false ((Bool.not_eq_true' _).mp hn)

def lockAndSleep (t : Fin n) (looks : Nat) : List (Fin n × Event) :=
  List.replicate looks (t, .go false) ++ [(t, .poll)]

/-- The holder `t` unlocks and wakes `u`, and takes the lock again before `u` does. -/
def unlockAndRelock (t u : Fin n) : List (Fin n × Event) :=
  [(t, .unlock)] ++ List.replicate 7 (t, .go false) ++ [(u, .poll), (t, .lock .exclusive)] ++
    List.replicate 2 (t, .go false)

/-- `u` has waited 19 times when its future is dropped, off the queue and not yet woken by `t`. Then
`t` comes again. -/
def dropTooLate (t u : Fin n) : List (Fin n × Event) :=
  [(t, .lock .exclusive), (t, .go false), (u, .lock .exclusive), (u, .go false)] ++
    (List.replicate 19 (lockAndSleep u 6 ++ unlockAndRelock t u)).flatten ++ lockAndSleep u 6 ++
    [(t, .unlock)] ++ List.replicate 5 (t, .go false) ++ [(u, .drop)] ++
    List.replicate 7 (u, .go false) ++ List.replicate 2 (t, .go false) ++
    [(t, .lock .exclusive)] ++ lockAndSleep t 7

/-- The lock is stuck: task 0 sleeps in the queue, task 1 is done and nobody holds the lock. -/
theorem stuck_after_late_drop :
    ∃ s, Run.run step (dropTooLate 0 1) (start 2) = some s ∧ s.Stuck ∧ s.waiters = [0] ∧
      s.word = hasWaiters ||| writerWaiting ||| longWait := by
  have hr : (Run.run step (dropTooLate 0 1) (start 2)).any (fun s =>
      decide (s.Stuck ∧ s.waiters = [0] ∧ s.word = hasWaiters ||| writerWaiting ||| longWait))
      = true := by
    decide +kernel
  obtain ⟨s, hs, hst⟩ := (Option.any_eq_true _ _).mp hr
  exact ⟨s, hs, of_decide_eq_true hst⟩

end GunyahVmm.Sync
