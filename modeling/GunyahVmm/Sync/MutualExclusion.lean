import GunyahVmm.Sync.WakeLists

/-! Mutual exclusion over whole runs, wherever a future is dropped. -/

namespace GunyahVmm.Sync
open Function List
variable {n : Nat}

structure State.Inv (s : State n) : Prop where
  locals : s.Local
  fits : s.Fits
  lists : s.Lists
  held : s.view.Held
  guarded : s.view.Guarded

lemma Pc.role_eq_holding {pc : Pc n} {w : Waiter} {kind : Kind} :
    pc.role w = .holding kind ↔ pc = .holding kind := by
  constructor
  · intro h
    cases pc with
    | holding k => exact congrArg _ (Role.holding.inj h)
    | slowLoad | slowAcquire | slowReset | slowEnqueue =>
      exact absurd h (Role.ne_holding (Role.isHolding_entering _ _) kind)
    | slowWait | cancelLoad | cancelAcquire =>
      exact absurd h (Role.ne_holding (Role.isHolding_waiting _ _) kind)
    | _ => cases h
  · rintro rfl
    rfl

section Inv
variable {s s' : State n} {t : Fin n} {oldstate : Word} {e : Fin n × Event}

lemma State.Inv.queued_of_parts {wake rest : List (Fin n)} {set : Bool} (h : s.Inv)
    (ht : (s.view.role t).critical = true) (htq : (s.view.role t).inQueue = false)
    (hp : Parts s.kindOf s.waiters wake rest set) :
    (∀ u ∈ wake, u ≠ t ∧ ∃ long, s.view.role u = .queued long) ∧ wake.Nodup := by
  constructor
  · exact fun u hu => h.guarded.queued_of_mem ht htq (hp.perm.subset (mem_append_left _ hu))
  · exact (nodup_append.mp (hp.perm.nodup_iff.mpr h.guarded.nodup)).1

lemma unlockList_lists (h : s.Inv) (hpc : (s.tasks t).pc = .unlockList oldstate) :
    (unlockList s t oldstate).Lists ∧ (unlockList s t oldstate).Fits := by
  have hr : s.view.role t = .choosing := State.role_of_pc hpc
  obtain ⟨wake, rest, set, hl, hp⟩ := getWakeList_parts s.kindOf s.waiters
  obtain ⟨hq, hnd⟩ := h.queued_of_parts (congrArg _ hr) (congrArg _ hr) hp
  rw [unlockList, hl]
  refine removeWaiters_lists h.lists h.fits hq hnd ?_ rfl ?_ id trivial
  all_goals rw [hpc]
  · rfl
  · exact False.elim

lemma cancelList_lists {v : Slow} {wakeNext : Bool} (h : s.Inv)
    (hpc : (s.tasks t).pc = .cancelList v wakeNext oldstate) :
    (cancelList s t v wakeNext oldstate).Lists ∧ (cancelList s t v wakeNext oldstate).Fits := by
  have hr : s.view.role t = .leaving v.long (s.tasks t).waiter.dequeued wakeNext :=
    State.role_of_pc hpc
  have hf := h.fits t
  rw [hpc] at hf
  have hemp : (s.tasks t).pc.wakes = [] := by
    rw [hpc]
    rfl
  obtain ⟨wake, rest, set, hl, hp⟩ := cancelParts_parts hf.1 hf.2
  rw [cancelList, hl]
  have hq : (∀ u ∈ wake, u ≠ t ∧ ∃ long, s.view.role u = .queued long) ∧ wake.Nodup := by
    cases hd : (s.tasks t).waiter.dequeued with
    | true =>
      rw [hd] at hr hp
      exact h.queued_of_parts (congrArg _ hr) (congrArg _ hr) hp
    | false =>
      rw [hd] at hp
      obtain ⟨rfl, -⟩ := hp
      exact ⟨forall_mem_nil _, nodup_nil⟩
  exact removeWaiters_lists h.lists h.fits hq.1 hq.2 hemp rfl (fun _ => trivial) id
    trivial

lemma step_lists (h : s.Inv) (hs : step s e = some s') : s'.Lists ∧ s'.Fits := by
  obtain ⟨t, event⟩ := e
  change taskStep s t (s.tasks t).pc event = some s' at hs
  have htr : Turned s t s' → s'.Lists ∧ s'.Fits := by
    rintro ⟨task, hts, htu⟩
    exact ⟨h.lists.turn hts htu, h.fits.turn hts htu⟩
  cases event with
  | go fails =>
    obtain ht | ⟨old, hpc, rfl⟩ | ⟨v, wakeNext, old, hpc, rfl⟩ | ⟨wake, hpc, rfl⟩ :=
      turned_go h.fits hs
    · exact htr ht
    · exact unlockList_lists h hpc
    · exact cancelList_lists h hpc
    · cases wake with
      | nil => exact htr (turned_goto hpc ⟨rfl, rfl, id, id, id⟩)
      | cons r rs => exact wakeNext_lists h.lists h.fits hpc
  | lock kind =>
    obtain ⟨hpc, rfl⟩ := taskStep_lock hs
    exact startLock_lists h.lists h.fits hpc
  | poll =>
    obtain ⟨v, hpc, hp⟩ := taskStep_poll hs
    exact htr (turned_pollWait hpc hp)
  | drop =>
    obtain ⟨v, hpc, rfl⟩ := taskStep_drop hs
    exact htr (turned_dropWait hpc)
  | unlock =>
    obtain ⟨kind, hpc, rfl⟩ := taskStep_unlock hs
    have hg : ∀ pc' : Pc n, pc' = .unlockLoad ∨ pc' = .idle → Turned s t (s.goto t pc') := by
      rintro pc' (rfl | rfl)
      · exact turned_goto hpc ⟨rfl, rfl, id, id, fun _ => trivial⟩
      · exact turned_goto hpc ⟨rfl, rfl, False.elim, id, fun _ => trivial⟩
    cases kind with
    | exclusive | shared => exact htr (hg _ (ite_eq_or_eq _ _ _))

/-- **Step.** The invariant goes on, and the step is a move or nothing that others see. -/
lemma State.Inv.step (h : s.Inv) (hs : step s e = some s') :
    s'.Inv ∧ (s'.view = s.view ∨ Move s.view s'.view) := by
  obtain ⟨hl, hm⟩ := step_goes h.locals h.fits h.held.counted hs
  obtain ⟨hls, hf⟩ := step_lists h hs
  refine ⟨⟨hl, hf, hls, ?_, ?_⟩, hm⟩
  · obtain hsm | hm := hm
    · exact hsm ▸ h.held
    · exact hm.held h.held
  · obtain hsm | hm := hm
    · exact hsm ▸ h.guarded
    · exact hm.guarded h.guarded

lemma word_start (n : Nat) :
    (start n).view.word = ⟨false, false, false, false, false, false, 0⟩ :=
  bits_zero

lemma inv_start (n : Nat) : (start n).Inv where
  locals := fun _ => trivial
  fits := fun _ => trivial
  lists := by
    refine ⟨fun _ => nodup_nil, ?_, ?_, ?_, fun _ h => h.elim⟩
    · exact fun _ _ r hr => absurd hr not_mem_nil
    · exact fun _ r hr => absurd hr not_mem_nil
    · exact fun _ _ hr => absurd hr not_mem_nil
  held := by
    have hno : ∀ t kind, (start n).view.role t ≠ .holding kind := fun _ _ h => by cases h
    constructor
    · simp [hno, word_start]
    · simp [hno, word_start]
    · exact fun t _ _ ht => absurd ht (hno t _)
  guarded := by
    refine ⟨?_, ?_, nodup_nil, ?_⟩
    · exact fun t _ ht => absurd ht Bool.false_ne_true
    · refine iff_of_false (by simp [word_start]) ?_
      exact fun ⟨t, ht⟩ => Bool.false_ne_true ht
    · exact fun t => iff_of_false not_mem_nil Bool.false_ne_true

lemma run_inv {events : List (Fin n × Event)} (h : Run.run Sync.step events (start n) = some s) :
    s.Inv :=
  Run.run_invariant State.Inv (fun _ _ _ hs hst => (hs.step hst).1) events (start n) s
    (inv_start n) h

end Inv

/-! ## Mutual exclusion -/

/-- In every run an exclusive holder is alone, and the word counts the holders: its reader count is
the number of shared holders and its `LOCKED` bit the presence of an exclusive one. -/
theorem word_counts_holders (n : Nat) (events : List (Fin n × Event)) (s : State n)
    (h : Run.run step events (start n) = some s) :
    (∀ t u kind, (s.tasks t).pc = .holding .exclusive → (s.tasks u).pc = .holding kind → u = t) ∧
      (s.word &&& readMask).toNat = readLock.toNat * (s.holders .shared).card ∧
      (s.word &&& locked ≠ 0 ↔ (s.holders .exclusive).Nonempty) := by
  have hh := (run_inv h).held
  have hi : ∀ t kind, s.view.role t = .holding kind ↔ (s.tasks t).pc = .holding kind :=
    fun t kind => Pc.role_eq_holding
  refine ⟨fun t u kind ht hu => ?_, ?_, ?_⟩
  · exact hh.alone t u kind ((hi t _).mpr ht) ((hi u _).mpr hu)
  · have hr := hh.readers
    simp only [hi] at hr
    rw [toNat_and_readMask, toNat_readLock]
    exact congrArg (256 * ·) hr
  · have hl := hh.locked
    simp only [hi] at hl
    rw [Ne, and_locked, Bool.not_eq_false]
    refine hl.trans (exists_congr fun t => ?_)
    simp [State.holders]

/-- Two tasks read: one through the fast path, the other after it. -/
theorem word_counts_holders_two_readers :
    ∃ s, Run.run step [((0 : Fin 2), .lock .shared), (0, .go false), (1, .lock .shared),
        (1, .go false), (1, .go false)] (start 2) = some s ∧
      (s.word &&& readMask).toNat = readLock.toNat * (s.holders .shared).card := by
  obtain ⟨s, hs⟩ := Option.isSome_iff_exists.mp (by decide +kernel :
    (Run.run step [((0 : Fin 2), .lock .shared), (0, .go false), (1, .lock .shared),
      (1, .go false), (1, .go false)] (start 2)).isSome = true)
  exact ⟨s, hs, (word_counts_holders 2 _ s hs).2.1⟩

end GunyahVmm.Sync
