import GunyahVmm.Sync.Promises

/-! Taking waiters off the queue and releasing the spin lock keep the promises of the flags. -/

namespace GunyahVmm.Sync
open Function View Role List Bool
variable {n : Nat}
section Moves
variable {s : View n} {t : Fin n}

/-! ## Waiters taken off the queue -/

lemma Role.long_dequeue (r : Role) : r.dequeue.long = r.long := by
  cases r <;> rfl

lemma View.long_remove (s : View n) (wake rest : List (Fin n)) (u : Fin n) :
    ((s.remove wake rest).role u).long = (s.role u).long := by
  rw [role_remove]
  split_ifs
  · exact long_dequeue _
  · rfl

/-- The queue without the waiters taken off keeps its order. -/
lemma View.front_remove {wake rest : List (Fin n)} {r : Role} (h : s.Front)
    (hsub : rest.Sublist s.queue) (ht : t ∉ rest) : ((s.remove wake rest).setRole t r).Front := by
  refine h.of_same hsub fun u hu => ?_
  have hut : u ≠ t := by
    rintro rfl
    exact ht hu
  rw [role_setRole_of_ne _ hut, long_remove]

section Removal
variable {wake rest : List (Fin n)} {set : Bool} {r : Role} {p : Role → Bool}
section
variable (hs : s.Guarded) (ht : (s.role t).critical = true) (htq : (s.role t).inQueue = false)
  (hparts : Parts s.kind s.queue wake rest set)

include hs ht htq hparts

lemma View.Guarded.role_of_wake {u : Fin n} (hu : u ∈ wake) : ∃ long, s.role u = .queued long ∧
      ((s.remove wake rest).setRole t r).role u = .inFlight long := by
  obtain ⟨hut, long, hr⟩ := hs.queued_of_mem ht htq (hparts.perm.subset (mem_append_left _ hu))
  refine ⟨long, hr, ?_⟩
  rw [role_setRole_of_ne _ hut, role_remove, if_pos hu, hr]
  rfl

/-- A task that was taken off the queue will act. -/
lemma View.Guarded.wakes_of_parts (hr : wake = [] → r.wakes = true) :
    ((s.remove wake rest).setRole t r).Some wakes := by
  cases wake with
  | nil => exact some_self _ t (hr rfl)
  | cons u us =>
    obtain ⟨long, -, hrl⟩ := hs.role_of_wake (r := r) ht htq hparts mem_cons_self
    exact ⟨u, by rw [hrl]; rfl⟩

end

lemma View.Some.of_removed (h : ((s.remove wake rest).setRole t r).Some p) (hr : p r = false)
    (hp : ∀ r, p r.dequeue = true → p r = true) : s.Some p := by
  obtain ⟨u, hu⟩ := h
  by_cases hut : u = t
  · rw [hut, role_setRole_self, hr] at hu
    cases hu
  · rw [role_setRole_of_ne _ hut] at hu
    exact View.Some.of_remove ⟨u, hu⟩ hp

lemma View.Some.removed (h : s.Some p) (ht : p (s.role t) = true → p r = true)
    (hp : ∀ r, p r = true → p r.dequeue = true) : ((s.remove wake rest).setRole t r).Some p := by
  obtain ⟨u, hu⟩ := h
  by_cases hut : u = t
  · subst hut
    exact some_self _ u (ht hu)
  · refine ⟨u, ?_⟩
    rw [role_setRole_of_ne _ hut, role_remove]
    split_ifs
    · exact hp _ hu
    · exact hu

lemma View.writer_removed (h : ∃ u, s.kind u = .exclusive ∧ (s.role u).waits = true)
    (ht : (s.role t).waits = true → r.waits = true) :
    ∃ u, s.kind u = .exclusive ∧ (((s.remove wake rest).setRole t r).role u).waits = true := by
  obtain ⟨u, hu, hw⟩ := h
  refine ⟨u, hu, ?_⟩
  by_cases hut : u = t
  · subst hut
    rw [role_setRole_self]
    exact ht hw
  · rw [role_setRole_of_ne _ hut, role_remove]
    split_ifs
    · cases hr : s.role u <;> first | rfl | (rw [hr] at hw; cases hw)
    · exact hw

/-- Nobody but the task in the section under the spin lock is about to release it. -/
lemma View.Guarded.released_remove (hs : s.Guarded) (ht : (s.role t).critical = true)
    (hsl : ((s.remove wake rest).setRole t r).Released t) (u : Fin n) :
    ((s.remove wake rest).setRole t r).Released u := by
  by_cases hut : u = t
  · rwa [hut]
  refine released_of_not_critical ?_
  rw [role_setRole_of_ne _ hut, critical_remove]
  exact hs.not_critical_of_ne ht hut

lemma View.Guarded.notMem_rest (hs : s.Guarded) (htq : (s.role t).inQueue = false)
    (hparts : Parts s.kind s.queue wake rest set) : t ∉ rest :=
  fun hr => hs.notMem rfl htq (hparts.sublist.subset hr)

lemma Role.pending_of_dequeue (r : Role) (h : r.dequeue.pending = true) : r.pending = true := by
  cases r <;> first | exact h | cases h

lemma Role.soon_dequeue (r : Role) : r.dequeue.soon = r.soon := by
  cases r <;> rfl

lemma Role.hurries_dequeue (r : Role) (h : r.hurries = true) : r.dequeue.hurries = true := by
  cases r with
  | leaving long dequeued wakeNext =>
    exact (Bool.and_true _).trans (Bool.and_eq_true_iff.mp h).1
  | left long dequeued r => exact (Bool.and_true _).trans (Bool.and_eq_true_iff.mp h).1
  | queued => cases h
  | _ => exact h

lemma Role.rushes_dequeue (r : Role) (h : r.rushes = true) : r.dequeue.rushes = true := by
  cases r with
  | unlocking => rfl
  | _ => exact rushes_of_hurries (hurries_dequeue _ h)

lemma Parts.rest_of_wake (hparts : Parts s.kind s.queue wake rest set) (h : wake = []) :
    rest = [] := by
  cases hq : s.queue with
  | nil =>
    have hsub := hparts.sublist
    rw [hq] at hsub
    exact sublist_nil.mp hsub
  | cons u us =>
    have hu := hparts.head u (by rw [hq]; rfl)
    rw [h] at hu
    cases hu

section
variable (h : s.Sound) (hs : s.Guarded)
include h hs

/-- With `LONG_WAIT` set a task that waited long is off the queue now: it was in front. -/
lemma View.Sound.hurries_of_long {r : Role} (hrl : s.role t = .choosing)
    (hparts : Parts s.kind s.queue wake rest set) (hl : s.word.longWait = true) :
    ((s.remove wake rest).setRole t r).Some hurries := by
  have ht : (s.role t).critical = true := congrArg _ hrl
  have htq : (s.role t).inQueue = false := congrArg _ hrl
  obtain ⟨u, hu⟩ := h.long hl
  have hut : u ≠ t := by
    rintro rfl
    rw [hrl] at hu
    cases hu
  have hc := hs.not_critical_of_ne ht hut
  cases hr : s.role u with
  | inFlight long =>
    rw [hr] at hu
    have hn : u ∉ wake := by
      intro hw
      obtain ⟨l, hl, -⟩ := hs.role_of_wake (r := .choosing) ht htq hparts hw
      rw [hr] at hl
      cases hl
    refine ⟨u, ?_⟩
    rw [role_setRole_of_ne _ hut, role_remove_of_notMem _ _ hn, hr]
    exact hu
  | queued long =>
    have hm : u ∈ s.queue := (hs.mem u).mpr (by rw [hr]; rfl)
    obtain ⟨w, ws, hq⟩ := exists_cons_of_ne_nil (ne_nil_of_mem hm)
    have hfst : (s.role w).long = true := by
      have hf := h.front
      rw [hq] at hf hm
      obtain rfl | hm := mem_cons.mp hm
      · exact hu
      · exact (pairwise_cons.mp hf).1 u hm hu
    obtain ⟨l, hlr, hin⟩ := hs.role_of_wake (r := r) ht htq hparts
      (hparts.head w (by rw [hq]; rfl))
    refine ⟨w, ?_⟩
    rw [hlr] at hfst
    rw [hin]
    exact hfst
  | enqueuing | enqueued | leaving | left => rw [hr] at hc; cases hc
  | _ => rw [hr] at hu; cases hu

lemma View.Sound.choose (hrl : s.role t = .choosing)
    (hparts : Parts s.kind s.queue wake rest set) :
    ((s.remove wake rest).setRole t
      (.chosen ⟨decide (rest = []), decide (wake = []), false, false, set⟩)).Sound := by
  have ht : (s.role t).critical = true := congrArg _ hrl
  have htq : (s.role t).inQueue = false := congrArg _ hrl
  set r : Role := .chosen ⟨decide (rest = []), decide (wake = []), false, false, set⟩
  have hwk := hs.wakes_of_parts (r := r) ht htq hparts decide_eq_true
  have hurg : ((s.remove wake rest).setRole t r).Urgent → s.word.longWait = true := by
    rintro (hl | hsn)
    · exact hl
    · obtain ⟨u, hu⟩ := hsn.of_removed (s := s) rfl fun r hr => (soon_dequeue r) ▸ hr
      have hut := hs.one u t (critical_of_soon hu) ht
      rw [hut, hrl] at hu
      cases hu
  constructor
  · exact fun hp => h.waiters (hp.of_removed rfl pending_of_dequeue)
  · exact fun _ => hwk
  · exact fun _ _ => hwk.imp fun _ => serves_of_wakes
  · refine fun hw => writer_removed (h.writer hw) fun hwt => ?_
    rw [hrl] at hwt
    cases hwt
  · refine fun hl => (h.long hl).removed (fun hlt => ?_) fun r hr => (long_dequeue r).trans hr
    rw [hrl] at hlt
    cases hlt
  · exact fun hu _ => h.hurries_of_long hs hrl hparts (hurg hu)
  · exact fun hu _ => (h.hurries_of_long hs hrl hparts (hurg hu)).imp fun _ => rushes_of_hurries
  · exact front_remove h.front hparts.sublist (hs.notMem_rest htq hparts)
  · refine hs.released_remove ht ?_
    unfold View.Released
    rw [role_setRole_self]
    refine ⟨fun hr => of_decide_eq_true hr, fun hw => ?_, rfl, rfl, hparts.writer⟩
    exact decide_eq_true (hparts.rest_of_wake (of_decide_eq_true hw))

lemma View.Sound.leave_dequeued {long wakeNext : Bool}
    (hrl : s.role t = .leaving long true wakeNext) (hla : long = true → wakeNext = true)
    (hparts : Parts s.kind s.queue wake rest set) :
    ((s.remove wake rest).setRole t (.left long true ⟨decide (rest = []), decide (wake = []),
      decide (wakeNext = true ∨ s.queue.head? = some t), decide (s.kind t = .exclusive),
      set⟩)).Sound := by
  have ht : (s.role t).critical = true := congrArg _ hrl
  have htq : (s.role t).inQueue = false := congrArg _ hrl
  have hc : long = true → decide (wakeNext = true ∨ s.queue.head? = some t) = true :=
    fun hl => decide_eq_true (.inl (hla hl))
  set r : Role := .left long true ⟨decide (rest = []), decide (wake = []),
    decide (wakeNext = true ∨ s.queue.head? = some t), decide (s.kind t = .exclusive), set⟩
  have hwk := hs.wakes_of_parts (r := r) ht htq hparts decide_eq_true
  have hurg : ((s.remove wake rest).setRole t r).Urgent → s.Urgent := by
    rintro (hl | hsn)
    · exact .inl hl
    · exact .inr (hsn.of_removed rfl fun r hr => (soon_dequeue r) ▸ hr)
  constructor
  · exact fun hp => h.waiters (hp.of_removed rfl pending_of_dequeue)
  · exact fun _ => hwk
  · exact fun _ _ => hwk.imp fun _ => serves_of_wakes
  · exact fun hw => writer_removed (h.writer hw) fun _ => rfl
  · refine fun hl => (h.long hl).removed (fun hlt => ?_) fun r hr => (long_dequeue r).trans hr
    rw [hrl] at hlt
    exact and_eq_true_iff.mpr ⟨hlt, hc hlt⟩
  · refine fun hu hw => (h.hurry (hurg hu) hw).removed (fun hlt => ?_) hurries_dequeue
    rw [hrl] at hlt
    exact hlt
  · refine fun hu hfr => (h.rush (hurg hu) hfr).removed (fun hlt => ?_) rushes_dequeue
    rw [hrl] at hlt
    exact hlt
  · exact front_remove h.front hparts.sublist (hs.notMem_rest htq hparts)
  · refine hs.released_remove ht ?_
    unfold View.Released
    rw [role_setRole_self]
    refine ⟨fun hr => of_decide_eq_true hr, fun _ hw => ?_, fun hf => ?_, fun hl _ => hc hl,
      fun hk => decide_eq_true hk, hparts.writer⟩
    · exact decide_eq_true (hparts.rest_of_wake (of_decide_eq_true hw))
    · cases hf

lemma View.Sound.leave_queued {long : Bool} (hrl : s.role t = .leaving long false false) :
    ((s.remove [] (s.queue.erase t)).setRole t (.left long false
      ⟨decide (s.queue.erase t = []), true, decide (s.queue.head? = some t),
        decide (s.kind t = .exclusive), false⟩)).Sound := by
  have ht : (s.role t).critical = true := congrArg _ hrl
  have hm : t ∈ s.queue := (hs.mem t).mpr (congrArg _ hrl)
  set r : Role := .left long false ⟨decide (s.queue.erase t = []), true,
    decide (s.queue.head? = some t), decide (s.kind t = .exclusive), false⟩ with hr
  have hsm : ∀ u, u ≠ t → ((s.remove [] (s.queue.erase t)).setRole t r).role u = s.role u := by
    intro u hut
    rw [role_setRole_of_ne _ hut, role_remove_of_notMem _ _ not_mem_nil]
  have hsl : ((s.remove [] (s.queue.erase t)).setRole t r).role t = r := role_setRole_self _ _ _
  have hst : ∀ p : Role → Bool, p (.leaving long false false) = false → s.Some p →
      ((s.remove [] (s.queue.erase t)).setRole t r).Some p := by
    intro p hp hso
    refine hso.turn hsm fun ht => ?_
    rw [hrl, hp] at ht
    cases ht
  have hb : ∀ p : Role → Bool, (p r = true → p (.leaving long false false) = true) →
      ((s.remove [] (s.queue.erase t)).setRole t r).Some p → s.Some p := by
    intro p hp hso
    refine hso.turn (fun u hu => (hsm u hu).symm) ?_
    rwa [hsl, hrl]
  have hurg : ((s.remove [] (s.queue.erase t)).setRole t r).Urgent → s.Urgent := by
    rintro (hl | hsn)
    · exact .inl hl
    · exact .inr (hb _ (by cases ·) hsn)
  constructor
  · exact fun hp => h.waiters (hb _ (fun _ => rfl) hp)
  · exact fun hw => hst _ rfl (h.waker hw)
  · exact fun hw hfr => hst _ rfl (h.served hw hfr)
  · exact fun hw => writer_removed (h.writer hw) fun _ => rfl
  · intro hl
    obtain ⟨u, hu⟩ := h.long hl
    by_cases hut : u = t
    · -- It clears the flag itself if it is in front; else the first one has waited long, too.
      rw [hut, hrl] at hu
      by_cases hh : s.queue.head? = some t
      · refine ⟨t, ?_⟩
        rw [hsl]
        exact and_eq_true_iff.mpr ⟨hu, decide_eq_true hh⟩
      · obtain ⟨w, ws, hq⟩ := exists_cons_of_ne_nil (ne_nil_of_mem hm)
        have hwt : w ≠ t := by
          rintro rfl
          exact hh (by rw [hq]; rfl)
        refine ⟨w, ?_⟩
        rw [hsm w hwt]
        have hfrn := h.front
        rw [hq] at hfrn hm
        have htl := (mem_cons.mp hm).resolve_left (Ne.symm hwt)
        refine (pairwise_cons.mp hfrn).1 t htl ?_
        rw [hrl]
        exact hu
    · exact ⟨u, by rwa [hsm u hut]⟩
  · exact fun hu hw => hst _ (and_false _) (h.hurry (hurg hu) hw)
  · exact fun hu hfr => hst _ (and_false _) (h.rush (hurg hu) hfr)
  · exact front_remove h.front erase_sublist hs.nodup.not_mem_erase
  · refine hs.released_remove ht ?_
    unfold View.Released
    rw [hsl]
    refine ⟨fun hr => of_decide_eq_true hr, fun hf => ?_, fun _ => rfl, fun _ hf => ?_,
      fun hk => decide_eq_true hk, fun hf => ?_⟩
    all_goals cases hf

end

end Removal

/-! ## Release of the spin lock -/

/-- With the queue empty nobody but the holder of the spin lock stands behind `HAS_WAITERS`. -/
lemma View.Guarded.no_pending (hs : s.Guarded) (ht : (s.role t).critical = true)
    (hq : s.queue = []) {b : Bits} : ¬((s.setWord b).setRole t .outside).Some pending := by
  rintro ⟨u, hu⟩
  by_cases hut : u = t
  · rw [hut, role_setRole_self] at hu
    cases hu
  · rw [role_setRole_of_ne _ hut] at hu
    have hm := (hs.mem u).mpr (inQueue_of_pending hu (hs.not_critical_of_ne ht hut))
    rw [hq] at hm
    cases hm

section
variable (h : s.Sound) (hs : s.Guarded) {r : Release}
include h hs

/-- The release of the spin lock by a task that clears the flags it alone stood behind. -/
lemma View.Sound.release (ht : (s.role t).critical = true) (htq : (s.role t).inQueue = false)
    (hemp : r.clearHasWaiters = true → s.queue = [])
    (hwk : (s.role t).wakes = true → r.clearDesignatedWaker = true)
    (hsr : (s.role t).serves = true → r.clearHasWaiters = true)
    (hwr : s.kind t = .exclusive → (s.role t).waits = true → r.clearWriterWaiting = true)
    (hset : r.setWriterWaiting = true → ∃ u ∈ s.queue, s.kind u = .exclusive)
    (hln : (s.role t).long = true → r.clearLongWait = true)
    (hh : (s.role t).hurries = true → r.clearLongWait = true)
    (hrs : (s.role t).rushes = true → r.clearLongWait = true) :
    ((s.setWord (s.word.release r)).setRole t .outside).Sound := by
  have hkp : ∀ (p : Role → Bool) (c : Bool), (p (s.role t) = true → c = true) → c = false →
      s.Some p → ((s.setWord (s.word.release r)).setRole t .outside).Some p := by
    intro p c hp hc hsm
    exact hsm.move rfl fun ht => absurd (hc.symm.trans (hp ht)) false_ne_true
  have hurg : ((s.setWord (s.word.release r)).setRole t .outside).Urgent →
      s.word.longWait = true ∧ r.clearLongWait = false := by
    rintro (hl | hsn)
    · exact and_not_eq_true_iff.mp hl
    · obtain ⟨u, hu⟩ := hsn
      by_cases hut : u = t
      · rw [hut, role_setRole_self] at hu
        cases hu
      · rw [role_setRole_of_ne _ hut] at hu
        exact absurd (hs.one u t (critical_of_soon hu) ht) hut
  constructor
  · intro hp
    refine and_not_eq_true_iff.mpr ⟨h.waiters (hp.of_move (by cases ·)), ?_⟩
    rw [eq_false_iff]
    exact fun hc => hs.no_pending ht (hemp hc) hp
  · intro hw
    obtain ⟨hw, hn⟩ := and_not_eq_true_iff.mp hw
    exact hkp _ _ hwk hn (h.waker hw)
  · intro hw hf
    obtain ⟨hw, hn⟩ := and_not_eq_true_iff.mp hw
    exact hkp _ _ hsr hn (h.served hw hf)
  · intro hw
    obtain hw | hw := or_eq_true_iff.mp hw
    · obtain ⟨hw, hn⟩ := and_eq_true_iff.mp hw
      refine h.writer_move rfl (fun hk hwt => ?_) hw
      rw [hwr hk hwt] at hn
      cases hn
    · obtain ⟨u, hm, hu⟩ := hset hw
      obtain ⟨hut, long, hr⟩ := hs.queued_of_mem ht htq hm
      refine ⟨u, hu, ?_⟩
      rw [role_setRole_of_ne _ hut]
      change (s.role u).waits = true
      rw [hr]
      rfl
  · intro hl
    obtain ⟨hl, hn⟩ := and_not_eq_true_iff.mp hl
    exact hkp _ _ hln hn (h.long hl)
  · intro hu hw
    obtain ⟨hl, hn⟩ := hurg hu
    exact hkp _ _ hh hn (h.hurry (.inl hl) (and_eq_true_iff.mp hw).1)
  · intro hu hf
    obtain ⟨hl, hn⟩ := hurg hu
    exact hkp _ _ hrs hn (h.rush (.inl hl) hf)
  · refine front_setRole h.front fun hm => ?_
    exact absurd ((hs.mem t).mp hm) (htq ▸ false_ne_true)
  · exact h.released_move rfl

lemma View.Sound.chosen (hr : s.role t = .chosen r) :
    ((s.setWord (s.word.release r)).setRole t .outside).Sound := by
  have hrel := h.released t
  unfold View.Released at hrel
  rw [hr] at hrel
  obtain ⟨hemp, hwk, hln, hww, hset⟩ := hrel
  refine h.release hs (congrArg _ hr) (congrArg _ hr) hemp ?_ ?_ ?_ hset ?_ ?_ ?_
  all_goals rw [hr]
  · exact id
  · exact hwk
  · exact fun _ hw => by cases hw
  all_goals exact fun hl => by cases hl

lemma View.Sound.left {long dequeued : Bool} (hr : s.role t = .left long dequeued r) :
    ((s.setWord (s.word.release r)).setRole t .outside).Sound := by
  have hrel := h.released t
  unfold View.Released at hrel
  rw [hr] at hrel
  obtain ⟨hemp, hwk, -, hln, hww, hset⟩ := hrel
  refine h.release hs (congrArg _ hr) (congrArg _ hr) hemp ?_ ?_ ?_ hset ?_ ?_ ?_
  all_goals rw [hr]
  · exact fun hw => (and_eq_true_iff.mp hw).2
  · intro hw
    obtain ⟨hd, hc⟩ := and_eq_true_iff.mp hw
    exact hwk hd hc
  · exact fun hk _ => hww hk
  · exact fun hl => (and_eq_true_iff.mp hl).2
  all_goals
    intro hl
    obtain ⟨hl, hd⟩ := and_eq_true_iff.mp hl
    exact hln hl hd

end

end Moves

/-! ## Every move but one -/

/-- A task that set `LONG_WAIT` cancels its waiter, off the queue and not woken before the drop. -/
def View.Late (s : View n) : Prop := ∃ t, s.role t = .leaving true true false

lemma Move.sound {s s' : View n} (h : Move s s') (hsn : s.Sound) (hs : s.Guarded)
    (hh : s.Held) (hlt : ¬s.Late) : s'.Sound := by
  cases h with
  | start t kind hr => exact hsn.start hs kind hr
  | acquire t waited long hr hwr => exact hsn.acquire hs hr
  | enqueue t waited long long' hr hf hb hl hl' =>
    exact hsn.enqueue hs hr hf hb hl hl'
  | push t long hr => exact hsn.push hs hr
  | settle t long hr => exact hsn.settle hr
  | unlock t kind hr => exact hsn.unlock hs hh hr
  | giveUp t hr hwr => exact hsn.giveUp (hs.notMem hr rfl) hr fun _ => hwr
  | take t hr hf hwts hwa => exact hsn.take hs hr
  | choose t wake rest set hr hparts => exact hsn.choose hs hr hparts
  | chosen t r hr => exact hsn.chosen hs hr
  | cancel t long dequeued wakeNext hr hf => exact hsn.cancel hr
  | leave t long dequeued wakeNext wake rest set hr hwk hparts =>
    cases dequeued with
    | true =>
      refine hsn.leave_dequeued hs hr (fun hl => ?_) hparts
      rw [← not_eq_false]
      rintro rfl
      exact hlt ⟨t, hl ▸ hr⟩
    | false =>
      obtain rfl : wakeNext = false := by
        rw [eq_false_iff]
        exact fun hw => false_ne_true (hwk hw)
      obtain ⟨rfl, rfl, rfl⟩ := hparts
      have hlf := hsn.leave_queued hs hr
      simpa using hlf
  | left t long dequeued r hr => exact hsn.left hs hr

end GunyahVmm.Sync
