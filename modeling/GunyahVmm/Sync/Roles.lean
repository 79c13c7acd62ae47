import GunyahVmm.Sync.RawRwLock

/-! What a step does to the lock: it makes one of the moves of `Move`, by its role, or nothing. -/

namespace GunyahVmm.Sync
open Function
variable {n : Nat}

/-! ## Changes of the word -/

/-- The flags that the release of the spin lock changes besides the spin lock itself. -/
structure Release where
  clearHasWaiters : Bool
  clearDesignatedWaker : Bool
  clearLongWait : Bool
  clearWriterWaiting : Bool
  setWriterWaiting : Bool
  deriving DecidableEq

namespace Bits
section
variable (b : Bits) (kind : Kind) (waited long : Bool)

/-- A task may acquire the lock: after a wait it ignores waiting writers, after a long one its own
flag. -/
def Acquirable : Prop :=
  b.locked = false ∧ (kind = .exclusive → b.readers = 0) ∧ (long = false → b.longWait = false) ∧
    (kind = .shared → waited = false → b.writerWaiting = false)

def acquire : Bits :=
  { b with
    locked := b.locked || decide (kind = .exclusive)
    designatedWaker := b.designatedWaker && !waited
    writerWaiting := b.writerWaiting && !decide (kind = .exclusive)
    longWait := b.longWait && !long
    readers := b.readers + if kind = .shared then 1 else 0 }

def enqueue : Bits :=
  { b with
    hasWaiters := true
    designatedWaker := b.designatedWaker && !waited
    spinlock := true
    writerWaiting := b.writerWaiting || decide (kind = .exclusive)
    longWait := b.longWait && !long }

end

def unlock (b : Bits) : Kind → Bits
  | .exclusive => { b with locked := false }
  | .shared => { b with readers := b.readers - 1 }

/-- The unlock is followed by the search for a waiter to wake. -/
def Unserved (b : Bits) (kind : Kind) : Prop :=
  b.hasWaiters = true ∧ b.designatedWaker = false ∧ (kind = .shared → b.readers = 1)

instance (b : Bits) (kind : Kind) : Decidable (b.Unserved kind) := by
  unfold Unserved
  infer_instance

def release (b : Bits) (r : Release) : Bits :=
  { b with
    hasWaiters := b.hasWaiters && !r.clearHasWaiters
    designatedWaker := b.designatedWaker && !r.clearDesignatedWaker
    spinlock := false
    writerWaiting := (b.writerWaiting && !r.clearWriterWaiting) || r.setWriterWaiting
    longWait := b.longWait && !r.clearLongWait }

end Bits

/-! ## Roles -/

inductive Role where
  | outside
  | holding (kind : Kind)
  /-- It has unlocked and looks for the spin lock to wake a waiter. -/
  | unlocking
  /-- It was taken off the queue and has not touched the word since. -/
  | inFlight (long : Bool)
  | queued (long : Bool)
  /-- It has the spin lock and is not in the queue yet. -/
  | enqueuing (long : Bool)
  /-- It has the spin lock and is in the queue. -/
  | enqueued (long : Bool)
  /-- It has the spin lock to choose the waiters to wake. -/
  | choosing
  /-- It has chosen and is about to release the spin lock. -/
  | chosen (r : Release)
  /-- It has the spin lock to cancel its own waiter, which may be off the queue already and may
  have been woken before the drop. -/
  | leaving (long dequeued wakeNext : Bool)
  /-- It has cancelled and is about to release the spin lock. -/
  | left (long dequeued : Bool) (r : Release)
  deriving DecidableEq

def Role.dequeue : Role → Role
  | .queued long => .inFlight long
  | .leaving long _ wakeNext => .leaving long true wakeNext
  | .left long _ r => .left long true r
  | r => r

/-- The role of a task in `lock_slow` outside the queue. -/
def Role.entering (waited long : Bool) : Role := if waited then .inFlight long else .outside

def Role.waiting (dequeued long : Bool) : Role := if dequeued then .inFlight long else .queued long

def Slow.waited (v : Slow) : Bool := (bits v.clear).designatedWaker

def Slow.long (v : Slow) : Bool := (bits v.clear).longWait

def Waiter.dequeued (w : Waiter) : Bool := decide (w.waitingFor = .none)

/-- The effect of the masks that a section under the spin lock has collected. -/
def Release.ofMasks (clear set : Word) : Release where
  clearHasWaiters := (bits clear).hasWaiters
  clearDesignatedWaker := (bits clear).designatedWaker
  clearLongWait := (bits clear).longWait
  clearWriterWaiting := (bits clear).writerWaiting
  setWriterWaiting := (bits set).writerWaiting

def Pc.role : Pc n → Waiter → Role
  | .idle, _ => .outside
  | .lockFirst _, _ => .outside
  | .lockSecond _ _, _ => .outside
  | .slowLoad v, _ => .entering v.waited v.long
  | .slowAcquire v _, _ => .entering v.waited v.long
  | .slowReset v _, _ => .entering v.waited v.long
  | .slowEnqueue v _, _ => .entering v.waited v.long
  | .slowPush v _, _ => .enqueuing (decide (longWaitThreshold ≤ v.waitCount))
  | .slowRelease v _ _, _ => .enqueued v.long
  | .slowWait v, w => .waiting w.dequeued v.long
  | .holding kind, _ => .holding kind
  | .unlockLoad, _ => .unlocking
  | .unlockAcquire _, _ => .unlocking
  | .unlockList _, _ => .choosing
  | .unlockRelease _ clear set _, _ => .chosen (.ofMasks clear set)
  | .cancelLoad v _, w => .waiting w.dequeued v.long
  | .cancelAcquire v _ _, w => .waiting w.dequeued v.long
  | .cancelList v wakeNext _, w => .leaving v.long w.dequeued wakeNext
  | .cancelRelease v _ clear set _, w => .left v.long w.dequeued (.ofMasks clear set)
  | .cancelReload v clear set _, w => .left v.long w.dequeued (.ofMasks clear set)
  | .waking _, _ => .outside

structure View (n : Nat) where
  word : Bits
  queue : List (Fin n)
  kind : Fin n → Kind
  role : Fin n → Role

namespace View

def setRole (s : View n) (t : Fin n) (r : Role) : View n := { s with role := update s.role t r }

def setWord (s : View n) (b : Bits) : View n := { s with word := b }

def remove (s : View n) (wake rest : List (Fin n)) : View n :=
  { s with
    queue := rest
    role := fun t => if wake.contains t then (s.role t).dequeue else s.role t }

lemma role_remove (s : View n) (wake rest : List (Fin n)) (t : Fin n) :
    (s.remove wake rest).role t = if t ∈ wake then (s.role t).dequeue else s.role t := by
  simp [remove]

end View

def State.view (s : State n) : View n where
  word := bits s.word
  queue := s.waiters
  kind := s.kindOf
  role := fun t => (s.tasks t).pc.role (s.tasks t).waiter

/-! ## Moves -/

/-- What `get_wake_list` makes of a queue. -/
structure Parts (kind : Fin n → Kind) (queue wake rest : List (Fin n)) (set : Bool) : Prop where
  perm : (wake ++ rest).Perm queue
  sublist : rest.Sublist queue
  head : ∀ t, queue.head? = some t → t ∈ wake
  writer : set = true → ∃ t ∈ rest, kind t = .exclusive

/-- `cancel_waiter`: a queued waiter leaves the queue, one taken off has the next ones woken. -/
def LeaveParts (kind : Fin n → Kind) (t : Fin n) (dequeued : Bool)
    (queue wake rest : List (Fin n)) (set : Bool) : Prop :=
  if dequeued then Parts kind queue wake rest set
  else wake = [] ∧ rest = queue.erase t ∧ set = false

inductive Move : View n → View n → Prop where
  | start (s : View n) (t : Fin n) (kind : Kind) (hrole : s.role t = .outside) :
      Move s { s with kind := update s.kind t kind }
  | acquire (s : View n) (t : Fin n) (waited long : Bool)
      (hrole : s.role t = .entering waited long)
      (hword : s.word.Acquirable (s.kind t) waited long) :
      Move s ((s.setWord (s.word.acquire (s.kind t) waited long)).setRole t (.holding (s.kind t)))
  | enqueue (s : View n) (t : Fin n) (waited long long' : Bool)
      (hrole : s.role t = .entering waited long) (hfree : s.word.spinlock = false)
      (hword : ¬s.word.Acquirable (s.kind t) waited long)
      (hlong : long = true → waited = true ∧ long' = true)
      (hlong' : long' = true → waited = true) :
      Move s ((s.setWord (s.word.enqueue (s.kind t) waited long)).setRole t (.enqueuing long'))
  | push (s : View n) (t : Fin n) (long : Bool) (hrole : s.role t = .enqueuing long) :
      Move s ({ s with queue := if long then t :: s.queue else s.queue ++ [t] }.setRole t
        (.enqueued long))
  | settle (s : View n) (t : Fin n) (long : Bool) (hrole : s.role t = .enqueued long) :
      Move s ((s.setWord { s.word with
        spinlock := false
        longWait := s.word.longWait || long }).setRole t (.queued long))
  | unlock (s : View n) (t : Fin n) (kind : Kind) (hrole : s.role t = .holding kind) :
      Move s ((s.setWord (s.word.unlock kind)).setRole t
        (if s.word.Unserved kind then .unlocking else .outside))
  | giveUp (s : View n) (t : Fin n) (hrole : s.role t = .unlocking)
      (hword : s.word.hasWaiters = false ∨ s.word.designatedWaker = true) :
      Move s (s.setRole t .outside)
  | take (s : View n) (t : Fin n) (hrole : s.role t = .unlocking)
      (hfree : s.word.spinlock = false) (hwaiters : s.word.hasWaiters = true)
      (hwaker : s.word.designatedWaker = false) :
      Move s ((s.setWord { s.word with
        spinlock := true
        designatedWaker := true }).setRole t .choosing)
  | choose (s : View n) (t : Fin n) (wake rest : List (Fin n)) (set : Bool)
      (hrole : s.role t = .choosing) (hparts : Parts s.kind s.queue wake rest set) :
      Move s ((s.remove wake rest).setRole t
        (.chosen ⟨decide (rest = []), decide (wake = []), false, false, set⟩))
  | chosen (s : View n) (t : Fin n) (r : Release) (hrole : s.role t = .chosen r) :
      Move s ((s.setWord (s.word.release r)).setRole t .outside)
  | cancel (s : View n) (t : Fin n) (long dequeued wakeNext : Bool)
      (hrole : s.role t = .waiting dequeued long) (hfree : s.word.spinlock = false) :
      Move s ((s.setWord { s.word with spinlock := true }).setRole t
        (.leaving long dequeued wakeNext))
  | leave (s : View n) (t : Fin n) (long dequeued wakeNext : Bool) (wake rest : List (Fin n))
      (set : Bool) (hrole : s.role t = .leaving long dequeued wakeNext)
      (hwoken : wakeNext = true → dequeued = true)
      (hparts : LeaveParts s.kind t dequeued s.queue wake rest set) :
      Move s ((s.remove wake rest).setRole t (.left long dequeued
        ⟨decide (rest = []), decide (wake = []),
          decide (wakeNext = true ∨ s.queue.head? = some t),
          decide (s.kind t = .exclusive), set⟩))
  | left (s : View n) (t : Fin n) (long dequeued : Bool) (r : Release)
      (hrole : s.role t = .left long dequeued r) :
      Move s ((s.setWord (s.word.release r)).setRole t .outside)

end GunyahVmm.Sync
