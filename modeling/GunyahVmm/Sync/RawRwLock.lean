import GunyahVmm.Lib.Run
import GunyahVmm.Sync.StateWord
import Mathlib.Logic.Function.Basic
import Mathlib.Data.Fintype.Basic

/-! The asynchronous read-write lock, `cros_async/src/sync/mu.rs`, and its waiters, `waiter.rs`,
under sequentially consistent atomics. Each access to the word, the list under the spin lock or a
waiter is one step, in any order. Spinning is left out. -/

namespace GunyahVmm.Sync
open Function

/-! ## Waiters -/

inductive WaitState where
  | init
  | waiting
  | woken
  | finished
  deriving DecidableEq

/-- The queue that a waiter belongs to. No waiter of this lock's own calls is in a condition
variable's queue. -/
inductive WaitingFor where
  | none
  | mutex
  deriving DecidableEq

structure Waiter where
  kind : Kind
  state : WaitState
  waitingFor : WaitingFor
  linked : Bool

namespace Waiter

def new (kind : Kind) : Waiter := ⟨kind, .init, .mutex, false⟩

def setWaitingFor (w : Waiter) (queue : WaitingFor) : Waiter := { w with waitingFor := queue }

def reset (w : Waiter) (queue : WaitingFor) : Waiter :=
  { w.setWaitingFor queue with state := .init }

/-- The list of the waiters to wake is taken apart as its elements are woken. -/
def wake (w : Waiter) : Waiter := { w with state := .woken, linked := false }

end Waiter

/-- A waiter in a list of waiters to wake: its task and the number of the task's lock operation. -/
structure WaiterRef (n : Nat) where
  task : Fin n
  operation : Nat
  deriving DecidableEq

/-! ## Tasks -/

structure Slow where
  kind : Kind
  clear : Word
  zeroToAcquire : Word
  waitCount : Nat
  deriving DecidableEq

def longWaitThreshold : Nat := 19

def lockSlow (kind : Kind) (clear zeroMask : Word) : Slow where
  kind := kind
  clear := clear
  zeroToAcquire := kind.zeroToAcquire &&& ~~~zeroMask
  waitCount := 0

inductive Pc (n : Nat) where
  | idle
  | lockFirst (kind : Kind)
  | lockSecond (kind : Kind) (oldstate : Word)
  | slowLoad (v : Slow)
  | slowAcquire (v : Slow) (oldstate : Word)
  | slowReset (v : Slow) (oldstate : Word)
  | slowEnqueue (v : Slow) (oldstate : Word)
  | slowPush (v : Slow) (oldstate : Word)
  | slowRelease (v : Slow) (state setOnRelease : Word)
  | slowWait (v : Slow)
  | holding (kind : Kind)
  | unlockLoad
  | unlockAcquire (oldstate : Word)
  | unlockList (oldstate : Word)
  | unlockRelease (state clear setOnRelease : Word) (wakeList : List (WaiterRef n))
  | cancelLoad (v : Slow) (wakeNext : Bool)
  | cancelAcquire (v : Slow) (wakeNext : Bool) (oldstate : Word)
  | cancelList (v : Slow) (wakeNext : Bool) (oldstate : Word)
  | cancelRelease (v : Slow) (oldstate clear setOnRelease : Word) (wakeList : List (WaiterRef n))
  | cancelReload (v : Slow) (clear setOnRelease : Word) (wakeList : List (WaiterRef n))
  | waking (wakeList : List (WaiterRef n))
  deriving DecidableEq

structure Task (n : Nat) where
  pc : Pc n
  operation : Nat
  waiter : Waiter

structure State (n : Nat) where
  word : Word
  waiters : List (Fin n)
  tasks : Fin n → Task n

def start (n : Nat) : State n where
  word := 0
  waiters := []
  tasks := fun _ => ⟨.idle, 0, .new .exclusive⟩

variable {n : Nat}
namespace State

def goto (s : State n) (t : Fin n) (pc : Pc n) : State n :=
  { s with tasks := update s.tasks t { s.tasks t with pc := pc } }

def setWaiter (s : State n) (t : Fin n) (w : Waiter) : State n :=
  { s with tasks := update s.tasks t { s.tasks t with waiter := w } }

/-- `compare_exchange_weak`, which may also fail with the expected word there. -/
def compareExchange (s : State n) (t : Fin n) (fails : Bool) (old new : Word)
    (success failure : Pc n) : State n :=
  if s.word = old ∧ fails = false then ({ s with word := new }).goto t success
  else s.goto t failure

end State

/-! ## The waiter list -/

/-- The loop of `get_wake_list`: the waiters to wake, those that stay, and the bits to set. -/
def wakeLoop (kind : Fin n → Kind) (wakingReaders : Bool) :
    List (Fin n) → List (Fin n) × List (Fin n) × Word
  | [] => ([], [], 0)
  | w :: ws =>
    match kind w with
    | .shared =>
      let (wake, rest, set) := wakeLoop kind true ws
      (w :: wake, rest, set)
    | .exclusive =>
      if wakingReaders then
        let (wake, rest, set) := wakeLoop kind true ws
        (wake, w :: rest, set ||| writerWaiting)
      else ([w], ws, 0)

def getWakeList (kind : Fin n → Kind) (waiters : List (Fin n)) :
    List (Fin n) × List (Fin n) × Word :=
  wakeLoop kind false waiters

namespace State

def kindOf (s : State n) (t : Fin n) : Kind := (s.tasks t).waiter.kind

def refs (s : State n) (wake : List (Fin n)) : List (WaiterRef n) :=
  wake.map fun t => ⟨t, (s.tasks t).operation⟩

/-- The waiters taken off the list belong to no queue any more. -/
def removeWaiters (s : State n) (wake rest : List (Fin n)) : State n where
  word := s.word
  waiters := rest
  tasks := fun t =>
    if t ∈ wake then { s.tasks t with waiter := (s.tasks t).waiter.setWaitingFor .none }
    else s.tasks t

def wake (s : State n) (r : WaiterRef n) : State n :=
  if (s.tasks r.task).operation = r.operation then
    s.setWaiter r.task (s.tasks r.task).waiter.wake
  else s

end State

/-! ## Steps -/

inductive Event where
  | lock (kind : Kind)
  /-- The next step of a call; `fails` makes a weak compare-exchange fail. -/
  | go (fails : Bool)
  | poll
  | drop
  | unlock

def startLock (s : State n) (t : Fin n) (kind : Kind) : State n :=
  { s with tasks := update s.tasks t ⟨.lockFirst kind, (s.tasks t).operation + 1, .new kind⟩ }

/-- The sum in an attempt to acquire; `none` when it overflows, which aborts. -/
def acquireWord (kind : Kind) (clear oldstate : Word) : Option Word :=
  if oldstate.toNat + kind.addToAcquire.toNat < 2 ^ 64 then
    some ((oldstate + kind.addToAcquire) &&& ~~~(clear ||| kind.clearOnAcquire))
  else none

def tryAcquire (s : State n) (t : Fin n) (fails : Bool) (kind : Kind) (clear oldstate : Word)
    (failure : Pc n) : Option (State n) := do
  let new ← acquireWord kind clear oldstate
  return s.compareExchange t fails oldstate new (.holding kind) failure

def slowLook (v : Slow) (oldstate : Word) : Pc n :=
  if oldstate &&& v.zeroToAcquire = 0 then .slowAcquire v oldstate
  else if oldstate &&& spinlock = 0 then .slowReset v oldstate
  else .slowLoad v

/-- The variables after the waiter was put in front of the queue. -/
def Slow.atFront (v : Slow) : Slow :=
  { v with clear := v.clear ||| longWait, zeroToAcquire := v.zeroToAcquire &&& ~~~longWait }

def Slow.afterWait (v : Slow) : Slow :=
  { v with
    clear := v.clear ||| designatedWaker
    zeroToAcquire := v.zeroToAcquire &&& ~~~writerWaiting
    waitCount := v.waitCount + 1 }

def enqueueWord (v : Slow) (oldstate : Word) : Word :=
  (oldstate ||| spinlock ||| hasWaiters ||| v.kind.setWhenWaiting) &&& ~~~v.clear

/-- The waiter goes to the back of the queue, or to its front after too many rounds. -/
def slowPush (s : State n) (t : Fin n) (v : Slow) (oldstate : Word) : State n :=
  let s := s.setWaiter t { (s.tasks t).waiter with linked := true }
  if v.waitCount < longWaitThreshold then
    ({ s with waiters := s.waiters ++ [t] }).goto t (.slowRelease v oldstate 0)
  else
    ({ s with waiters := t :: s.waiters }).goto t (.slowRelease v.atFront oldstate longWait)

def unlockNow (s : State n) (t : Fin n) (kind : Kind) : State n :=
  let oldstate := s.word
  let waiting := oldstate &&& hasWaiters ≠ 0 ∧ oldstate &&& designatedWaker = 0
  match kind with
  | .exclusive =>
    ({ s with word := oldstate - locked }).goto t (if waiting then .unlockLoad else .idle)
  | .shared =>
    ({ s with word := oldstate - readLock }).goto t
      (if waiting ∧ oldstate &&& readMask = readLock then .unlockLoad else .idle)

def unlockLook (oldstate : Word) : Pc n :=
  if oldstate &&& hasWaiters = 0 ∨ oldstate &&& designatedWaker ≠ 0 then .idle
  else if oldstate &&& spinlock = 0 then .unlockAcquire oldstate
  else .unlockLoad

section
variable (s : State n) (t : Fin n)

def unlockList (oldstate : Word) : State n :=
  let (wake, rest, set) := getWakeList s.kindOf s.waiters
  let clear := spinlock ||| (if rest = [] then hasWaiters else 0) |||
    (if wake = [] then designatedWaker else 0)
  (s.removeWaiters wake rest).goto t (.unlockRelease oldstate clear set (s.refs wake))

/-- What `cancel_waiter` does to the list: the waiter leaves it, or others are chosen to be woken in
its place. -/
def cancelParts (wakeNext : Bool) : List (Fin n) × List (Fin n) × Word :=
  let waiter := (s.tasks t).waiter
  let waiters :=
    if waiter.linked = true ∧ waiter.waitingFor = .mutex then s.waiters.erase t else s.waiters
  if wakeNext = true ∨ waiter.waitingFor = .none then getWakeList s.kindOf waiters
  else ([], waiters, 0)

def cancelList (v : Slow) (wakeNext : Bool) (oldstate : Word) : State n :=
  let (wake, rest, set) := cancelParts s t wakeNext
  let clear := spinlock |||
    (if wakeNext = true ∨ s.waiters.head? = some t then longWait else 0) |||
    (if rest = [] then hasWaiters else 0) ||| (if wake = [] then designatedWaker else 0) |||
    (if (s.tasks t).waiter.kind = .exclusive then writerWaiting else 0)
  (s.removeWaiters wake rest).goto t (.cancelRelease v oldstate clear set (s.refs wake))

def wakeStep : List (WaiterRef n) → State n
  | [] => s.goto t .idle
  | r :: rs => (s.wake r).goto t (.waking rs)

def pollWait (v : Slow) : Option (State n) :=
  match (s.tasks t).waiter.state with
  | .init | .waiting => some (s.setWaiter t { (s.tasks t).waiter with state := .waiting })
  | .woken =>
    some ((s.setWaiter t { (s.tasks t).waiter with state := .finished }).goto t
      (.slowLoad v.afterWait))
  | .finished => none

def dropWait (v : Slow) : State n :=
  match (s.tasks t).waiter.state with
  | .finished => s.goto t .idle
  | .woken => s.goto t (.cancelLoad v true)
  | .init | .waiting => s.goto t (.cancelLoad v false)

/-- One step of one task; `none` for a step the task cannot make and for an abort. -/
def taskStep : Pc n → Event → Option (State n)
  | .idle, .lock kind =>
    some (startLock s t kind)
  | .lockFirst kind, .go fails =>
    some (s.compareExchange t fails 0 kind.addToAcquire (.holding kind)
      (if s.word &&& kind.zeroToAcquire ≠ 0 then .slowLoad (lockSlow kind 0 0)
        else .lockSecond kind s.word))
  | .lockSecond kind oldstate, .go fails =>
    tryAcquire s t fails kind 0 oldstate (.slowLoad (lockSlow kind 0 0))
  | .slowLoad v, .go _ => some (s.goto t (slowLook v s.word))
  | .slowAcquire v oldstate, .go fails =>
    tryAcquire s t fails v.kind v.clear oldstate (.slowLoad v)
  | .slowReset v oldstate, .go _ =>
    some ((s.setWaiter t ((s.tasks t).waiter.reset .mutex)).goto t (.slowEnqueue v oldstate))
  | .slowEnqueue v oldstate, .go fails =>
    some (s.compareExchange t fails oldstate (enqueueWord v oldstate)
      (.slowPush v oldstate) (.slowLoad v))
  | .slowPush v oldstate, .go _ => some (slowPush s t v oldstate)
  | .slowRelease v state set, .go fails =>
    some (s.compareExchange t fails state ((state ||| set) &&& ~~~spinlock)
      (.slowWait v) (.slowRelease v s.word set))
  | .slowWait v, .poll => pollWait s t v
  | .slowWait v, .drop => some (dropWait s t v)
  | .holding kind, .unlock => some (unlockNow s t kind)
  | .unlockLoad, .go _ => some (s.goto t (unlockLook s.word))
  | .unlockAcquire oldstate, .go fails =>
    some (s.compareExchange t fails oldstate (oldstate ||| spinlock ||| designatedWaker)
      (.unlockList oldstate) .unlockLoad)
  | .unlockList oldstate, .go _ => some (unlockList s t oldstate)
  | .unlockRelease state clear set wake, .go fails =>
    some (s.compareExchange t fails state ((state ||| set) &&& ~~~clear)
      (.waking wake) (.unlockRelease s.word clear set wake))
  | .cancelLoad v wakeNext, .go _ => some (s.goto t (.cancelAcquire v wakeNext s.word))
  | .cancelAcquire v wakeNext oldstate, .go fails =>
    if oldstate &&& spinlock ≠ 0 then some (s.goto t (.cancelLoad v wakeNext))
    else some (s.compareExchange t fails oldstate (oldstate ||| spinlock)
      (.cancelList v wakeNext oldstate) (.cancelLoad v wakeNext))
  | .cancelList v wakeNext oldstate, .go _ => some (cancelList s t v wakeNext oldstate)
  | .cancelRelease v oldstate clear set wake, .go fails =>
    some (s.compareExchange t fails oldstate ((oldstate &&& ~~~clear) ||| set)
      (.waking wake) (.cancelReload v clear set wake))
  | .cancelReload v clear set wake, .go _ =>
    some (s.goto t (.cancelRelease v s.word clear set wake))
  | .waking wake, .go _ => some (wakeStep s t wake)
  | _, _ => none

end

def step (s : State n) (e : Fin n × Event) : Option (State n) := taskStep s e.1 (s.tasks e.1).pc e.2

variable {s s' : State n} {t : Fin n} {pc : Pc n}

lemma taskStep_lock {kind : Kind} (h : taskStep s t pc (.lock kind) = some s') :
    pc = .idle ∧ s' = startLock s t kind := by
  cases pc with
  | idle => exact ⟨rfl, (Option.some.inj h).symm⟩
  | _ => cases h

lemma taskStep_poll (h : taskStep s t pc .poll = some s') :
    ∃ v, pc = .slowWait v ∧ pollWait s t v = some s' := by
  cases pc with
  | slowWait v => exact ⟨v, rfl, h⟩
  | _ => cases h

lemma taskStep_drop (h : taskStep s t pc .drop = some s') :
    ∃ v, pc = .slowWait v ∧ s' = dropWait s t v := by
  cases pc with
  | slowWait v => exact ⟨v, rfl, (Option.some.inj h).symm⟩
  | _ => cases h

lemma taskStep_unlock (h : taskStep s t pc .unlock = some s') :
    ∃ kind, pc = .holding kind ∧ s' = unlockNow s t kind := by
  cases pc with
  | holding kind => exact ⟨kind, rfl, (Option.some.inj h).symm⟩
  | _ => cases h

def State.holders (s : State n) (kind : Kind) : Finset (Fin n) :=
  Finset.univ.filter fun t => (s.tasks t).pc = .holding kind

end GunyahVmm.Sync
