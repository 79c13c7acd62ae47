import Mathlib.Data.List.Induction

/-! The GPIO controller of the buttons (`devices/src/pl061.rs`). Its one interrupt is triggered when
the first unmasked pin becomes pending. -/

namespace GunyahVmm.Pl061

structure Regs where
  data : BitVec 8 := 0
  oldInData : BitVec 8 := 0
  dir : BitVec 8 := 0
  isense : BitVec 8 := 0
  ibe : BitVec 8 := 0
  iev : BitVec 8 := 0
  im : BitVec 8 := 0
  istate : BitVec 8 := 0
  afsel : BitVec 8 := 0
  asserted : Bool := false

namespace Regs
section
variable (regs : Regs)

/-- The edge interrupt of one pin. -/
def latch (changed istate : BitVec 8) (i : Nat) : BitVec 8 :=
  let mask := 1#8 <<< i
  if changed &&& mask ≠ 0 ∧ regs.isense &&& mask = 0 then
    if regs.ibe &&& mask ≠ 0 then istate ||| mask
    else istate ||| ~~~(regs.data ^^^ regs.iev) &&& mask
  else istate

def active : Bool := regs.istate &&& regs.im != 0

/-- The new interrupt state; the flag is whether the interrupt is triggered. -/
def update : Regs × Bool :=
  let changed := (regs.oldInData ^^^ regs.data) &&& ~~~regs.dir
  let latched := if changed ≠ 0 then
      { regs with
        oldInData := regs.data
        istate := (List.range 8).foldl (regs.latch changed) regs.istate }
    else regs
  let level := { latched with
    istate := latched.istate ||| ~~~(regs.data ^^^ regs.iev) &&& regs.isense }
  ({ level with asserted := level.active }, level.active && !regs.asserted)

def setPin (pin : Fin 8) (level : Bool) : Regs × Bool :=
  let mask := 1#8 <<< pin.val
  if regs.dir &&& mask = 0 then
    update { regs with data := if level then regs.data ||| mask else regs.data &&& ~~~mask }
  else (regs, false)

def writeReg (offset : BitVec 64) (value : BitVec 32) : Regs × Bool :=
  let byte := value.setWidth 8
  if offset ≤ 0x3ff then
    let mask := (offset >>> 2).setWidth 8 &&& regs.dir
    update { regs with data := regs.data &&& ~~~mask ||| byte &&& mask }
  else if offset = 0x400 then update { regs with dir := byte }
  else if offset = 0x404 then update { regs with isense := byte }
  else if offset = 0x408 then update { regs with ibe := byte }
  else if offset = 0x40c then update { regs with iev := byte }
  else if offset = 0x410 then update { regs with im := byte }
  else if offset = 0x41c then update { regs with istate := regs.istate &&& ~~~byte }
  else if offset = 0x420 then update { regs with afsel := byte }
  else (regs, false)

def Raised (pin : Nat) : Prop := (regs.istate &&& regs.im).getLsbD pin = true

end

variable {regs : Regs}

lemma active_iff : regs.active = true ↔ ∃ pin, regs.Raised pin := by
  unfold active Raised
  constructor
  · intro h
    by_contra hn
    refine bne_iff_ne.mp h (BitVec.eq_of_getLsbD_eq fun i _ => ?_)
    simpa using fun hi => hn ⟨i, hi⟩
  · rintro ⟨pin, hp⟩
    refine bne_iff_ne.mpr fun hz => ?_
    rw [hz] at hp
    simp at hp

end Regs

open Regs

/-- What happens to the registers: a button moves a pin, or the guest accesses a register. -/
inductive Event where
  | setPin (pin : Fin 8) (level : Bool)
  | read (offset : BitVec 64)
  | write (offset : BitVec 64) (value : BitVec 32)

/-- The registers after an event, and whether it triggers the interrupt. -/
def step (regs : Regs) : Event → Regs × Bool
  | .setPin pin level => regs.setPin pin level
  | .read _ => (regs, false)
  | .write offset value => regs.writeReg offset value

def after (events : List Event) : Regs := events.foldl (fun regs event => (step regs event).1) {}

/-- The remembered level is the level; an edge is triggered when it rises. -/
def Follows (regs : Regs) (result : Regs × Bool) : Prop :=
  result.1.asserted = result.1.active ∧ result.2 = (result.1.active && !regs.active)

variable {regs : Regs} (events : List Event)

lemma follows_unchanged (h : regs.asserted = regs.active) : Follows regs (regs, false) :=
  ⟨h, by simp⟩

lemma follows_update {written : Regs} (h : written.asserted = regs.active) :
    Follows regs written.update := by
  refine ⟨rfl, ?_⟩
  unfold update
  rw [h]
  rfl

lemma step_follows (h : regs.asserted = regs.active) (event : Event) :
    Follows regs (step regs event) := by
  cases event with
  | setPin pin level =>
    unfold step setPin
    dsimp only
    split
    · exact follows_update h
    · exact follows_unchanged h
  | read offset => exact follows_unchanged h
  | write offset value =>
    unfold step writeReg
    dsimp only
    split_ifs
    all_goals first | exact follows_update h | exact follows_unchanged h

lemma after_asserted : (after events).asserted = (after events).active := by
  induction events using List.reverseRecOn with
  | nil => rfl
  | append_singleton events event ih =>
    unfold after
    rw [List.foldl_append]
    exact (step_follows ih event).1

/-- **Edges.** After any events, the next one triggers the interrupt exactly if no unmasked pin was
pending and one is now. -/
theorem edge_iff (event : Event) :
    (step (after events) event).2 = true ↔
      (∀ pin, ¬ (after events).Raised pin) ∧ ∃ pin, (step (after events) event).1.Raised pin := by
  rw [(step_follows (after_asserted events) event).2, Bool.and_eq_true, active_iff,
    Bool.not_eq_true', ← Bool.not_eq_true, active_iff, not_exists]
  exact and_comm

/-- The sleep button is pressed while the power button is pending: its pin becomes pending without
an edge, and stays so without one when the guest clears the other pin. -/
theorem second_button_lost :
    let armed : List Event := [.write 0x40c 0x18, .write 0x410 0x18, .setPin 3 true]
    ¬ (after armed).Raised 4 ∧ (step (after armed) (.setPin 4 true)).1.Raised 4 ∧
      (step (after armed) (.setPin 4 true)).2 = false ∧
      (after (armed ++ [.setPin 4 true, .write 0x41c 0x08])).Raised 4 ∧
      (step (after (armed ++ [.setPin 4 true])) (.write 0x41c 0x08)).2 = false := by
  unfold Raised
  decide

end GunyahVmm.Pl061
