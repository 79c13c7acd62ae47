import Mathlib.Data.List.Basic

/-! Worklists: a loop takes pending elements, skips the done, and adds what follows the others. -/

namespace GunyahVmm.Worklist
open List
variable {α : Type} {next : α → α → Prop} {start start' : α → Prop} {pending done : List α} {a : α}

inductive Reached (next : α → α → Prop) (start : α → Prop) : α → Prop
  | start {a : α} : start a → Reached next start a
  | next {a b : α} : Reached next start a → next a b → Reached next start b

lemma Reached.mono (hs : ∀ a, start a → start' a) (h : Reached next start a) :
    Reached next start' a := by
  induction h with
  | start ha => exact .start (hs _ ha)
  | next _ hn ih => exact .next ih hn

/-- The pending and done are reached, and have the start and what follows the done. -/
structure Inv (next : α → α → Prop) (start : α → Prop) (pending done : List α) : Prop where
  sound : ∀ a, a ∈ pending ∨ a ∈ done → Reached next start a
  begun : ∀ a, start a → a ∈ pending ∨ a ∈ done
  closed : ∀ a ∈ done, ∀ b, next a b → b ∈ pending ∨ b ∈ done

lemma inv_start (l : List α) : Inv next (· ∈ l) l [] :=
  ⟨fun _ ha => .start (ha.resolve_right not_mem_nil), fun _ ha => .inl ha,
    fun _ ha => absurd ha not_mem_nil⟩

lemma Inv.skip (h : Inv next start (a :: pending) done) (ha : a ∈ done) :
    Inv next start pending done := by
  have hk : ∀ b, b ∈ a :: pending ∨ b ∈ done → b ∈ pending ∨ b ∈ done := by
    rintro b (hb | hb)
    · rcases mem_cons.mp hb with rfl | hb
      · exact .inr ha
      · exact .inl hb
    · exact .inr hb
  refine ⟨fun b hb => h.sound b ?_, fun b hb => hk b (h.begun b hb),
    fun b hb c hc => hk c (h.closed b hb c hc)⟩
  exact hb.imp_left (mem_cons_of_mem _)

/-- **Worklist rule.** Once nothing is pending, what is done is what is reached. -/
lemma Inv.mem_iff (h : Inv next start [] done) (a : α) : a ∈ done ↔ Reached next start a := by
  refine ⟨fun ha => h.sound a (.inr ha), fun ha => ?_⟩
  induction ha with
  | start ha => exact (h.begun _ ha).resolve_left not_mem_nil
  | next _ hn ih => exact (h.closed _ ih _ hn).resolve_left not_mem_nil

end GunyahVmm.Worklist
