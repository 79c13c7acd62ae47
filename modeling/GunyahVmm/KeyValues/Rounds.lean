import GunyahVmm.KeyValues.Consumption

/-! The rounds in which the fields of a struct are read. A round takes text or a name that is
kept. -/

namespace GunyahVmm.KeyValues
open Run Run.Outcome List
namespace KeyValueDeserializer
variable {d : KeyValueDeserializer}

/-- What is left to read: the input, and a name that is kept. -/
def left (d : KeyValueDeserializer) : Nat :=
  2 * d.input.length + if d.nextIdentifier.isSome then 1 else 0

lemma left_lt_rounds (d : KeyValueDeserializer) : d.left < d.rounds := by
  unfold left rounds
  split <;> omega

lemma left_lt {s t : List Char} {d₁ d₂ : KeyValueDeserializer} (hk : TakesKey s d d₁)
    (hv : Takes t d₁ d₂) : d₂.left < d.left := by
  have hl : d.input.length = s.length + (t.length + d₂.input.length) := by
    rw [hk.input, hv.input, length_append, length_append]
  unfold left
  cases hn : d.nextIdentifier with
  | none =>
    have hs := length_pos_of_ne_nil (hk.progress hn)
    simp only [Option.isSome_none, Bool.false_eq_true, if_false]
    split <;> omega
  | some name =>
    simp only [Option.isSome_some, if_true]
    by_cases ht : t = []
    · subst ht
      have hnn := hv.next rfl hk.next
      rw [hnn]
      simp only [Option.isSome_none, Bool.false_eq_true, if_false]
      omega
    · have := length_pos_of_ne_nil ht
      split <;> omega

end KeyValueDeserializer

namespace StructShape
open KeyValueDeserializer
variable {shape : StructShape} {deserialize : Fin shape.arity → Deserialize Value}
  {d d' : KeyValueDeserializer} {given given' : shape.Given} {after rest : List Char}

lemma fieldsLoop_congr (hr : ∀ i, Reads (deserialize i)) :
    ∀ (fuel fuel' : Nat) (given : shape.Given) (d : KeyValueDeserializer),
      d.topStructParsed = true → d.left < fuel → d.left < fuel' →
      shape.fieldsLoop deserialize fuel given d = shape.fieldsLoop deserialize fuel' given d := by
  intro fuel
  induction fuel with
  | zero => exact fun _ _ _ _ h => absurd h (Nat.not_lt_zero _)
  | succ fuel ih =>
    intro fuel' given d htop hf hf'
    cases fuel' with
    | zero => exact absurd hf' (Nat.not_lt_zero _)
    | succ fuel' =>
      rw [fieldsLoop_succ, fieldsLoop_succ]
      cases hn : shape.nextField deserialize given d with
      | err e => rfl
      | panic => rfl
      | ok r =>
        obtain ⟨next, d₁⟩ := r
        cases next with
        | none => rfl
        | some given' =>
          obtain ⟨d₂, s, t, hs, ht⟩ := nextField_some hr htop hn
          have hl := left_lt hs ht
          exact ih fuel' given' d₁ (ht.top (hs.top htop)) (by omega) (by omega)

lemma readFields_step (hr : ∀ i, Reads (deserialize i)) (htop : d.topStructParsed = true)
    (h : shape.nextField deserialize given d = .ok (some given', d')) :
    shape.readFields deserialize given d = shape.readFields deserialize given' d' := by
  obtain ⟨d₂, s, t, hs, ht⟩ := nextField_some hr htop h
  have hl := left_lt hs ht
  have hb := left_lt_rounds d
  have hl' : d'.left < 2 * d.input.length + 1 := by
    unfold rounds at hb
    omega
  rw [readFields_eq, h]
  exact fieldsLoop_congr hr _ _ _ _ (ht.top (hs.top htop)) hl' (left_lt_rounds d')

lemma readFields_err {e : ParseError} (h : shape.nextField deserialize given d = .err e) :
    shape.readFields deserialize given d = .err e := by
  rw [readFields_eq, h]
  rfl

lemma anyIdentifier_begun {name : Ident} (h : anyIdentifier d.input = some (name, after)) :
    ¬ d.AtEnd := by
  obtain ⟨_, _, c, hc, hi⟩ := anyIdentifier_eq_some h
  rintro (hend | hend)
  all_goals rw [peekChar, hc] at hend
  all_goals cases hend
  · exact absurd hi (by decide)

lemma start_of_key {name : Ident} (h : anyIdentifier rest = some (name, '=' :: after)) :
    shape.start rest = ⟨rest, none, false, true⟩ := by
  have heq : rest[name.length]? = some '=' := by
    rw [(anyIdentifier_eq_some h).1, getElem?_append_right (Nat.le_refl _), Nat.sub_self]
    rfl
  have hn : shape.firstIdentifier rest = none := by
    unfold firstIdentifier
    rw [h]
    dsimp only
    rw [if_pos heq]
  unfold start enter
  rw [show ({ fromInput rest with topStructParsed := true } : KeyValueDeserializer).input = rest
    from rfl, hn]
  rfl

end StructShape

end GunyahVmm.KeyValues
