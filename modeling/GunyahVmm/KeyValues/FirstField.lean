import GunyahVmm.KeyValues.Rounds

/-! The name of the first field of a struct may be left out: the fields are read as if it
stood there. -/

namespace GunyahVmm.KeyValues
open Run Run.Outcome List KeyValueDeserializer

lemma anyIdentifier_append {c : Char} (hc : isIdentifierChar c = false) (v rest : List Char) :
    anyIdentifier (v ++ c :: rest) = (anyIdentifier v).map fun r => (r.1, r.2 ++ c :: rest) := by
  have hs (v : List Char) : (v ++ c :: rest).takeWhile isIdentifierChar =
        v.takeWhile isIdentifierChar ∧
      (v ++ c :: rest).dropWhile isIdentifierChar = v.dropWhile isIdentifierChar ++ c :: rest := by
    induction v with
    | nil => simp [hc]
    | cons a v ih => by_cases ha : isIdentifierChar a <;> simp [ha, ih]
  cases v with
  | nil =>
    have hf : (c.isAlphanum || c = '_') = false := (Bool.or_eq_false_iff.mp hc).1
    rw [nil_append, anyIdentifier, if_neg (by simp [hf])]
    rfl
  | cons a v =>
    rw [cons_append, anyIdentifier, anyIdentifier, (hs v).1, (hs v).2]
    split <;> rfl

namespace StructShape
variable {shape : StructShape} {deserialize : Fin shape.arity → Deserialize Value}
  {first : Ident} {v rest : List Char}

lemma readFields_congr (hr : ∀ i, Reads (deserialize i)) {given : shape.Given}
    {d d' : KeyValueDeserializer} (ht : d.topStructParsed = true)
    (ht' : d'.topStructParsed = true)
    (h : nextKeySeed shape.visitField d = nextKeySeed shape.visitField d') :
    shape.readFields deserialize given d = shape.readFields deserialize given d' := by
  have hrnd : shape.nextField deserialize given d = shape.nextField deserialize given d' := by
    unfold nextField
    rw [h]
  cases hn : shape.nextField deserialize given d with
  | err e => rw [readFields_err hn, readFields_err (hrnd ▸ hn)]
  | panic => rw [readFields_eq, readFields_eq, ← hrnd, hn]; rfl
  | ok r =>
    obtain ⟨next, d₁⟩ := r
    cases next with
    | none => rw [readFields_eq, readFields_eq, ← hrnd, hn]; rfl
    | some given' =>
      rw [readFields_step hr ht hn, readFields_step hr ht' (hrnd ▸ hn)]

lemma start_of_value (hf : shape.fields.head? = some first)
    (hv : ∀ name after, anyIdentifier v = some (name, after) →
      after.head? ≠ some '=' ∧ name ∉ shape.fields) :
    shape.start (v ++ ',' :: rest) = ⟨v ++ ',' :: rest, some first, false, true⟩ := by
  have hn : shape.firstIdentifier (v ++ ',' :: rest) = some first := by
    unfold firstIdentifier
    rw [anyIdentifier_append (by decide)]
    cases hi : anyIdentifier v with
    | none => exact hf
    | some r =>
      obtain ⟨heq, hfl⟩ := hv r.1 r.2 hi
      dsimp only [Option.map_some]
      rw [if_neg, if_neg hfl, hf]
      rw [(anyIdentifier_eq_some hi).1, append_assoc,
        getElem?_append_right (Nat.le_refl _), Nat.sub_self]
      cases ha : r.2 with
      | nil => simp
      | cons c after => simpa [ha] using heq
  unfold start enter
  rw [show ({ fromInput (v ++ ',' :: rest) with topStructParsed := true } :
    KeyValueDeserializer).input = v ++ ',' :: rest from rfl, hn]
  rfl

/-- **The first field.** Let the text `v` be no key and begin neither with the name of a field
nor with a closing bracket. Then it is read in front of the other fields as it is behind the
name of the first one. -/
theorem first_name_optional (t : Fin shape.arity → Ty) (hfirst : shape.fields.head? = some first)
    (hname : anyIdentifier first = some (first, []))
    (hvalue : ∀ name after, anyIdentifier v = some (name, after) →
      after.head? ≠ some '=' ∧ name ∉ shape.fields) (hopen : v.head? ≠ some ']')
      (rest : List Char) :
    fromKeyValues (.struct shape t) (v ++ ',' :: rest) =
      fromKeyValues (.struct shape t) (first ++ '=' :: (v ++ ',' :: rest)) := by
  have hrd : ∀ i, Reads (t i).deserialize := fun i => (t i).reads_deserialize
  have hi : anyIdentifier (first ++ '=' :: (v ++ ',' :: rest)) =
      some (first, '=' :: (v ++ ',' :: rest)) := by
    rw [anyIdentifier_append (by decide), hname]
    rfl
  have hk : nextKeySeed shape.visitField (shape.start (v ++ ',' :: rest)) =
      nextKeySeed shape.visitField (shape.start (first ++ '=' :: (v ++ ',' :: rest))) := by
    have hb := anyIdentifier_begun (d := ⟨_, none, false, true⟩) hi
    rw [start_of_value hfirst hvalue, start_of_key hi]
    unfold AtEnd at hb
    unfold nextKeySeed deserializeIdentifier parseIdentifier parse
    rw [if_neg hb, if_neg, hi]
    · rfl
    · cases v with
      | nil => exact nofun
      | cons c v => simpa [peekChar] using hopen
  have hr := @readFields_congr _ _ hrd [] _ _ rfl rfl hk
  have hs (input : List Char) : Ty.deserialize (.struct shape t) (.fromInput input) =
      shape.visitMap (fun i => (t i).deserialize) (shape.start input) := rfl
  rw [fromKeyValues, fromKeyValues, hs, hs, visitMap, hr]
  rfl

abbrev flags : StructShape where
  arity := 1
  fields := [['a']]
  visitStr := fun name => if name = ['a'] then some 0 else none
  missing := fun _ => some (.bool false)
  denyUnknownFields := false

/-- A group of flags and a number, both of which may be left out. -/
abbrev flagsAndNumber : StructShape where
  arity := 2
  fields := [['g'], ['b']]
  visitStr := fun name => if name = ['g'] then some 0 else if name = ['b'] then some 1 else none
  missing := fun i => some (if i = 0 then .cons (.bool false) .nil else .int 0)
  denyUnknownFields := false

def flagsAndNumberTypes (i : Fin flagsAndNumber.arity) : Ty :=
  if i = 0 then .struct flags fun _ => .bool else .int ⟨false, 32⟩

theorem first_name_optional_flags :
    fromKeyValues (.struct flagsAndNumber flagsAndNumberTypes)
        ['[', 'a', ']', ',', 'b', '=', '1'] =
      fromKeyValues (.struct flagsAndNumber flagsAndNumberTypes)
        ['g', '=', '[', 'a', ']', ',', 'b', '=', '1'] :=
  first_name_optional (v := ['[', 'a', ']']) flagsAndNumberTypes rfl rfl (fun _ _ h => nomatch h)
    (by decide) ['b', '=', '1']

abbrev letter : StructShape := { flags with missing := fun _ => none }

/-- A bracket is a character, but in front it ends the fields. -/
theorem bracket_not_first :
    Ty.deserialize .char ⟨[']'], none, true, true⟩ = .ok (.char ']', ⟨[], none, true, true⟩) ∧
      fromKeyValues (.struct letter fun _ => .char) ['a', '=', ']', ','] =
        .ok (.cons (.char ']') .nil) ∧
      fromKeyValues (.struct letter fun _ => .char) [']', ','] =
        .err (.custom (.missingField 0)) := by
  decide +kernel

end StructShape

end GunyahVmm.KeyValues
