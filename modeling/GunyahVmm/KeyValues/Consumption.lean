import GunyahVmm.KeyValues.Deserializer
import Mathlib.Data.List.Infix

/-! A value is a piece of the front of the input. Only an empty group leaves a name behind. -/

namespace GunyahVmm.KeyValues
open Run Run.Outcome List

/-! ## Parsers take a piece of the front -/

variable {s t rest : List Char}

lemma unescape_suffix : ∀ {t rest : List Char}, unescape s = some (t, rest) → rest <:+ s := by
  fun_induction unescape s with
  | case1 s =>
    intro t rest h
    cases h
    exact suffix_cons _ _
  | case2 s ih | case3 s ih =>
    intro t rest h
    obtain ⟨r, hr, heq⟩ := Option.map_eq_some_iff.mp h
    cases heq
    exact (ih hr).trans ((suffix_cons _ _).trans (suffix_cons _ _))
  | case4 | case6 => exact fun h => nomatch h
  | case5 c s _ _ _ _ ih =>
    intro t rest h
    obtain ⟨r, hr, heq⟩ := Option.map_eq_some_iff.mp h
    cases heq
    exact (ih hr).trans (suffix_cons _ _)

lemma doubleQuoted_suffix (h : doubleQuoted s = some (t, rest)) : rest <:+ s := by
  unfold doubleQuoted at h
  split at h
  · exact (unescape_suffix h).trans (suffix_cons _ _)
  · cases h

lemma singleQuoted_suffix (h : singleQuoted s = some (t, rest)) : rest <:+ s := by
  unfold singleQuoted at h
  split at h
  · next s =>
    split at h
    · next c more hd =>
      have hm : more <:+ s := (suffix_cons c more).trans (hd ▸ dropWhile_suffix _)
      cases h
      exact hm.trans (suffix_cons _ _)
    · cases h
  · cases h

lemma takeWhile1_suffix {p : Char → Bool} (h : takeWhile1 p s = some (t, rest)) : rest <:+ s := by
  unfold takeWhile1 at h
  split at h
  all_goals cases h
  · exact dropWhile_suffix _

lemma anyString_suffix (h : anyString s = some (t, rest)) : rest <:+ s := by
  rcases Option.or_eq_some_iff.mp h with h | ⟨_, h⟩
  · exact doubleQuoted_suffix h
  rcases Option.or_eq_some_iff.mp h with h | ⟨_, h⟩
  · exact singleQuoted_suffix h
  · exact takeWhile1_suffix h

lemma signPrefix_suffix (s : List Char) : (signPrefix s).2 <:+ s := by
  unfold signPrefix
  split
  · exact suffix_cons _ _
  · exact suffix_refl _

lemma radixPrefix_suffix (s : List Char) : (radixPrefix s).2 <:+ s := by
  unfold radixPrefix
  split
  · exact (suffix_cons _ _).trans (suffix_cons _ _)
  · exact (suffix_cons _ _).trans (suffix_cons _ _)
  · exact (suffix_cons _ _).trans (suffix_cons _ _)
  · exact suffix_refl _

lemma anyNumber_suffix {t : IntType} {n : Int} (h : anyNumber t s = some (n, rest)) :
    rest <:+ s := by
  obtain ⟨⟨digits, rest'⟩, ht, h⟩ := Option.bind_eq_some_iff.mp h
  dsimp only at h
  split at h
  · obtain ⟨m, _, heq⟩ := Option.map_eq_some_iff.mp h
    cases heq
    exact (takeWhile1_suffix ht).trans ((radixPrefix_suffix _).trans (signPrefix_suffix s))
  · cases h

lemma anyBool_suffix {b : Bool} (h : anyBool s = some (b, rest)) : rest <:+ s := by
  unfold anyBool at h
  split at h
  all_goals cases h
  · exact ⟨['t', 'r', 'u', 'e'], rfl⟩
  · exact ⟨['f', 'a', 'l', 's', 'e'], rfl⟩

lemma anyIdentifier_eq_some {name : Ident} (h : anyIdentifier s = some (name, rest)) :
    s = name ++ rest ∧ name ≠ [] ∧ ∃ c, s.head? = some c ∧ (c.isAlphanum || c = '_') = true := by
  unfold anyIdentifier at h
  split at h
  · next c s =>
    split at h
    · next hc =>
      cases h
      refine ⟨?_, cons_ne_nil _ _, c, rfl, hc⟩
      rw [cons_append, takeWhile_append_dropWhile]
    · cases h
  · cases h

/-! ## The text that is taken -/

namespace KeyValueDeserializer
variable {α β κ : Type}

/-- `text` is taken between `d` and `d'`. A name is left behind only if there is some. -/
structure Takes (text : List Char) (d d' : KeyValueDeserializer) : Prop where
  input : d.input = text ++ d'.input
  top : d.topStructParsed = true → d'.topStructParsed = true
  next : text = [] → d.nextIdentifier = none → d'.nextIdentifier = none

variable {d d' : KeyValueDeserializer} {deserialize : Deserialize α}

lemma Takes.refl (d : KeyValueDeserializer) : Takes [] d d := ⟨rfl, id, fun _ h => h⟩

lemma Takes.trans {d₁ d₂ : KeyValueDeserializer} (h₁ : Takes s d d₁) (h₂ : Takes t d₁ d₂) :
    Takes (s ++ t) d d₂ where
  input:= by rw [h₁.input, h₂.input, append_assoc]
  top := fun h => h₂.top (h₁.top h)
  next := fun hnil h =>
    have ⟨hs, ht⟩ := append_eq_nil_iff.mp hnil
    h₂.next ht (h₁.next hs h)

lemma takes_of_suffix {b : Bool} (h : rest <:+ d.input) :
    ∃ text, Takes text d { d with input := rest, hasEqual := b } := by
  obtain ⟨text, ht⟩ := h
  exact ⟨text, ht.symm, id, fun _ h => h⟩

lemma takes_skipChar {c : Char} (h : d.peekChar = some c) :
    Takes [c] d d.skipChar where
  input := (cons_head?_tail h).symm
  top := id
  next := fun _ h => h

/-- Whatever is read inside the top structure, a piece of the front of the input
is taken. -/
def Reads (deserialize : Deserialize α) : Prop :=
  ∀ ⦃d val d'⦄, d.topStructParsed = true → deserialize d = .ok (val, d') → ∃ text, Takes text d d'

lemma reads_parse {kind : ErrorKind} {parser : List Char → Option (α × List Char)}
    (h : ∀ {s a rest}, parser s = some (a, rest) → rest <:+ s) : Reads (parse kind parser) := by
  intro d a d' _ hd
  unfold parse at hd
  split at hd
  · next hp =>
    cases hd
    exact takes_of_suffix (h hp)
  · cases hd

lemma reads_ok (a : α) : Reads fun d => .ok (a, d) := by
  intro d val d' _ hd
  cases hd
  exact ⟨[], .refl d⟩

lemma Reads.bind (h : Reads deserialize)
    {next : α × KeyValueDeserializer → Outcome ParseError (β × KeyValueDeserializer)}
    (hn : ∀ a, Reads fun d => next (a, d)) : Reads fun d => deserialize d >>= next := by
  intro d val d' htop hd
  obtain ⟨⟨a, d₁⟩, hd₁, hd⟩ := bind_eq_ok.mp hd
  obtain ⟨s, hs⟩ := h htop hd₁
  obtain ⟨t, ht⟩ := hn a (hs.top htop) hd
  exact ⟨s ++ t, hs.trans ht⟩

lemma Reads.visit (h : Reads deserialize) (make : α → β) : Reads (visit make deserialize) :=
  h.bind fun a => reads_ok (make a)

lemma reads_confirmSeparator : Reads confirmSeparator := by
  intro d val d' _ hd
  unfold confirmSeparator at hd
  split at hd
  · cases hd
    exact ⟨[], .refl d⟩
  · next c hc =>
    split at hd
    · cases hd
      exact ⟨[c], takes_skipChar hc⟩
    · split at hd
      · cases hd
        exact ⟨[], .refl d⟩
      · cases hd

lemma reads_parseString : Reads parseString := by
  refine (reads_parse anyString_suffix).bind fun s d val d' ht hd => ?_
  dsimp only at hd
  split at hd
  · exact reads_ok s ht hd
  · cases hd

lemma reads_parseNumber (t : IntType) : Reads (parseNumber t) := reads_parse anyNumber_suffix

lemma reads_deserializeBool : Reads deserializeBool := by
  intro d val d' ht hd
  unfold deserializeBool at hd
  split at hd
  · exact reads_parse anyBool_suffix ht hd
  · exact reads_ok true ht hd

lemma reads_deserializeChar : Reads deserializeChar := by
  intro d val d' _ hd
  unfold deserializeChar at hd
  split at hd
  · next c hc =>
    have ht := takes_skipChar hc
    cases hd
    exact ⟨_, ht⟩
  · cases hd

lemma deserializeIdentifier_eq_ok {name : Ident} (h : deserializeIdentifier d = .ok (name, d')) :
    d'.nextIdentifier = none ∧ d'.topStructParsed = d.topStructParsed ∧
      ∃ text, d.input = text ++ d'.input ∧ (d.nextIdentifier = none → text ≠ []) := by
  unfold deserializeIdentifier at h
  split at h
  · next name' hnm =>
    cases h
    exact ⟨rfl, rfl, [], rfl, fun hn => by rw [hnm] at hn; cases hn⟩
  · next hn =>
    unfold parseIdentifier parse at h
    split at h
    · next hi =>
      obtain ⟨hs, hne, -⟩ := anyIdentifier_eq_some hi
      cases h
      exact ⟨hn, rfl, name, hs, fun _ => hne⟩
    · cases h

lemma reads_deserializeIdentifier : Reads deserializeIdentifier := by
  intro d val d' _ hd
  obtain ⟨hn, htop, text, ht, _⟩ := deserializeIdentifier_eq_ok hd
  exact ⟨text, ht, fun h => htop.trans h, fun _ _ => hn⟩

lemma Reads.nextValueSeed (h : Reads deserialize) : Reads (nextValueSeed deserialize) :=
  h.bind fun a => reads_confirmSeparator.visit fun _ => a

lemma Reads.nextElementSeed (h : Reads deserialize) : Reads (nextElementSeed deserialize) := by
  intro d val d' ht hd
  unfold KeyValueDeserializer.nextElementSeed at hd
  split at hd
  · exact reads_ok none ht hd
  · exact h.nextValueSeed.visit some ht hd

lemma bracketed_eq_ok {inside : Deserialize α} {val : α}
    (h : bracketed inside d = .ok (val, d')) :
    ∃ d₁, inside d.skipChar = .ok (val, d₁) ∧ d₁.peekChar = some ']' ∧ d' = d₁.skipChar := by
  obtain ⟨⟨a, d₁⟩, hd₁, h⟩ := bind_eq_ok.mp h
  dsimp only at h
  split at h
  · next hc =>
    cases h
    exact ⟨d₁, hd₁, hc, rfl⟩
  · cases h

lemma Reads.deserializeSeq {visitSeq : Deserialize α} (h : Reads visitSeq) :
    Reads (deserializeSeq visitSeq) := by
  intro d val d' htop hd
  unfold KeyValueDeserializer.deserializeSeq at hd
  split at hd
  · next ho =>
    obtain ⟨d₁, hd₁, hc, rfl⟩ := bracketed_eq_ok hd
    obtain ⟨t, ht⟩ := h ((takes_skipChar ho).top htop) hd₁
    exact ⟨_, ((takes_skipChar ho).trans ht).trans (takes_skipChar hc)⟩
  · cases hd

lemma Reads.visitSeqLoop (h : Reads deserialize) :
    ∀ fuel, Reads (visitSeqLoop deserialize fuel) := by
  intro fuel
  induction fuel with
  | zero => exact fun _ _ _ _ hd => nomatch hd
  | succ fuel ih =>
    refine h.nextElementSeed.bind fun element => ?_
    cases element with
    | none => exact reads_ok []
    | some a => exact ih.visit (a :: ·)

lemma Reads.visitSeq (h : Reads deserialize) :
    Reads (visitSeq deserialize) := fun d _ _ ht hd => h.visitSeqLoop d.rounds ht hd

lemma reads_visitTuple : ∀ {l : List (Deserialize α)} {len : Nat},
    (∀ deserialize ∈ l, Reads deserialize) → Reads (visitTuple l len) := by
  intro l
  induction l with
  | nil => exact fun _ => reads_ok []
  | cons deserialize l ih =>
    intro len hl
    obtain ⟨hf, hl⟩ := forall_mem_cons.mp hl
    refine hf.nextElementSeed.bind fun element => ?_
    cases element with
    | none => exact fun _ _ _ _ hd => nomatch hd
    | some a => exact (ih hl).visit (a :: ·)

lemma reads_ignoredAnyLoop : ∀ depth, Reads (ignoredAnyLoop depth) := by
  intro depth
  induction depth with
  | zero => exact fun _ _ _ _ hd => nomatch hd
  | succ depth ih =>
    intro d val d' ht hd
    unfold ignoredAnyLoop at hd
    split at hd
    · exact reads_deserializeBool.visit _ ht hd
    split at hd
    · exact ih.visitSeq.deserializeSeq.visit _ ht hd
    split at hd
    · exact (reads_parseNumber _).visit _ ht hd
    split at hd
    · exact (reads_parseNumber _).visit _ ht hd
    split at hd
    · exact reads_deserializeBool.visit _ ht hd
    · exact reads_parseString.visit _ ht hd

lemma reads_deserializeIgnoredAny : Reads deserializeIgnoredAny :=
  fun d _ _ ht hd => reads_ignoredAnyLoop d.rounds ht hd

/-! ## Keys -/

/-- The end of the input or of a group is next. -/
def AtEnd (d : KeyValueDeserializer) : Prop := d.peekChar = none ∨ d.peekChar = some ']'

lemma nextKeySeed_none {visit : Ident → Outcome ParseError κ}
    (h : nextKeySeed visit d = .ok (none, d')) : d' = d ∧ d.AtEnd := by
  unfold nextKeySeed at h
  split at h
  · next hend =>
    cases h
    exact ⟨rfl, hend⟩
  · obtain ⟨⟨name, d₁⟩, _, h⟩ := bind_eq_ok.mp h
    obtain ⟨key, _, h⟩ := bind_eq_ok.mp h
    split at h
    · cases h
    split at h
    · cases h
    split at h
    · cases h
    · cases h

/-- What a key takes: its identifier, unless it was left out. No name is kept. -/
structure TakesKey (text : List Char) (d d' : KeyValueDeserializer) : Prop where
  input : d.input = text ++ d'.input
  top : d.topStructParsed = true → d'.topStructParsed = true
  next : d'.nextIdentifier = none
  begun : ¬ d.AtEnd
  progress : d.nextIdentifier = none → text ≠ []

lemma nextKeySeed_some {visit : Ident → Outcome ParseError κ} {key : κ}
    (h : nextKeySeed visit d = .ok (some key, d')) : ∃ text, TakesKey text d d' := by
  unfold nextKeySeed at h
  split at h
  · cases h
  next hb =>
  obtain ⟨⟨name, d₁⟩, hnm, h⟩ := bind_eq_ok.mp h
  obtain ⟨key', _, h⟩ := bind_eq_ok.mp h
  obtain ⟨hn, htop, text, htx, hne⟩ := deserializeIdentifier_eq_ok hnm
  split at h
  · cases h
    exact ⟨text, htx, fun ht => htop.trans ht, hn, hb, hne⟩
  split at h
  · next heq =>
    cases h
    refine ⟨text ++ ['='], ?_, fun ht => htop.trans ht, hn, hb, ?_⟩
    · rw [htx, (takes_skipChar heq).input, append_assoc]
    · exact fun _ => append_ne_nil_of_right_ne_nil _ (cons_ne_nil _ _)
  split at h
  all_goals cases h
  · exact ⟨text, htx, fun ht => htop.trans ht, hn, hb, hne⟩

end KeyValueDeserializer

/-! ## The fields of a struct -/

namespace StructShape
open KeyValueDeserializer
variable {shape : StructShape} {deserialize : Fin shape.arity → Deserialize Value}
variable {given : shape.Given} {d d' : KeyValueDeserializer}

lemma nextField_none (h : shape.nextField deserialize given d = .ok (none, d')) :
    d' = d ∧ d.AtEnd := by
  obtain ⟨⟨key, d₁⟩, hk, h⟩ := bind_eq_ok.mp h
  rcases key with _ | _ | i
  · cases h
    exact nextKeySeed_none hk
  · obtain ⟨⟨_, d₂⟩, _, h⟩ := bind_eq_ok.mp h
    cases h
  · dsimp only at h
    split at h
    · cases h
    · obtain ⟨⟨_, d₂⟩, _, h⟩ := bind_eq_ok.mp h
      cases h

lemma nextField_some (hreads : ∀ i, Reads (deserialize i)) {given' : shape.Given}
    (htop : d.topStructParsed = true)
    (h : shape.nextField deserialize given d = .ok (some given', d')) :
    ∃ d₁ s t, TakesKey s d d₁ ∧ Takes t d₁ d' := by
  obtain ⟨⟨key, d₁⟩, hk, h⟩ := bind_eq_ok.mp h
  rcases key with _ | _ | i
  · cases h
  · obtain ⟨s, hs⟩ := nextKeySeed_some hk
    obtain ⟨⟨_, d₂⟩, hv, h⟩ := bind_eq_ok.mp h
    cases h
    obtain ⟨t, ht⟩ := reads_deserializeIgnoredAny.nextValueSeed (hs.top htop) hv
    exact ⟨d₁, s, t, hs, ht⟩
  · obtain ⟨s, hs⟩ := nextKeySeed_some hk
    dsimp only at h
    split at h
    · cases h
    obtain ⟨⟨_, d₂⟩, hv, h⟩ := bind_eq_ok.mp h
    cases h
    obtain ⟨t, ht⟩ := (hreads i).nextValueSeed (hs.top htop) hv
    exact ⟨d₁, s, t, hs, ht⟩

lemma fieldsLoop_succ (fuel : Nat) (given : shape.Given) (d : KeyValueDeserializer) :
    shape.fieldsLoop deserialize (fuel + 1) given d =
      (shape.nextField deserialize given d >>= fun r =>
        match r.1 with
        | none => .ok (given, r.2)
        | some given' => shape.fieldsLoop deserialize fuel given' r.2) := rfl

lemma readFields_eq (given : shape.Given) (d : KeyValueDeserializer) :
    shape.readFields deserialize given d =
      (shape.nextField deserialize given d >>= fun r =>
        match r.1 with
        | none => .ok (given, r.2)
        | some given' => shape.fieldsLoop deserialize (2 * d.input.length + 1) given' r.2) := rfl

/-- The fields take a piece of the front. -/
lemma fieldsLoop_takes (hreads : ∀ i, Reads (deserialize i)) :
    ∀ (fuel : Nat) {given all : shape.Given} {d d' : KeyValueDeserializer},
      d.topStructParsed = true → shape.fieldsLoop deserialize fuel given d = .ok (all, d') →
      ∃ text, Takes text d d' := by
  intro fuel
  induction fuel with
  | zero => exact fun _ h => nomatch h
  | succ fuel ih =>
    intro given all d d' htop hl
    obtain ⟨⟨next, d₁⟩, hn, h⟩ := bind_eq_ok.mp hl
    cases next with
    | none =>
      obtain ⟨rfl, -⟩ := nextField_none hn
      cases h
      exact ⟨[], .refl _⟩
    | some given' =>
      obtain ⟨d₂, s, t, hs, ht⟩ := nextField_some hreads htop hn
      obtain ⟨u, hu⟩ := ih (ht.top (hs.top htop)) h
      refine ⟨s ++ (t ++ u), ?_, fun h => hu.top (ht.top (hs.top h)), fun hnil hnone => ?_⟩
      · rw [hs.input, (ht.trans hu).input, ← append_assoc]
      · exact absurd (append_eq_nil_iff.mp hnil).1 (hs.progress hnone)

/-! ## Groups -/

lemma visitMap_eq_ok {val : Value} (h : shape.visitMap deserialize d = .ok (val, d')) :
    ∃ given, shape.readFields deserialize [] d = .ok (given, d') := by
  obtain ⟨⟨given, d₁⟩, hr, h⟩ := bind_eq_ok.mp h
  obtain ⟨v, _, h⟩ := bind_eq_ok.mp h
  cases h
  exact ⟨given, hr⟩

lemma reads_visitMap (hreads : ∀ i, Reads (deserialize i)) :
    Reads (shape.visitMap deserialize) := by
  intro d val d' htop h
  obtain ⟨given, hr⟩ := visitMap_eq_ok h
  exact fieldsLoop_takes hreads _ htop hr

lemma reads_visitEmptyMap : Reads shape.visitEmptyMap := by
  intro d val d' ht h
  unfold visitEmptyMap at h
  split at h
  · exact reads_ok _ ht h
  · cases h
  · cases h

section
variable (hreads : ∀ i, Reads (deserialize i))
include hreads

lemma reads_group {val : Value} (htop : d.topStructParsed = true) (ho : d.peekChar = some '[')
    (h : bracketed (fun d => shape.visitMap deserialize (shape.enter d)) d = .ok (val, d')) :
    ∃ text, Takes text d d' := by
  obtain ⟨d₁, hins, hc, rfl⟩ := bracketed_eq_ok h
  obtain ⟨given, hr⟩ := visitMap_eq_ok hins
  have hs := takes_skipChar ho
  have hs' := takes_skipChar hc
  have hen : (shape.enter d.skipChar).topStructParsed = true := htop
  obtain ⟨text, ht⟩ := fieldsLoop_takes hreads _ hen hr
  refine ⟨['['] ++ (text ++ [']']), ?_, fun _ => hs'.top (ht.top hen), nofun⟩
  have hi : d.skipChar.input = text ++ d₁.input := ht.input
  rw [hs.input, hi, hs'.input, append_assoc, append_assoc]

lemma reads_deserializeStruct : Reads (shape.deserializeStruct deserialize) := by
  intro d val d' ht h
  have hd : ({ d with topStructParsed := true } : KeyValueDeserializer) = d := by rw [← ht]
  unfold deserializeStruct at h
  rw [if_pos ht, hd] at h
  split at h
  · next ho => exact reads_group hreads ht ho h
  · exact reads_visitEmptyMap ht h

lemma reads_structVariant : Reads (shape.structVariant deserialize) := by
  intro d val d' htop h
  unfold structVariant at h
  split at h
  · next ho =>
    obtain ⟨d₁, hi, hc, rfl⟩ := bracketed_eq_ok h
    have hs := takes_skipChar ho
    have hd : ({ d.skipChar with topStructParsed := true } : KeyValueDeserializer) =
      d.skipChar := by
      rw [← hs.top htop]
    rw [hd] at hi
    obtain ⟨t, ht⟩ := reads_visitMap hreads (hs.top htop) hi
    exact ⟨_, (hs.trans ht).trans (takes_skipChar hc)⟩
  · exact reads_visitEmptyMap htop h

end

end StructShape

open KeyValueDeserializer

lemma VariantShape.reads_deserialize (v : VariantShape)
    {deserialize : Fin v.shape.arity → Deserialize Value} (h : ∀ i, Reads (deserialize i)) :
    Reads (v.deserialize deserialize) := by
  intro d val d' htop hd
  unfold VariantShape.deserialize at hd
  split at hd
  · exact reads_ok _ htop hd
  · cases hd
  · have ht : ∀ p ∈ ofFn deserialize, Reads p := by
      intro p hp
      obtain ⟨i, rfl⟩ := (mem_ofFn' _ _).mp hp
      exact h i
    exact (reads_visitTuple ht).deserializeSeq.visit _ htop hd
  · exact StructShape.reads_structVariant h htop hd

lemma EnumShape.reads_deserializeEnum (shape : EnumShape)
    {deserialize : (i : Fin shape.count) → Fin (shape.variant i).shape.arity → Deserialize Value}
    (h : ∀ i j, Reads (deserialize i j)) : Reads (shape.deserializeEnum deserialize) := by
  refine reads_deserializeIdentifier.bind fun name d val d' ht hd => ?_
  dsimp only at hd
  split at hd
  · cases hd
  · next i _ => exact ((shape.variant i).reads_deserialize (h i)).visit _ ht hd

/-- Every type takes a piece of the front of the input, by induction on the type. -/
lemma Ty.reads_deserialize (t : Ty) : Reads t.deserialize := by
  induction t with
  | bool => exact reads_deserializeBool.visit _
  | int t => exact (reads_parseNumber t).visit _
  | char => exact reads_deserializeChar.visit _
  | string => exact reads_parseString.visit _
  | unit => exact reads_ok _
  | option t ih => exact ih.visit _
  | convert t check ih =>
    refine ih.bind fun a d val d' ht hd => ?_
    dsimp only at hd
    split at hd
    · exact reads_ok _ ht hd
    · cases hd
  | seq t ih => exact ih.visitSeq.deserializeSeq.visit _
  | tuple len t ih =>
    refine (reads_visitTuple ?_).deserializeSeq.visit _
    intro p hp
    obtain ⟨i, rfl⟩ := (mem_ofFn' _ _).mp hp
    exact ih i
  | struct shape t ih => exact StructShape.reads_deserializeStruct ih
  | enum shape t ih => exact shape.reads_deserializeEnum ih

end GunyahVmm.KeyValues
