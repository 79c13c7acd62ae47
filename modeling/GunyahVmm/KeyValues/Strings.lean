import GunyahVmm.KeyValues.Deserializer

/-! Texts that stand for a string: in double quotes with escapes, in single quotes, or without
quotes. -/

namespace GunyahVmm.KeyValues
open Run Outcome List

def escape (s : List Char) : List Char :=
  s.flatMap fun c => if c = '"' ∨ c = '\\' then ['\\', c] else [c]

lemma unescape_escape (s rest : List Char) :
    unescape (escape s ++ '"' :: rest) = some (s, rest) := by
  induction s with
  | nil => rfl
  | cons c s ih =>
    rw [escape, flatMap_cons, append_assoc, ← escape]
    by_cases hquote : c = '"'
    · subst hquote
      simp [unescape, ih]
    by_cases hb : c = '\\'
    · subst hb
      simp [unescape, ih]
    · rw [if_neg (by simp [hquote, hb]), singleton_append, unescape, ih]
      · rfl
      all_goals simp_all

variable {s rest : List Char}

lemma takeWhile_stop (p : Char → Bool) (hs : ∀ c ∈ s, p c)
    (hr : ∀ c ∈ rest.head?, p c = false) :
    (s ++ rest).takeWhile p = s ∧ (s ++ rest).dropWhile p = rest := by
  rw [takeWhile_append_of_pos hs, dropWhile_append_of_pos hs]
  cases rest with
  | nil => simp
  | cons c rest => simp [hr c rfl]

lemma singleQuoted_quote (hs : '\'' ∉ s) :
    singleQuoted ('\'' :: (s ++ '\'' :: rest)) = some (s, rest) := by
  obtain ⟨ht, hd⟩ := @takeWhile_stop s ('\'' :: rest) (· ≠ '\'')
    (fun c hc => decide_eq_true fun heq => hs (heq ▸ hc)) (by simp)
  rw [singleQuoted, hd, ht]

lemma anyString_eq_takeWhile1 (h : ∀ c ∈ s.head?, c ≠ '"' ∧ c ≠ '\'') :
    anyString s = takeWhile1 isUnquoted s := by
  cases s with
  | nil => rfl
  | cons c s =>
    obtain ⟨hdouble, hsingle⟩ := h c rfl
    rw [anyString, doubleQuoted, singleQuoted]
    · rfl
    all_goals simp_all

lemma anyString_unquoted (hne : s ≠ []) (hs : ∀ c ∈ s, isUnquoted c = true)
    (hr : isSeparator rest.head? = true) : anyString (s ++ rest) = some (s, rest) := by
  obtain ⟨ht, hd⟩ := @takeWhile_stop s rest isUnquoted hs (by
    intro c hc
    rw [hc, isSeparator, Bool.or_eq_true] at hr
    rcases hr with h | h <;> rw [of_decide_eq_true h] <;> rfl)
  rw [anyString_eq_takeWhile1, takeWhile1, ht, hd, if_neg (by simpa using hne)]
  obtain ⟨c, t, rfl⟩ := exists_cons_of_ne_nil hne
  rintro _ ⟨⟩
  have hc := hs c mem_cons_self
  unfold isUnquoted at hc
  simp_all

namespace KeyValueDeserializer

lemma parseString_of_anyString {d : KeyValueDeserializer} (h : anyString d.input = some (s, rest))
    (hr : isSeparator rest.head? = true) : parseString d = .ok (s, { d with input := rest }) := by
  rw [parseString, parse, h, ok_bind]
  exact if_pos hr

/-- **Strings.** A text in front of a separator is read back: any string in double quotes with
its escapes, one without single quotes in single quotes, and one of plain characters as it is. -/
theorem parseString_reads_back (s : List Char) {rest : List Char} (d : KeyValueDeserializer)
    (hrest : isSeparator rest.head? = true) :
    parseString { d with input := '"' :: (escape s ++ '"' :: rest) } =
        .ok (s, { d with input := rest }) ∧
      ('\'' ∉ s → parseString { d with input := '\'' :: (s ++ '\'' :: rest) } =
        .ok (s, { d with input := rest })) ∧
      (s ≠ [] → (∀ c ∈ s, c ∉ [',', '"', '\'', '[', ']']) →
        parseString { d with input := s ++ rest } = .ok (s, { d with input := rest })) := by
  refine ⟨?_, fun hs => ?_, fun hne hs => ?_⟩
  all_goals refine parseString_of_anyString (d := { d with input := _ }) ?_ hrest
  · rw [anyString, doubleQuoted, unescape_escape]
    rfl
  · rw [anyString, doubleQuoted, singleQuoted_quote hs]
    · rfl
    · simp
  · refine anyString_unquoted hne (fun c hc => ?_) hrest
    have hplain := hs c hc
    simp only [mem_cons, not_mem_nil, or_false, not_or] at hplain
    simp [isUnquoted, hplain]

theorem parseString_reads_back_comma :
    parseString (.fromInput ['"', '\\', '"', '"', ',', 'x']) = .ok (['"'], .fromInput [',', 'x']) :=
  (@parseString_reads_back ['"'] [',', 'x'] (.fromInput []) rfl).1

end KeyValueDeserializer

end GunyahVmm.KeyValues
