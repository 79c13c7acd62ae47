import GunyahVmm.Lib.PathComponents
import GunyahVmm.VirtioFs.AppendPath

/-! The character machine against lists of components. It has written those kept and what it has
read of the current one; its state tells dots from the rest. -/

namespace GunyahVmm.VirtioFs
open Run PathComponents Run.Outcome List

/-- The output with the text `t` before the position and `rest` behind it. -/
def written (t rest : List Char8) (escaped : Bool) : ParserOutput := ⟨t ++ rest, t.length, escaped⟩

/-- The state of the machine once `cur` was read since the last slash. -/
def stateOf (cur : List Char8) : ParserState :=
  if cur = [] then .slash
  else if cur = [dot] then .dot
  else if cur = [dot, dot] then .dotDot
  else .normal

variable {size : Nat} {t rest cur : List Char8} {escaped : Bool} {r : Resolved Char8}

/-! ## The primitives on a written text -/

variable {c : Char8} {s lhs k buffer : List Char8} {rhs : List Char16}

lemma parserCopy_written (t rest : List Char8) (escaped : Bool) (x c : Char8)
    (h : t.length < size) :
    parserCopy (written t (x :: rest) escaped) size c = .ok (written (t ++ [c]) rest escaped) := by
  simp [parserCopy, written, assert, writeAt, h]

lemma parserStripSlash_written (t rest : List Char8) (escaped : Bool) :
    parserStripSlash (written (t ++ [slash]) rest escaped) =
      .ok (if t = [] then written [slash] rest escaped
        else written t (slash :: rest) escaped) := by
  cases t <;> simp [parserStripSlash, written, assert, readAt, Outcome.expect]

lemma parserRewindDot_written :
    parserRewindDot (written (t ++ [slash, dot]) rest escaped) =
      .ok (written (t ++ [slash]) (dot :: rest) escaped) := by
  simp [parserRewindDot, written, assert, readAt, Outcome.expect]

lemma scanSlash_component (t rest : List Char8) (hk : slash ∉ k) :
    scanSlash (t ++ slash :: (k ++ rest)) (t.length + 1 + k.length) = .ok t.length := by
  induction k using reverseRecOn generalizing rest with
  | nil => simp [scanSlash, readAt, Outcome.expect]
  | append_singleton k c ih =>
    have hc : c ≠ slash := fun h => hk (by simp [h])
    have hr : (t ++ slash :: (k ++ [c] ++ rest))[t.length + 1 + k.length]? = some c := by
      have hs : t ++ slash :: (k ++ [c] ++ rest) = (t ++ slash :: k) ++ c :: rest := by simp
      have hl : t.length + 1 + k.length = (t ++ slash :: k).length := by
        simp only [length_append, length_cons]
        omega
      rw [hs, hl]
      simp
    have hi : t.length + 1 + (k ++ [c]).length = t.length + 1 + k.length + 1 := by
      simp only [length_append, length_singleton]
      omega
    rw [hi, scanSlash, readAt, hr]
    simp only [Outcome.expect, ok_bind, if_neg hc]
    have hrs : k ++ [c] ++ rest = k ++ (c :: rest) := by simp
    rw [hrs]
    exact ih (c :: rest) fun h => hk (mem_append_left _ h)

lemma parserRewindDotDot_root :
    parserRewindDotDot (written [slash, dot, dot] rest escaped) =
      .ok (written [slash] (dot :: dot :: rest) true) := by
  simp [parserRewindDotDot, written, assert, readAt, Outcome.expect]

lemma parserRewindDotDot_component (t rest : List Char8) (escaped : Bool) (hk : slash ∉ k) :
    parserRewindDotDot (written (t ++ [slash] ++ k ++ [slash, dot, dot]) rest escaped) =
      .ok (written (t ++ [slash]) (k ++ slash :: dot :: dot :: rest) escaped) := by
  have hs := scanSlash_component t (slash :: dot :: dot :: rest) hk
  have hb : t ++ [slash] ++ k ++ [slash, dot, dot] ++ rest =
      t ++ slash :: (k ++ slash :: dot :: dot :: rest) := by simp
  have hp : (t ++ [slash] ++ k).length = t.length + 1 + k.length := by
    simp only [length_append, length_singleton]
  generalize hu : t ++ [slash] ++ k = u at hb hp
  have hne : u.length ≠ 0 := by omega
  rw [← hb, ← hp] at hs
  simp only [append_assoc, cons_append, nil_append] at hs
  simp [parserRewindDotDot, written, assert, readAt, Outcome.expect, hne, hs]
  rw [← hu]
  simp

/-! ## One character -/

lemma directoryText_ends (kept : List (List Char8)) :
    ∃ t, directoryText slash kept = t ++ [slash] ∧ (t = [] ↔ kept = []) := by
  rcases eq_nil_or_concat' kept with rfl | ⟨init, c, rfl⟩
  · exact ⟨[], rfl, by simp⟩
  · exact ⟨directoryText slash init ++ c, directoryText_concat slash init c,
      by simp [directoryText]⟩

/-- The three components that mean something else than their name. -/
def special (cur : List Char8) : Prop := cur = [] ∨ cur = [dot] ∨ cur = [dot, dot]

lemma stateOf_normal (h : ¬ special cur) : stateOf cur = .normal := by
  simp only [special, not_or] at h
  simp [stateOf, h]

lemma stateOf_ne_ended (cur : List Char8) : stateOf cur ≠ .ended := by
  unfold stateOf
  split_ifs <;> decide

lemma not_special_concat (h : ¬ special cur) : ¬ special (cur ++ [c]) := by
  simp only [special, not_or] at h ⊢
  refine ⟨by simp, ?_, ?_⟩
  all_goals intro heq
  · have hl := congrArg length heq
    simp only [length_append, length_singleton] at hl
    exact h.1 (length_eq_zero_iff.mp (by omega))
  · have hs : cur ++ [c] = [dot] ++ [dot] := heq
    exact h.2.1 (append_inj_left' hs rfl)

lemma parserStep_char (t cur rest : List Char8) (escaped : Bool) (x : Char8) (h0 : c ≠ 0#8)
    (hsl : c ≠ slash) (hr : (t ++ cur).length < size) :
    parserStep size (stateOf cur) (written (t ++ cur) (x :: rest) escaped) c =
      .ok (stateOf (cur ++ [c]), written (t ++ (cur ++ [c])) rest escaped) := by
  have hc := parserCopy_written (t ++ cur) rest escaped x c hr
  by_cases hs : special cur
  · rcases hs with rfl | rfl | rfl <;>
      by_cases hd : c = dot <;>
        simp [stateOf, parserStep, h0, hsl, hd] at hc ⊢ <;> simp [hc]
  · rw [stateOf_normal hs, stateOf_normal (not_special_concat hs)]
    simp [parserStep, h0, hsl, hc]

lemma resolve_of_not_special (h : ¬ special cur) :
    resolve dot r cur = { r with kept := r.kept ++ [cur] } := by
  simp only [special, not_or] at h
  simp [resolve, h]

lemma parserStep_slash (hr : ∀ c ∈ r.kept, Plain slash dot c) (hne : rest ≠ [])
    (hs : (directoryText slash r.kept ++ cur).length + rest.length = size) :
    ∃ rest', (directoryText slash (resolve dot r cur).kept).length + rest'.length = size ∧
      rest.length ≤ rest'.length + 1 ∧
      parserStep size (stateOf cur) (written (directoryText slash r.kept ++ cur) rest r.escaped)
          slash =
        .ok (.slash, written (directoryText slash (resolve dot r cur).kept) rest'
          (resolve dot r cur).escaped) := by
  obtain ⟨kept, escaped⟩ := r
  dsimp only at hr hs ⊢
  by_cases hsp : special cur
  · rcases hsp with rfl | rfl | rfl
    · refine ⟨rest, ?_, Nat.le_succ _, ?_⟩
      · simpa [resolve] using hs
      · simp [resolve, stateOf, parserStep]
    · obtain ⟨t, ht, -⟩ := directoryText_ends kept
      refine ⟨dot :: rest, ?_, by simp only [length_cons]; omega, ?_⟩
      · simp only [resolve, or_true, if_true, length_cons]
        rw [length_append, length_singleton] at hs
        omega
      · simp [resolve, stateOf, parserStep, ht, parserRewindDot_written]
    · rcases eq_nil_or_concat' kept with rfl | ⟨init, k, rfl⟩
      · refine ⟨dot :: dot :: rest, ?_, by simp only [length_cons]; omega, ?_⟩
        · simp [resolve] at hs ⊢
          omega
        · simp [resolve, stateOf, parserStep, parserRewindDotDot_root]
      · obtain ⟨t, ht, -⟩ := directoryText_ends init
        have hk : slash ∉ k := (hr k (by simp)).sep_notMem
        have hrw := parserRewindDotDot_component t rest escaped hk
        refine ⟨k ++ slash :: dot :: dot :: rest, ?_, ?_, ?_⟩
        · simp [resolve, directoryText_concat, ht] at hs ⊢
          omega
        · simp only [length_append, length_cons]
          omega
        · simp [resolve, stateOf, parserStep, directoryText_concat, ht] at hrw ⊢
          simp [hrw]
  · obtain ⟨x, rest, rfl⟩ := exists_cons_of_ne_nil hne
    have hrm : (directoryText slash kept ++ cur).length < size := by
      rw [length_cons] at hs
      omega
    refine ⟨rest, ?_, Nat.le_refl _, ?_⟩
    · rw [resolve_of_not_special hsp]
      dsimp only
      rw [directoryText_concat, length_append, length_singleton]
      rw [length_cons] at hs
      omega
    · rw [stateOf_normal hsp, resolve_of_not_special hsp]
      simp [parserStep, directoryText_concat, parserCopy_written _ rest escaped x slash hrm]

/-- Once the current component is resolved, the last slash is stripped unless it stands for
the root. -/
lemma close_directory {kept : List (List Char8)} (h2 : 2 ≤ size)
    (hs : (directoryText slash kept).length + rest.length = size) :
    ∃ rest', (pathText slash kept).length + 1 + rest'.length = size ∧
      (parserStripSlash (written (directoryText slash kept) rest escaped) >>= fun o =>
          parserCopy o size 0#8) =
        .ok (written (pathText slash kept ++ [0#8]) rest' escaped) := by
  by_cases hr : kept = []
  · subst hr
    rw [directoryText_nil, length_singleton] at hs
    obtain ⟨x, rest, rfl⟩ := exists_cons_of_length_pos (l := rest) (by omega)
    refine ⟨rest, ?_, ?_⟩
    · rw [length_cons] at hs
      simp only [pathText, length_singleton]
      omega
    · have hst := parserStripSlash_written [] (x :: rest) escaped
      rw [nil_append, if_pos rfl] at hst
      exact parserCopy_written [slash] rest escaped x 0#8 (by rw [length_singleton]; omega)
  · rw [directoryText_eq hr] at hs ⊢
    rw [length_append, length_singleton] at hs
    have hne : pathText slash kept ≠ [] := by
      intro h
      have hh := pathText_head? slash kept
      rw [h] at hh
      cases hh
    refine ⟨rest, hs, ?_⟩
    rw [parserStripSlash_written, if_neg hne, ok_bind]
    exact parserCopy_written _ rest escaped slash 0#8 (by omega)

/-- At a null the machine does what it does at a slash, and then closes the path. -/
lemma parserStep_null_of_slash {state : ParserState} {o o' : ParserOutput}
    (hst : state = .slash ∨ state = .dot ∨ state = .dotDot)
    (h : parserStep size state o slash = .ok (.slash, o')) :
    parserStep size state o 0#8 =
      parserStripSlash o' >>= fun o => parserCopy o size 0#8 >>= fun o => .ok (.ended, o) := by
  have hr {x : Outcome EfiStatus ParserOutput}
      (hx : (x >>= fun o => .ok (ParserState.slash, o)) = .ok (.slash, o')) : x = .ok o' := by
    obtain ⟨a, ha, heq⟩ := bind_eq_ok.mp hx
    cases heq
    exact ha
  rcases hst with rfl | rfl | rfl
  all_goals simp only [parserStep, slash_ne_null, if_false, if_true] at h ⊢
  · cases h
    rfl
  · rw [hr h, ok_bind]
  · rw [hr h, ok_bind]

lemma parserStep_null (hr : ∀ c ∈ r.kept, Plain slash dot c) (hne : rest ≠ [])
    (hs : (directoryText slash r.kept ++ cur).length + rest.length = size) :
    ∃ rest', (pathText slash (resolve dot r cur).kept).length + 1 + rest'.length = size ∧
      parserStep size (stateOf cur) (written (directoryText slash r.kept ++ cur) rest r.escaped)
          0#8 =
        .ok (.ended, written (pathText slash (resolve dot r cur).kept ++ [0#8]) rest'
          (resolve dot r cur).escaped) := by
  obtain ⟨x, rest, rfl⟩ := exists_cons_of_ne_nil hne
  have hs' := hs
  rw [length_append, length_cons, directoryText, length_cons] at hs'
  by_cases hsp : special cur
  · obtain ⟨rest', hl, -, hstp⟩ := parserStep_slash hr hne hs
    obtain ⟨rest'', hl', hcl⟩ := close_directory (by omega) hl
    refine ⟨rest'', hl', ?_⟩
    have hst : stateOf cur = .slash ∨ stateOf cur = .dot ∨ stateOf cur = .dotDot := by
      rcases hsp with rfl | rfl | rfl <;> simp [stateOf]
    obtain ⟨o, hstr, hc⟩ := bind_eq_ok.mp hcl
    rw [parserStep_null_of_slash hst hstp, hstr, ok_bind, hc, ok_bind]
  · rw [resolve_of_not_special hsp, stateOf_normal hsp]
    rw [pathText_concat]
    rw [length_cons] at hs
    have hrm : (directoryText slash r.kept ++ cur).length < size := by omega
    refine ⟨rest, by omega, ?_⟩
    have hc := parserCopy_written (directoryText slash r.kept ++ cur) rest r.escaped x 0#8 hrm
    simp [parserStep, hc]

/-! ## The whole input -/

lemma parserLoop_path (tail : List Char8) (h0 : 0#8 ∉ s) (hr : ∀ c ∈ r.kept, Plain slash dot c)
    (hcur : slash ∉ cur) (hrm : s.length < rest.length)
    (hsz : (directoryText slash r.kept ++ cur).length + rest.length = size) :
    ∃ rest', (pathText slash (resolveFrom slash dot r cur s).kept).length + 1 + rest'.length =
        size ∧
      parserLoop size (s ++ 0#8 :: tail) (stateOf cur)
          (written (directoryText slash r.kept ++ cur) rest r.escaped) =
        .ok (written (pathText slash (resolveFrom slash dot r cur s).kept ++ [0#8]) rest'
          (resolveFrom slash dot r cur s).escaped) := by
  induction s generalizing r cur rest with
  | nil =>
    have hne : rest ≠ [] := length_pos_iff.mp hrm
    obtain ⟨rest', hlen, hst⟩ := parserStep_null hr hne hsz
    rw [resolveFrom_nil]
    refine ⟨rest', hlen, ?_⟩
    rw [nil_append, parserLoop, hst, ok_bind, if_pos rfl]
  | cons c s ih =>
    obtain ⟨hc, hs⟩ := ne_and_not_mem_of_not_mem_cons h0
    rw [length_cons] at hrm
    by_cases hsl : c = slash
    · subst hsl
      have hne : rest ≠ [] := length_pos_iff.mp (by omega)
      obtain ⟨rest', hlen, hle, hst⟩ := parserStep_slash hr hne hsz
      rw [← append_nil (directoryText slash (resolve dot r cur).kept)] at hlen hst
      obtain ⟨rest'', hl', hl⟩ := ih hs (resolve_plain hr hcur) not_mem_nil
        (by omega) hlen
      rw [resolveFrom_sep]
      refine ⟨rest'', hl', ?_⟩
      rw [cons_append, parserLoop, hst, ok_bind, if_neg nofun]
      exact hl
    · obtain ⟨x, rest, rfl⟩ := exists_cons_of_length_pos (l := rest) (by omega)
      rw [length_cons] at hsz hrm
      have hr' : (directoryText slash r.kept ++ cur).length < size := by omega
      have hs' : (directoryText slash r.kept ++ (cur ++ [c])).length + rest.length = size := by
        rw [← append_assoc, length_append, length_singleton]
        omega
      have hc' : slash ∉ cur ++ [c] := by simp [hcur, Ne.symm hsl]
      have hst := parserStep_char (directoryText slash r.kept) cur rest r.escaped x hc.symm hsl
        hr'
      obtain ⟨rest', hlen, hl⟩ := ih hs hr hc' (by omega) hs'
      rw [resolveFrom_char hsl]
      refine ⟨rest', hlen, ?_⟩
      rw [cons_append, parserLoop, hst, ok_bind, if_neg (stateOf_ne_ended _)]
      exact hl

/-! ## The call -/

lemma strLen_string {w : Nat} {s tail : List (BitVec w)} (h0 : 0#w ∉ s) :
    strLen (s ++ 0#w :: tail) = .ok s.length := by
  have hf : (s ++ 0#w :: tail).findIdx? (· == 0#w) = some s.length := by
    induction s with
    | nil => simp [findIdx?_cons]
    | cons c s ih =>
      obtain ⟨hc, hs⟩ := ne_and_not_mem_of_not_mem_cons h0
      simp [findIdx?_cons, ih hs, Ne.symm hc]
  rw [strLen, hf]
  rfl

/-- A pathname character of the canonical format. -/
def Printable (c : Char8) : Prop := 0x20 ≤ c.toNat ∧ c.toNat ≤ 0x7E

lemma Printable.ne_null (h : Printable c) : c ≠ 0#8 := by
  rintro rfl
  simp [Printable] at h

lemma transliterateChar_printable {c : Char16} (h : refused c = false) :
    Printable (transliterateChar c) := by
  simp only [refused, Bool.or_eq_false_iff, decide_eq_false_iff_not, BitVec.not_lt,
    BitVec.le_def] at h
  obtain ⟨⟨hl, hh⟩, -⟩ := h
  unfold transliterateChar
  split
  · simp [Printable, slash]
  simp only [Printable, BitVec.toNat_setWidth]
  simp at hl hh
  omega

lemma transliterate_string {s : List Char16} (tail : List Char16) (start : List Char8)
    (h0 : 0#16 ∉ s) (hl : buffer.length = s.length + 1) :
    transliterate (s ++ 0#16 :: tail) start.length (start ++ buffer) =
      if s.any refused then .err .unsupported
      else .ok (start ++ s.map transliterateChar ++ [0#8]) := by
  induction s generalizing start buffer with
  | nil =>
    obtain ⟨x, rfl⟩ := length_eq_one_iff.mp hl
    simp [transliterate, writeAt]
  | cons c s ih =>
    obtain ⟨hc, hs⟩ := ne_and_not_mem_of_not_mem_cons h0
    obtain ⟨x, buffer, rfl⟩ := exists_cons_of_length_eq_add_one hl
    cases hr : refused c with
    | true => simp [transliterate, Ne.symm hc, hr]
    | false =>
      have hw : writeAt (start ++ x :: buffer) start.length (transliterateChar c) =
          .ok ((start ++ [transliterateChar c]) ++ buffer) := by
        simp [writeAt]
      have hst : start.length + 1 = (start ++ [transliterateChar c]).length := by simp
      rw [cons_append, transliterate, if_neg (Ne.symm hc), hr, if_neg (by simp), hw,
        ok_bind, hst, ih _ hs (by simpa using hl)]
      simp [hr]

structure Canonical (path : List Char8) : Prop where
  absolute : path.head? = some slash
  trailing : path.getLast? = some slash → path = [slash]
  components : path ≠ [slash] → ∀ c ∈ (path.splitOn slash).tail, Plain slash dot c
  printable : ∀ c ∈ path, Printable c
  length_le : path.length ≤ virtioFsMaxPathnameLength

/-- The right hand side if it is absolute, otherwise the base directory followed by it. -/
def combinedPath (lhs : List Char8) (rhs : List Char16) : List Char8 :=
  if (rhs.map transliterateChar).head? = some slash then rhs.map transliterateChar
  else lhs ++ slash :: rhs.map transliterateChar

lemma combinedPath_printable (hl : Canonical lhs) (hr : rhs.any refused = false) :
    ∀ c ∈ combinedPath lhs rhs, Printable c := by
  have hm : ∀ c ∈ rhs.map transliterateChar, Printable c := by
    refine forall_mem_map.mpr fun a ha => transliterateChar_printable ?_
    simpa using any_eq_false.mp hr a ha
  unfold combinedPath
  split
  · exact hm
  exact forall_mem_append.mpr ⟨hl.printable, forall_mem_cons.mpr ⟨by simp [Printable, slash], hm⟩⟩

lemma combinedPath_absolute (hl : Canonical lhs) (rhs : List Char16) :
    ∃ s, combinedPath lhs rhs = slash :: s := by
  have hh : (combinedPath lhs rhs).head? = some slash := by
    unfold combinedPath
    split
    · assumption
    · rw [head?_append, hl.absolute]
      rfl
  cases hp : combinedPath lhs rhs with
  | nil => simp [hp] at hh
  | cons c s =>
    rw [hp] at hh
    exact ⟨s, by rw [Option.some.inj hh]⟩

/-- The reasons to reject a path, with the status that is returned. -/
inductive Rejected (pool : Pool) (lhs : List Char8) (rhs : List Char16) : EfiStatus → Prop where
  | empty : rhs = [] → Rejected pool lhs rhs .invalidParameter
  | tooLong : virtioFsMaxPathnameLength < rhs.length → Rejected pool lhs rhs .invalidParameter
  | character (c : Char16) : c ∈ rhs → refused c = true → Rejected pool lhs rhs .unsupported
  | noCopy : pool.allocatePool 0 (rhs.length + 1) = none → Rejected pool lhs rhs .outOfResources
  | noBuffer : (rhs.map transliterateChar).head? ≠ some slash →
      pool.allocatePool 1 (lhs.length + 1 + rhs.length + 1) = none →
      Rejected pool lhs rhs .outOfResources
  | noResult : pool.allocatePool 2 ((combinedPath lhs rhs).length + 1) = none →
      Rejected pool lhs rhs .outOfResources
  | resultTooLong :
      virtioFsMaxPathnameLength <
        (pathText slash (resolvePath slash dot (combinedPath lhs rhs)).kept).length →
      Rejected pool lhs rhs .outOfResources

lemma canonical_pathText {p : List Char8} (hp : ∀ c ∈ p, Printable c)
    (hlen : (pathText slash (resolvePath slash dot p).kept).length ≤
      virtioFsMaxPathnameLength) : Canonical (pathText slash (resolvePath slash dot p).kept) := by
  have hpl := resolvePath_plain slash dot p
  have hch := resolvePath_chars slash dot hp
  generalize (resolvePath slash dot p).kept = kept at *
  refine ⟨pathText_head? slash kept, pathText_getLast? hpl, ?_, ?_, hlen⟩
  · intro hr
    have hne : kept ≠ [] := by
      rintro rfl
      exact hr rfl
    rw [splitOn_pathText hpl hne]
    exact hpl
  · have hs : Printable slash := by simp [Printable, slash]
    cases kept with
    | nil =>
      exact forall_mem_singleton.mpr hs
    | cons k kept =>
      intro c hc
      obtain ⟨l, hl, hcl⟩ := mem_flatMap.mp hc
      exact forall_mem_cons.mpr ⟨hs, hch l hl⟩ c hcl

lemma parserLoop_absolute (h0 : 0#8 ∉ s) (hlen : buffer.length = s.length + 2) :
    ∃ rest, parserLoop (s.length + 2) (slash :: s ++ [0#8]) .init ⟨buffer, 0, false⟩ =
      .ok (written (pathText slash (resolvePath slash dot (slash :: s)).kept ++ [0#8]) rest
        (resolvePath slash dot (slash :: s)).escaped) := by
  obtain ⟨x, rest, rfl⟩ := exists_cons_of_length_eq_add_one hlen
  rw [length_cons] at hlen
  have hcp := parserCopy_written [] rest false x slash (Nat.zero_lt_succ (s.length + 1))
  have hs : parserStep (s.length + 2) .init ⟨x :: rest, 0, false⟩ slash =
      .ok (.slash, written [slash] rest false) := by
    simp only [parserStep, assert, beq_self_eq_true, if_true, ok_bind]
    rfl
  have hsz : (directoryText slash [] ++ []).length + rest.length = s.length + 2 := by
    rw [append_nil, directoryText_nil, length_singleton]
    omega
  obtain ⟨rest', -, hl⟩ := parserLoop_path (r := ⟨[], false⟩) [] h0
    (fun c hc => by cases hc) not_mem_nil (by omega) hsz
  refine ⟨rest', ?_⟩
  rw [cons_append, parserLoop, hs, ok_bind, if_neg nofun, resolvePath_eq, resolveFrom_sep]
  exact hl

lemma sanitize_absolute (pool : Pool) (h0 : 0#8 ∉ s) :
    (pool.allocatePool 2 (s.length + 2) = none ∧
        sanitize pool (slash :: s ++ [0#8]) = .err .outOfResources) ∨
      (virtioFsMaxPathnameLength <
          (pathText slash (resolvePath slash dot (slash :: s)).kept).length ∧
        sanitize pool (slash :: s ++ [0#8]) = .err .outOfResources) ∨
      ((pathText slash (resolvePath slash dot (slash :: s)).kept).length ≤
          virtioFsMaxPathnameLength ∧
        ∃ rest, sanitize pool (slash :: s ++ [0#8]) =
          .ok (pathText slash (resolvePath slash dot (slash :: s)).kept ++ 0#8 :: rest,
            (resolvePath slash dot (slash :: s)).escaped)) := by
  have hlen : (slash :: s ++ [0#8]).length = s.length + 2 := by simp
  unfold sanitize
  rw [hlen]
  cases ha : pool.allocatePool 2 (s.length + 2) with
  | none => exact .inl ⟨rfl, rfl⟩
  | some buffer =>
    refine .inr ?_
    obtain ⟨rest, hlp⟩ := parserLoop_absolute h0 (pool.length_eq _ _ _ ha)
    have hh := pathText_head? slash (resolvePath slash dot (slash :: s)).kept
    dsimp only
    rw [hlp, ok_bind]
    generalize hp : pathText slash (resolvePath slash dot (slash :: s)).kept = path at hh ⊢
    have hpos : 0 < path.length := by
      cases path with
      | nil => cases hh
      | cons c path => exact Nat.succ_pos _
    have hass : assert (decide (2 ≤ (written (path ++ [0#8]) rest
        (resolvePath slash dot (slash :: s)).escaped).position)) = .ok () := by
      simp only [assert, written, length_append, length_singleton]
      rw [if_pos (by simp; omega)]
    rw [hass, ok_bind]
    have hps : (written (path ++ [0#8]) rest
        (resolvePath slash dot (slash :: s)).escaped).position - 1 = path.length := by
      simp [written]
    rw [hps]
    by_cases hl : virtioFsMaxPathnameLength < path.length
    · exact .inl ⟨hl, if_pos hl⟩
    refine .inr ⟨Nat.le_of_not_lt hl, rest, ?_⟩
    rw [if_neg hl]
    simp [written]

lemma bufferToSanitize_combined (pool : Pool) (hl : 0#8 ∉ lhs) (hrhs : rhs ≠ [])
    (lhsRest : List Char8) :
    (((rhs.map transliterateChar).head? ≠ some slash ∧
        pool.allocatePool 1 (lhs.length + 1 + rhs.length + 1) = none) ∧
        bufferToSanitize pool (lhs ++ 0#8 :: lhsRest) (rhs.map transliterateChar ++ [0#8])
          rhs.length = .err .outOfResources) ∨
      bufferToSanitize pool (lhs ++ 0#8 :: lhsRest) (rhs.map transliterateChar ++ [0#8])
        rhs.length = .ok (combinedPath lhs rhs ++ [0#8]) := by
  obtain ⟨c, rhs, rfl⟩ := exists_cons_of_ne_nil hrhs
  have hf : readAt ((c :: rhs).map transliterateChar ++ [0#8]) 0 = .ok (transliterateChar c) := rfl
  rw [bufferToSanitize, hf, ok_bind]
  by_cases hs : transliterateChar c = slash
  · refine .inr ?_
    simp [combinedPath, hs]
  · rw [if_neg hs, strLen_string hl, ok_bind]
    cases ha : pool.allocatePool 1 (lhs.length + 1 + (c :: rhs).length + 1) with
    | none => exact .inl ⟨⟨by simpa using hs, rfl⟩, rfl⟩
    | some buffer =>
      have hb := pool.length_eq _ _ _ ha
      have hcm : combinedPath lhs (c :: rhs) =
          lhs ++ slash :: (c :: rhs).map transliterateChar := by
        simp [combinedPath, hs]
      have hm : ((c :: rhs).map transliterateChar ++ [0#8]).length = (c :: rhs).length + 1 := by
        simp
      rw [hcm, append_assoc, cons_append]
      generalize (c :: rhs).map transliterateChar ++ [0#8] = rhsPath8 at hm ⊢
      have hc : copyMem buffer 0 (lhs ++ 0#8 :: lhsRest) lhs.length =
          .ok (lhs ++ buffer.drop lhs.length) := by
        rw [copyMem, if_pos ⟨by omega, by simp⟩]
        simp
      obtain ⟨x, rest, hd⟩ := exists_cons_of_length_eq_add_one
        (l := buffer.drop lhs.length) (n := (c :: rhs).length + 1) (by simp [hb]; omega)
      have hr : rest.length = rhsPath8.length := by
        have h := congrArg length hd
        rw [length_drop, length_cons] at h
        omega
      have hw : writeAt (lhs ++ x :: rest) lhs.length slash = .ok (lhs ++ slash :: rest) := by
        simp [writeAt]
      dsimp only
      rw [hc, ok_bind, hd, hw, ok_bind, ← hm, copyMem,
        if_pos ⟨by simp; omega, Nat.le_refl _⟩]
      have hp : (lhs ++ slash :: rest).take (lhs.length + 1) = lhs ++ [slash] := by
        simp [take_append]
      have hbeh : (lhs ++ slash :: rest).drop (lhs.length + 1 + rhsPath8.length) = [] :=
        drop_eq_nil_of_le (by simp; omega)
      rw [hp, hbeh, take_length]
      simp

/-- **Canonicalization.** A path is rejected for one of the listed reasons, or the result is
the text of the components that the combined path denotes, and it is canonical. -/
theorem virtioFsAppendPath_canonical (pool : Pool) {lhs : List Char8} {rhs : List Char16}
    (hlhs : Canonical lhs) (hrhs : 0#16 ∉ rhs) (lhsRest : List Char8) (rhsRest : List Char16) :
    (∃ status, virtioFsAppendPath pool (lhs ++ 0#8 :: lhsRest) (rhs ++ 0#16 :: rhsRest) =
        .err status ∧ Rejected pool lhs rhs status) ∨
      ∃ rest, virtioFsAppendPath pool (lhs ++ 0#8 :: lhsRest) (rhs ++ 0#16 :: rhsRest) =
          .ok (pathText slash (resolvePath slash dot (combinedPath lhs rhs)).kept ++ 0#8 :: rest,
            (resolvePath slash dot (combinedPath lhs rhs)).escaped) ∧
        Canonical (pathText slash (resolvePath slash dot (combinedPath lhs rhs)).kept) := by
  unfold virtioFsAppendPath
  rw [strLen_string hrhs, ok_bind]
  by_cases hemp : rhs.length = 0
  · exact .inl ⟨_, if_pos hemp, .empty (length_eq_zero_iff.mp hemp)⟩
  rw [if_neg hemp]
  by_cases hl : virtioFsMaxPathnameLength < rhs.length
  · exact .inl ⟨_, if_pos hl, .tooLong hl⟩
  rw [if_neg hl]
  cases ha : pool.allocatePool 0 (rhs.length + 1) with
  | none => exact .inl ⟨_, rfl, .noCopy ha⟩
  | some buffer =>
    dsimp only
    have ht := transliterate_string rhsRest [] hrhs (pool.length_eq _ _ _ ha)
    rw [length_nil, nil_append, nil_append] at ht
    rw [ht]
    by_cases hr : rhs.any refused = true
    · obtain ⟨c, hc, hcr⟩ := any_eq_true.mp hr
      rw [if_pos hr]
      exact .inl ⟨_, rfl, .character c hc hcr⟩
    rw [if_neg hr, ok_bind]
    have hnl : 0#8 ∉ lhs := fun h => (hlhs.printable _ h).ne_null rfl
    rcases bufferToSanitize_combined pool hnl
        (mt length_eq_zero_iff.mpr hemp) lhsRest with
      ⟨⟨hrel, hn⟩, herr⟩ | hb
    · rw [herr]
      exact .inl ⟨_, rfl, .noBuffer hrel hn⟩
    rw [hb, ok_bind]
    have hp := combinedPath_printable hlhs (Bool.not_eq_true _ ▸ hr)
    obtain ⟨s, hs⟩ := combinedPath_absolute hlhs rhs
    rw [hs] at hp ⊢
    have h0 : 0#8 ∉ s := fun h => (hp _ (mem_cons_of_mem _ h)).ne_null rfl
    rcases sanitize_absolute pool h0 with ⟨hn, herr⟩ | ⟨hl, herr⟩ | ⟨hle, rest, hok⟩
    · exact .inl ⟨_, herr, .noResult (by rw [hs]; exact hn)⟩
    · exact .inl ⟨_, herr, .resultTooLong (by rw [hs]; exact hl)⟩
    · exact .inr ⟨rest, hok, canonical_pathText hp hle⟩

/-- A pool that always has memory, cleared. -/
def zeroPool : Pool where
  allocatePool := fun _ size => some (List.replicate size 0#8)
  length_eq := by
    rintro n size buffer h
    cases h
    exact List.length_replicate

lemma canonical_root : Canonical [slash] where
  absolute := rfl
  trailing := fun _ => rfl
  components := fun h => absurd rfl h
  printable := forall_mem_singleton.mpr (by simp [Printable, slash])
  length_le := by decide

/-- `..\\a\\.\\b`. -/
def climbingPath : List Char16 :=
  [0x2E#16, 0x2E#16, 0x5C#16, 0x61#16, 0x5C#16, 0x2E#16, 0x5C#16, 0x62#16]

theorem virtioFsAppendPath_canonical_climbing :
    0#16 ∉ climbingPath ∧
      ((∃ status, virtioFsAppendPath zeroPool ([slash] ++ [0#8]) (climbingPath ++ [0#16]) =
          .err status ∧ Rejected zeroPool [slash] climbingPath status) ∨
        ∃ rest, virtioFsAppendPath zeroPool ([slash] ++ [0#8]) (climbingPath ++ [0#16]) =
          .ok ([slash, 0x61#8, slash, 0x62#8] ++ 0#8 :: rest, true) ∧
          Canonical [slash, 0x61#8, slash, 0x62#8]) :=
  ⟨by decide, virtioFsAppendPath_canonical zeroPool canonical_root (by decide) [] []⟩

end GunyahVmm.VirtioFs
