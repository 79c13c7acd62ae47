import GunyahVmm.Lib.Run
import Mathlib.Algebra.GroupWithZero.Nat
import Mathlib.Algebra.Ring.Int.Defs
import Mathlib.Data.List.FinRange

/-! Serde deserializer for key-values strings (`crosvm/serde_keyvalue/src/key_values.rs`). Besides
the input it has the name of a first field that was left out, whether the last key had an `=`, and
whether the outermost structure has begun.

`Ty.deserialize` is what `#[derive(Deserialize)]` generates. A loop has two rounds more than input;
it aborts where the source goes round for ever. -/

namespace GunyahVmm.KeyValues
open Run

abbrev Ident := List Char

/-- What the generated code reports through `de::Error::custom`. -/
inductive SerdeMessage where
  | unknownField (name : Ident)
  | duplicateField (field : Nat)
  | missingField (field : Nat)
  | unknownVariant (name : Ident)
  | invalidLength (len : Nat)
  | custom (text : List Char)
  deriving DecidableEq

inductive ErrorKind where
  | eof
  | expectedBoolean
  | expectedCloseBracket
  | expectedComma
  | expectedEqual
  | expectedIdentifier
  | expectedOpenBracket
  | expectedString
  | invalidCharInString
  | invalidNumber
  | serdeError (message : SerdeMessage)
  | trailingCharacters
  deriving DecidableEq

/-- An error keeps the input that was left when it occurred. -/
structure ParseError where
  kind : ErrorKind
  input : List Char
  deriving DecidableEq

def utf8Len (s : List Char) : Nat := (s.map Char.utf8Size).sum

def ParseError.pos (e : ParseError) (originalInput : List Char) : Nat :=
  match e.kind with
  | .serdeError _ => 0
  | _ => utf8Len originalInput - utf8Len e.input

def ParseError.custom (message : SerdeMessage) : ParseError := ⟨.serdeError message, []⟩

/-! ## Parsers of the parts -/

def isSeparator : Option Char → Bool
  | none => true
  | some c => c = ',' || c = ']'

/-- The inside of a double-quoted string up to its closing quote; only `"` and
`\` may be escaped. -/
def unescape : List Char → Option (List Char × List Char)
  | '"' :: s => some ([], s)
  | '\\' :: '"' :: s => (unescape s).map fun r => ('"' :: r.1, r.2)
  | '\\' :: '\\' :: s => (unescape s).map fun r => ('\\' :: r.1, r.2)
  | '\\' :: _ => none
  | c :: s => (unescape s).map fun r => (c :: r.1, r.2)
  | [] => none

def doubleQuoted : List Char → Option (List Char × List Char)
  | '"' :: s => unescape s
  | _ => none

def singleQuoted : List Char → Option (List Char × List Char)
  | '\'' :: s =>
    match s.dropWhile (· ≠ '\'') with
    | _ :: rest => some (s.takeWhile (· ≠ '\''), rest)
    | [] => none
  | _ => none

def isUnquoted (c : Char) : Bool := c ≠ ',' && c ≠ '"' && c ≠ '\'' && c ≠ '[' && c ≠ ']'

def takeWhile1 (p : Char → Bool) (s : List Char) : Option (List Char × List Char) :=
  if (s.takeWhile p).isEmpty then none else some (s.takeWhile p, s.dropWhile p)

def anyString (s : List Char) : Option (List Char × List Char) :=
  (doubleQuoted s).or ((singleQuoted s).or (takeWhile1 isUnquoted s))

structure IntType where
  signed : Bool
  bits : Nat

def IntType.min (t : IntType) : Int := if t.signed then -2 ^ (t.bits - 1) else 0

def IntType.max (t : IntType) : Int := if t.signed then 2 ^ (t.bits - 1) - 1 else 2 ^ t.bits - 1

def toDigit (radix : Nat) (c : Char) : Option Nat :=
  let digit :=
    if c.isDigit then some (c.toNat - '0'.toNat)
    else if c.isLower then some (c.toNat - 'a'.toNat + 10)
    else if c.isUpper then some (c.toNat - 'A'.toNat + 10)
    else none
  digit.filter (· < radix)

/-- The number that the digits after the sign stand for, if it fits the type. -/
def fromStrRadix (t : IntType) (negative : Bool) (digits : List Char) (radix : Nat) : Option Int :=
  if negative && !t.signed then none
  else
    ((digits.mapM (toDigit radix)).map fun ds =>
      let n : Int := ds.foldl (fun n d => n * radix + d) 0
      if negative then -n else n).filter fun n => t.min ≤ n && n ≤ t.max

def radixPrefix : List Char → Nat × List Char
  | '0' :: 'x' :: s => (16, s)
  | '0' :: 'o' :: s => (8, s)
  | '0' :: 'b' :: s => (2, s)
  | s => (10, s)

def signPrefix : List Char → Bool × List Char
  | '-' :: s => (true, s)
  | s => (false, s)

def anyNumber (t : IntType) (s : List Char) : Option (Int × List Char) :=
  let (negative, s) := signPrefix s
  let (radix, s) := radixPrefix s
  (takeWhile1 Char.isAlphanum s).bind fun (digits, rest) =>
    if isSeparator rest.head? then (fromStrRadix t negative digits radix).map (·, rest) else none

def anyBool : List Char → Option (Bool × List Char)
  | 't' :: 'r' :: 'u' :: 'e' :: s => some (true, s)
  | 'f' :: 'a' :: 'l' :: 's' :: 'e' :: s => some (false, s)
  | _ => none

def isIdentifierChar (c : Char) : Bool := c.isAlphanum || c = '_' || c = '-'

def anyIdentifier : List Char → Option (Ident × List Char)
  | c :: s =>
    if c.isAlphanum || c = '_' then
      some (c :: s.takeWhile isIdentifierChar, s.dropWhile isIdentifierChar)
    else none
  | [] => none

/-! ## The deserializer -/

structure KeyValueDeserializer where
  input : List Char
  /-- If set, the next identifier is this one and none is parsed. -/
  nextIdentifier : Option Ident
  /-- Whether the `=` sign has been parsed after a key. -/
  hasEqual : Bool
  /-- Whether the top structure has been parsed yet or not. -/
  topStructParsed : Bool
  deriving DecidableEq

/-- What the deserializer gives for a type whose values are `α`. -/
abbrev Deserialize (α : Type) : Type :=
  KeyValueDeserializer → Outcome ParseError (α × KeyValueDeserializer)

namespace KeyValueDeserializer
variable {α β κ : Type}

def fromInput (input : List Char) : KeyValueDeserializer :=
  { input, nextIdentifier := none, hasEqual := false, topStructParsed := false }

def errorHere (d : KeyValueDeserializer) (kind : ErrorKind) : ParseError := ⟨kind, d.input⟩

def peekChar (d : KeyValueDeserializer) : Option Char := d.input.head?

def skipChar (d : KeyValueDeserializer) : KeyValueDeserializer := { d with input := d.input.tail }

/-- Go on with what a parser gives, or fail with `kind`. -/
def parse (kind : ErrorKind) (parser : List Char → Option (α × List Char)) : Deserialize α :=
  fun d =>
    match parser d.input with
    | some (a, rest) => .ok (a, { d with input := rest })
    | none => .err (d.errorHere kind)

/-- A visitor that makes its value of what was read. -/
def visit (make : α → β) (deserialize : Deserialize α) : Deserialize β := fun d => do
  let (val, d) ← deserialize d
  .ok (make val, d)

def confirmSeparator : Deserialize Unit := fun d =>
  match d.peekChar with
  | none => .ok ((), d)
  | some c =>
    if c = ',' then .ok ((), d.skipChar)
    else if c = ']' then .ok ((), d)
    else .err (d.errorHere .expectedComma)

def parseIdentifier : Deserialize Ident := parse .expectedIdentifier anyIdentifier

/-- What follows a string is a separator; anything else should have been quoted. -/
def parseString : Deserialize (List Char) := fun d => do
  let (s, d) ← parse .expectedString anyString d
  if isSeparator d.peekChar then .ok (s, d) else .err (d.errorHere .invalidCharInString)

def parseBool : Deserialize Bool := parse .expectedBoolean anyBool

def parseNumber (t : IntType) : Deserialize Int := parse .invalidNumber (anyNumber t)

def finish (d : KeyValueDeserializer) : Outcome ParseError Unit :=
  if d.input.isEmpty then .ok () else .err (d.errorHere .trailingCharacters)

def deserializeIdentifier : Deserialize Ident := fun d =>
  match d.nextIdentifier with
  | some name => .ok (name, { d with nextIdentifier := none })
  | none => parseIdentifier d

/-- `MapAccess::next_key_seed`. At the end of the input or of a group the kept name stays. -/
def nextKeySeed (visit : Ident → Outcome ParseError κ) : Deserialize (Option κ) := fun d =>
  if d.peekChar = none ∨ d.peekChar = some ']' then .ok (none, d)
  else do
    let (name, d₁) ← deserializeIdentifier { d with hasEqual := false }
    let key ← visit name
    if d.nextIdentifier.isSome then .ok (some key, { d₁ with hasEqual := true })
    else if d₁.peekChar = some '=' then .ok (some key, { d₁.skipChar with hasEqual := true })
    else if isSeparator d₁.peekChar then .ok (some key, d₁)
    else .err (d₁.errorHere .expectedEqual)

def nextValueSeed (deserialize : Deserialize α) : Deserialize α := fun d => do
  let (val, d) ← deserialize d
  let (_, d) ← confirmSeparator d
  .ok (val, d)

def nextElementSeed (deserialize : Deserialize α) : Deserialize (Option α) := fun d =>
  if d.peekChar = some ']' then .ok (none, d) else visit some (nextValueSeed deserialize) d

def deserializeBool : Deserialize Bool := fun d =>
  if d.hasEqual then parseBool d else .ok (true, d)

def deserializeChar : Deserialize Char := fun d =>
  match d.peekChar with
  | some c => .ok (c, d.skipChar)
  | none => .err (d.errorHere .eof)

/-- What is between brackets; the opening one is next. -/
def bracketed (inside : Deserialize α) : Deserialize α := fun d => do
  let (val, d) ← inside d.skipChar
  if d.peekChar = some ']' then .ok (val, d.skipChar)
  else .err (d.errorHere .expectedCloseBracket)

/-- A sequence has no members of its own, so without brackets it is not accepted. -/
def deserializeSeq (visitSeq : Deserialize α) : Deserialize α := fun d =>
  if d.peekChar = some '[' then bracketed visitSeq d
  else .err (d.errorHere .expectedOpenBracket)

/-- The rounds that a loop over the input may need. -/
def rounds (d : KeyValueDeserializer) : Nat := 2 * d.input.length + 2

/-- The elements up to the closing bracket. -/
def visitSeqLoop (deserialize : Deserialize α) : Nat → Deserialize (List α)
  | 0, _ => .panic
  | fuel + 1, d => do
    let (element, d) ← nextElementSeed deserialize d
    match element with
    | none => .ok ([], d)
    | some val =>
      let (vals, d) ← visitSeqLoop deserialize fuel d
      .ok (val :: vals, d)

/-- `Visitor::visit_seq` of a type with any number of elements. -/
def visitSeq (deserialize : Deserialize α) : Deserialize (List α) := fun d =>
  visitSeqLoop deserialize d.rounds d

/-- `Visitor::visit_seq` of a tuple: one element for each of its types. -/
def visitTuple : List (Deserialize α) → Nat → Deserialize (List α)
  | [], _, d => .ok ([], d)
  | deserialize :: more, len, d => do
    let (element, d) ← nextElementSeed deserialize d
    match element with
    | none => .err (.custom (.invalidLength len))
    | some val =>
      let (vals, d) ← visitTuple more (len + 1) d
      .ok (val :: vals, d)

/-- `deserialize_any` for a visitor that ignores it; `depth` bounds the brackets. -/
def ignoredAnyLoop : Nat → Deserialize Unit
  | 0, _ => .panic
  | depth + 1, d =>
    if isSeparator d.peekChar then visit (fun _ => ()) deserializeBool d
    else if d.peekChar = some '[' then
      visit (fun _ => ()) (deserializeSeq (visitSeq (ignoredAnyLoop depth))) d
    else if (anyNumber ⟨true, 64⟩ d.input).isSome then
      visit (fun _ => ()) (parseNumber ⟨true, 64⟩) d
    else if (anyNumber ⟨false, 64⟩ d.input).isSome then
      visit (fun _ => ()) (parseNumber ⟨false, 64⟩) d
    else if (anyBool d.input).isSome then visit (fun _ => ()) deserializeBool d
    else visit (fun _ => ()) parseString d

def deserializeIgnoredAny : Deserialize Unit := fun d => ignoredAnyLoop d.rounds d

end KeyValueDeserializer

/-! ## Values and types -/

/-- A value of any type; a sequence or a record is `nil` and `cons` of its
elements or fields. -/
inductive Value where
  | bool (b : Bool)
  | int (n : Int)
  | char (c : Char)
  | str (s : List Char)
  | unit
  | some (v : Value)
  | nil
  | cons (head tail : Value)
  | variant (index : Nat) (v : Value)
  deriving DecidableEq

def Value.ofList (l : List Value) : Value := l.foldr .cons .nil

/-- The fields of a struct or of a struct variant, without their types. -/
structure StructShape where
  arity : Nat
  fields : List Ident
  /-- The field that a name stands for, aliases included. -/
  visitStr : Ident → Option (Fin arity)
  /-- The value of a field that is not given, if it may be left out. -/
  missing : Fin arity → Option Value
  denyUnknownFields : Bool

inductive VariantKind where
  | unit
  | newtype
  | tuple
  | struct

structure VariantShape where
  kind : VariantKind
  shape : StructShape

structure EnumShape where
  count : Nat
  visitStr : Ident → Option (Fin count)
  variant : Fin count → VariantShape

/-- The types whose values can be read. `convert` is read as another type and then checked. -/
inductive Ty where
  | bool
  | int (t : IntType)
  | char
  | string
  | unit
  | option (t : Ty)
  | convert (t : Ty) (check : Value → Except (List Char) Value)
  | seq (t : Ty)
  | tuple (len : Nat) (t : Fin len → Ty)
  | struct (shape : StructShape) (t : Fin shape.arity → Ty)
  | enum (shape : EnumShape) (t : (i : Fin shape.count) → Fin (shape.variant i).shape.arity → Ty)

/-! ## Structs -/

namespace StructShape
open KeyValueDeserializer
variable (shape : StructShape) (deserialize : Fin shape.arity → Deserialize Value)

/-- The fields that were given, in the order of the input. -/
abbrev Given : Type := List (Fin shape.arity × Value)

/-- The field of a key, `none` for one that is ignored. -/
def visitField (name : Ident) : Outcome ParseError (Option (Fin shape.arity)) :=
  match shape.visitStr name with
  | some i => .ok (some i)
  | none => if shape.denyUnknownFields then .err (.custom (.unknownField name)) else .ok none

/-- One round of `visit_map`: a key and its value, `none` at the end. -/
def nextField (given : shape.Given) : Deserialize (Option shape.Given) := fun d => do
  let (key, d) ← nextKeySeed shape.visitField d
  match key with
  | none => .ok (none, d)
  | some none =>
    let (_, d) ← nextValueSeed deserializeIgnoredAny d
    .ok (some given, d)
  | some (some i) =>
    if i ∈ given.map Prod.fst then .err (.custom (.duplicateField i))
    else
      let (val, d) ← nextValueSeed (deserialize i) d
      .ok (some (given ++ [(i, val)]), d)

def fieldsLoop : Nat → shape.Given → Deserialize shape.Given
  | 0, _, _ => .panic
  | fuel + 1, given, d => do
    let (next, d) ← shape.nextField deserialize given d
    match next with
    | none => .ok (given, d)
    | some given => fieldsLoop fuel given d

/-- The fields up to the end of the input or of the group. -/
def readFields (given : shape.Given) : Deserialize shape.Given := fun d =>
  shape.fieldsLoop deserialize d.rounds given d

def fieldValue (given : shape.Given) (i : Fin shape.arity) : Outcome ParseError Value :=
  match given.lookup i with
  | some val => .ok val
  | none =>
    match shape.missing i with
    | some val => .ok val
    | none => .err (.custom (.missingField i))

/-- The struct with the fields that were given and the defaults of the others. -/
def build (given : shape.Given) : Outcome ParseError Value :=
  ((List.finRange shape.arity).mapM (shape.fieldValue given)).bind fun l => .ok (.ofList l)

def visitMap : Deserialize Value := fun d => do
  let (given, d) ← shape.readFields deserialize [] d
  let val ← shape.build given
  .ok (val, d)

/-- `Visitor::visit_map` for a map with no members, when no bracket is there. -/
def visitEmptyMap : Deserialize Value := fun d =>
  match shape.build [] with
  | .ok val => .ok (val, d)
  | .err _ => .err (d.errorHere .expectedOpenBracket)
  | .panic => .panic

/-- The name for a first value without one: the first field, unless a key or a field name is next.
-/
def firstIdentifier (input : List Char) : Option Ident :=
  match anyIdentifier input with
  | some (s, _) =>
    if input[s.length]? = some '=' then none
    else if s ∈ shape.fields then none
    else shape.fields.head?
  | none => shape.fields.head?

/-- The deserializer with which the fields of a struct begin. -/
def enter (d : KeyValueDeserializer) : KeyValueDeserializer :=
  { d with nextIdentifier := shape.firstIdentifier d.input }

def deserializeStruct : Deserialize Value := fun d₀ =>
  let d := { d₀ with topStructParsed := true }
  if d₀.topStructParsed then
    if d.peekChar = some '[' then
      bracketed (fun d => shape.visitMap deserialize (shape.enter d)) d
    else shape.visitEmptyMap d
  else shape.visitMap deserialize (shape.enter d)

def structVariant : Deserialize Value := fun d =>
  if d.peekChar = some '[' then
    bracketed (fun d => shape.visitMap deserialize { d with topStructParsed := true }) d
  else shape.visitEmptyMap d

/-- The deserializer with which the fields of the top structure begin. -/
def start (input : List Char) : KeyValueDeserializer :=
  shape.enter { fromInput input with topStructParsed := true }

end StructShape

/-! ## Enums -/

namespace VariantShape
open KeyValueDeserializer

def deserialize (v : VariantShape) (deserialize : Fin v.shape.arity → Deserialize Value) :
    Deserialize Value := fun d =>
  match v.kind with
  | .unit => .ok (.unit, d)
  | .newtype => .panic
  | .tuple => visit .ofList (deserializeSeq (visitTuple (List.ofFn deserialize) 0)) d
  | .struct => v.shape.structVariant deserialize d

end VariantShape

namespace EnumShape
open KeyValueDeserializer

def deserializeEnum (shape : EnumShape)
    (deserialize : (i : Fin shape.count) → Fin (shape.variant i).shape.arity → Deserialize Value) :
    Deserialize Value := fun d => do
  let (name, d) ← deserializeIdentifier d
  match shape.visitStr name with
  | none => .err (.custom (.unknownVariant name))
  | some i =>
    visit (.variant i) ((shape.variant i).deserialize (deserialize i)) d

end EnumShape

/-! ## All types -/

open KeyValueDeserializer in
def Ty.deserialize : Ty → Deserialize Value
  | .bool => visit .bool deserializeBool
  | .int t => visit .int (parseNumber t)
  | .char => visit .char deserializeChar
  | .string => visit .str parseString
  | .unit => fun d => .ok (.unit, d)
  | .option t => visit .some t.deserialize
  | .convert t check => fun d => do
      let (val, d) ← t.deserialize d
      match check val with
      | .ok val => .ok (val, d)
      | .error text => .err (.custom (.custom text))
  | .seq t => visit .ofList (deserializeSeq (visitSeq t.deserialize))
  | .tuple _ t =>
      visit .ofList (deserializeSeq (visitTuple (List.ofFn fun i => (t i).deserialize) 0))
  | .struct shape t => shape.deserializeStruct fun i => (t i).deserialize
  | .enum shape t => shape.deserializeEnum fun i j => (t i j).deserialize

def fromKeyValues (t : Ty) (input : List Char) : Outcome ParseError Value := do
  let (ret, d) ← t.deserialize (.fromInput input)
  d.finish
  .ok ret

end GunyahVmm.KeyValues
