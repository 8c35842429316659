import Keyring.Json.Token

/-!
# Reading JSON values

Readers take tokens from the front and stop at the first problem. A record is described by its
fields and read from an object, or from an array that gives the fields in their order.

* `Reader.text`, `Reader.texts`, `Reader.unsigned`, `Reader.signed` read plain values.
* `Shape.read` reads a record, `Reader.parse` a whole text.
-/

namespace Keyring.Json

/-! ## Problems -/

/-- Why a text is refused; `ρ` holds the reasons that lie in the meaning of a value. -/
inductive Error (ρ : Type) where
  | ended
  | malformed
  | invalidType
  | invalidValue
  | invalidLength
  | unknownField
  | missingField (name : String)
  | duplicateField (name : String)
  | refused (reason : ρ)
  deriving DecidableEq, Repr

variable {ρ σ α β : Type}

def Flaw.error : Flaw → Error ρ
  | .ended => .ended
  | .malformed => .malformed

/-- The problem of finding a token where a value of another type has to stand. -/
def Token.mismatch : Token → Error ρ
  | .null | .bool _ | .text _ | .opening _ => .invalidType
  | .number .tooLarge => .malformed
  | .number _ => .invalidType
  | .brokenText flaw | .broken flaw => flaw.error
  | .closing _ | .comma | .colon | .looseText | .junk => .malformed

/-! ## Plain values -/

/-- Takes a value from the front of the tokens. -/
def Reader (ρ α : Type) := List Token → Except (Error ρ) (α × List Token)

namespace Reader

def map (f : α → β) (read : Reader ρ α) : Reader ρ β := fun ts => do
  let (a, ts) ← read ts
  pure (f a, ts)

/-- Goes on with a check of the value, which may refuse it. -/
def check (read : Reader ρ α) (f : α → Except (Error ρ) β) : Reader ρ β := fun ts => do
  let (a, ts) ← read ts
  let b ← f a
  pure (b, ts)

def text : Reader ρ String
  | .text s :: ts => .ok (s, ts)
  | t :: _ => .error t.mismatch
  | [] => .error .ended

/-- A whole number of 64 bits without sign. -/
def unsigned : Reader ρ Nat
  | .number (.natural n) :: ts => .ok (n, ts)
  | .number (.negative _) :: _ => .error .invalidValue
  | t :: _ => .error t.mismatch
  | [] => .error .ended

/-- A whole number of 64 bits with sign. -/
def signed : Reader ρ Int
  | .number (.natural n) :: ts => if n < 0x8000000000000000 then .ok (n, ts) else .error .invalidValue
  | .number (.negative n) :: ts => .ok (-n, ts)
  | t :: _ => .error t.mismatch
  | [] => .error .ended

/-- The value, or nothing for `null`. -/
def optional (read : Reader ρ α) : Reader ρ (Option α)
  | .null :: ts => .ok (none, ts)
  | ts => read.map some ts

/-- The texts of an array behind its opening bracket or one of its elements. -/
def textsRest : Bool → Reader ρ (List String)
  | _, [] => .error .ended
  | _, .closing .square :: ts => .ok ([], ts)
  | true, .text s :: ts => do
    let (ss, ts) ← textsRest false ts
    pure (s :: ss, ts)
  | true, t :: _ => .error t.mismatch
  | false, .comma :: .text s :: ts => do
    let (ss, ts) ← textsRest false ts
    pure (s :: ss, ts)
  | false, [.comma] => .error .ended
  | false, .comma :: .closing .square :: _ => .error .malformed
  | false, .comma :: t :: _ => .error t.mismatch
  | false, _ :: _ => .error .malformed

/-- An array of texts. -/
def texts : Reader ρ (List String)
  | .opening .square :: ts => textsRest true ts
  | t :: _ => .error t.mismatch
  | [] => .error .ended

def colon : List Token → Except (Error ρ) (List Token)
  | .colon :: ts => .ok ts
  | [] => .error .ended
  | _ => .error .malformed

/-- Reads a whole text: nothing may follow the value. -/
def parse (read : Reader ρ α) (bytes : Bytes) : Except (Error ρ) α := do
  let (a, ts) ← read (Token.ofBytes bytes)
  if ts.isEmpty then pure a else .error .malformed

end Reader

/-! ## Skipping -/

namespace Skip

/-- What a value that is being skipped needs next. -/
inductive Need where
  | value
  | valueOrEnd
  | key
  | keyOrEnd
  | colon
  | separator
  deriving DecidableEq

/-- The place in a value that is being skipped: its open brackets, innermost first. -/
inductive Place where
  | done
  | within (enclosing : List Bracket) (need : Need)

/-- Behind a whole value. -/
def behind : List Bracket → Place
  | [] => .done
  | enclosing => .within enclosing .separator

/-- Closes the innermost bracket. -/
def close? (b : Bracket) : List Bracket → Option Place
  | [] => none
  | top :: outer => if top = b then some (behind outer) else none

/-- A token that starts a value, or is one. -/
def start? (enclosing : List Bracket) : Token → Option Place
  | .opening .square => some (.within (.square :: enclosing) .valueOrEnd)
  | .opening .curly => some (.within (.curly :: enclosing) .keyOrEnd)
  | .null | .bool _ | .number _ | .text _ | .looseText => some (behind enclosing)
  | _ => none

def key? (enclosing : List Bracket) : Token → Option Place
  | .text _ | .looseText => some (.within enclosing .colon)
  | _ => none

/-- Any string and any number will do, and there is no limit to the nesting. -/
def step? (enclosing : List Bracket) : Need → Token → Option Place
  | .valueOrEnd, .closing b | .keyOrEnd, .closing b | .separator, .closing b => close? b enclosing
  | .value, t | .valueOrEnd, t => start? enclosing t
  | .key, t | .keyOrEnd, t => key? enclosing t
  | .colon, .colon => some (.within enclosing .value)
  | .separator, .comma =>
    match enclosing with
    | .square :: _ => some (.within enclosing .value)
    | .curly :: _ => some (.within enclosing .key)
    | [] => none
  | .colon, _ | .separator, _ => none

def run : List Bracket → Need → List Token → Option (List Token)
  | _, _, [] => none
  | enclosing, need, t :: ts =>
    match step? enclosing need t with
    | none => none
    | some .done => some ts
    | some (.within enclosing need) => run enclosing need ts

/-- Skips one value. -/
def value (ts : List Token) : Except (Error ρ) (List Token) :=
  match run [] .value ts with
  | some ts => .ok ts
  | none => .error .malformed

end Skip

/-! ## Records -/

/-- A field of a record that is being filled in. -/
structure Field (ρ σ : Type) where
  name : String
  isGiven : σ → Bool
  /-- Reads the field's value into the record. -/
  read : σ → Reader ρ σ

/-- The fields of a record in their order, and what else its texts may do. -/
structure Shape (ρ σ : Type) where
  fields : List (Field ρ σ)
  /-- Whether fields of other names are skipped rather than refused. -/
  skipsUnknown : Bool
  /-- Whether an array may leave out fields at its end. -/
  mayEndEarly : Bool

namespace Shape

/-- Reads what follows a key: a field may be given only once, which is noticed at its key. -/
def entry (shape : Shape ρ σ) (s : σ) (key : String) : Reader ρ σ := fun ts =>
  match shape.fields.find? fun f => f.name == key with
  | some f =>
    if f.isGiven s then .error (.duplicateField f.name)
    else do f.read s (← Reader.colon ts)
  | none =>
    if shape.skipsUnknown then do
      let ts ← Skip.value (← Reader.colon ts)
      pure (s, ts)
    else .error .unknownField

/-- The next key of an object; `isFirst` says that no entry stands before. -/
def nextKey (isFirst : Bool) : Reader ρ (Option String)
  | [] => .error .ended
  | .closing .curly :: ts => .ok (none, ts)
  | t :: ts =>
    match isFirst, t, ts with
    | true, .text key, ts => .ok (some key, ts)
    | true, .brokenText flaw, _ => .error flaw.error
    | false, .comma, .text key :: ts => .ok (some key, ts)
    | false, .comma, .brokenText flaw :: _ => .error flaw.error
    | false, .comma, [] => .error .ended
    | _, _, _ => .error .malformed

/-- Reads the entries of an object up to its closing bracket. -/
def entries (shape : Shape ρ σ) (isFirst : Bool) (s : σ) (ts : List Token) :
    Except (Error ρ) (σ × List Token) := do
  let (key?, behind) ← nextKey isFirst ts
  match key? with
  | none => pure (s, behind)
  | some key =>
    let (s, rest) ← shape.entry s key behind
    if _h : rest.length < ts.length then shape.entries false s rest else .error .malformed
termination_by ts.length

/-- Reads the elements of an array as the given fields. -/
def elements (shape : Shape ρ σ) : List (Field ρ σ) → Bool → σ → Reader ρ σ
  | [], _, s, .closing .square :: ts => .ok (s, ts)
  | _, _, _, [] => .error .ended
  | [], _, _, _ => .error .malformed
  | _ :: _, _, s, .closing .square :: ts =>
    if shape.mayEndEarly then .ok (s, ts) else .error .invalidLength
  | f :: fields, true, s, ts => do
    let (s, ts) ← f.read s ts
    shape.elements fields false s ts
  | f :: fields, false, s, .comma :: ts =>
    match ts with
    | [] => .error .ended
    | .closing .square :: _ => .error .malformed
    | ts => do
      let (s, ts) ← f.read s ts
      shape.elements fields false s ts
  | _ :: _, false, _, _ => .error .malformed

/-- Reads a record into `s`. -/
def read (shape : Shape ρ σ) (s : σ) : Reader ρ σ
  | .opening .curly :: ts => shape.entries true s ts
  | .opening .square :: ts => shape.elements shape.fields true s ts
  | t :: _ => .error t.mismatch
  | [] => .error .ended

end Shape

end Keyring.Json
