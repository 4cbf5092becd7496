import SmartParking.Foundation.JsonText

/-! # Crow's JSON reader

`load` of the `json.h` that comes with Crow. The pointer `data` is the list of the bytes
before it, so a read past the last one reads the 0 that `load` puts there. A function that
returns an error has no value. A key is kept as it is written, and unescaped where it is
compared. The loops and the recursion take a number of rounds that is never used up.
-/
namespace SmartParking.Crow
open Foundation.JsonText Foundation.JsonString

/-- `*data`. -/
def deref (data : List UInt8) : UInt8 := data.headD 0

def maxDepth : ℕ := 10000

def consume (c : UInt8) (data : List UInt8) : Option (List UInt8) :=
  if deref data ≠ c then none else some data.tail

def wsSkip : List UInt8 → List UInt8
  | [] => []
  | c :: data => if c = 0x20 ∨ c = 0x09 ∨ c = 0x0D ∨ c = 0x0A then wsSkip data else c :: data

/-- The `check` of the digits after `\u`. -/
def check (c : UInt8) : Bool :=
  (decide (0x30 ≤ c) && decide (c ≤ 0x39)) || (decide (0x61 ≤ c) && decide (c ≤ 0x66)) ||
    (decide (0x41 ≤ c) && decide (c ≤ 0x46))

/-- The letters that stand for one character after a backslash. -/
def escapeLetters : List UInt8 := [0x22, 0x5C, 0x2F, 0x62, 0x66, 0x6E, 0x72, 0x74]

/-- The loop of `decode_string`: what is read up to the closing quote, and what comes after. -/
def decodeStringLoop : List UInt8 → Option (List UInt8 × List UInt8)
  | [] => none
  | c :: data =>
    if c ≠ quote ∧ c ≠ backslash ∧ c ≠ 0 then (decodeStringLoop data).map fun r => (c :: r.1, r.2)
    else if c = quote then some ([], data)
    else if c = backslash then
      match data with
      | [] => none
      | letter :: data =>
        if letter = 0x75 then
          match data with
          | d₁ :: d₂ :: d₃ :: d₄ :: data =>
            if check d₁ && check d₂ && check d₃ && check d₄ then
              (decodeStringLoop data).map fun r => (c :: letter :: d₁ :: d₂ :: d₃ :: d₄ :: r.1, r.2)
            else none
          | _ => none
        else if letter ∈ escapeLetters then
          (decodeStringLoop data).map fun r => (c :: letter :: r.1, r.2)
        else none
    else none

def decodeString (data : List UInt8) : Option (List UInt8 × List UInt8) := do
  let data ← consume quote data
  decodeStringLoop data

inductive NumberParsingState
  | minus | afterMinus | zeroFirst | digits | digitsAfterPoints | e | digitsAfterE | invalid
  deriving DecidableEq, Repr

namespace NumberParsingState

/-- The state in the row of a character at the column of a state. -/
def select (row : List NumberParsingState) : NumberParsingState → NumberParsingState
  | minus => row.getD 0 invalid
  | afterMinus => row.getD 1 invalid
  | zeroFirst => row.getD 2 invalid
  | digits => row.getD 3 invalid
  | digitsAfterPoints => row.getD 4 invalid
  | e => row.getD 5 invalid
  | digitsAfterE => row.getD 6 invalid
  | invalid => invalid

def zeroRow : List NumberParsingState :=
  [zeroFirst, zeroFirst, invalid, digits, digitsAfterPoints, digitsAfterE, digitsAfterE]
def digitRow : List NumberParsingState :=
  [digits, digits, invalid, digits, digitsAfterPoints, digitsAfterE, digitsAfterE]
def pointRow : List NumberParsingState :=
  [invalid, invalid, digitsAfterPoints, digitsAfterPoints, invalid, invalid, invalid]
def minusRow : List NumberParsingState := [afterMinus, invalid, invalid, invalid, invalid, digitsAfterE, invalid]
def plusRow : List NumberParsingState := [invalid, invalid, invalid, invalid, invalid, digitsAfterE, invalid]
def eRow : List NumberParsingState := [invalid, invalid, invalid, e, e, invalid, invalid]

def accepts (state : NumberParsingState) : Bool :=
  state == zeroFirst || state == digits || state == digitsAfterPoints || state == digitsAfterE

end NumberParsingState

def isDigit (c : UInt8) : Bool := decide (0x30 ≤ c) && decide (c ≤ 0x39)

open NumberParsingState in
/-- The loop of `decode_number`: where the number ends. -/
def decodeNumberLoop : ℕ → NumberParsingState → List UInt8 → Option (List UInt8)
  | 0, _, _ => none
  | rounds + 1, state, data =>
    if state = invalid then none
    else if deref data = 0x30 then decodeNumberLoop rounds (select zeroRow state) data.tail
    else if isDigit (deref data) then
      decodeNumberLoop rounds (select digitRow state) (data.tail.dropWhile isDigit)
    else if deref data = 0x2E then decodeNumberLoop rounds (select pointRow state) data.tail
    else if deref data = 0x2D then decodeNumberLoop rounds (select minusRow state) data.tail
    else if deref data = 0x2B then decodeNumberLoop rounds (select plusRow state) data.tail
    else if deref data = 0x65 ∨ deref data = 0x45 then decodeNumberLoop rounds (select eRow state) data.tail
    else if accepts state then some data
    else none

def decodeNumber (data : List UInt8) : Option (Tree × List UInt8) :=
  (decodeNumberLoop (data.length + 1) .minus data).map
    fun rest => (.number (data.take (data.length - rest.length)), rest)

/-- The loop that `decode_list` and `decode_object` share: elements with commas between them
up to the byte that closes the container. -/
def decodeElements {α : Type} (decodeElement : List UInt8 → Option (α × List UInt8)) (closing : UInt8) :
    ℕ → List UInt8 → Option (List α × List UInt8)
  | 0, _ => none
  | rounds + 1, data => do
    let (a, data) ← decodeElement data
    let data := wsSkip data
    if deref data = closing then some ([a], data.tail)
    else do
      let data ← consume comma data
      let (as, data) ← decodeElements decodeElement closing rounds (wsSkip data)
      some (a :: as, data)

/-- What `decode_list` and `decode_object` share. -/
def decodeContainer {α : Type} (decodeElement : List UInt8 → Option (α × List UInt8)) (opening closing : UInt8)
    (make : List α → Tree) (depth : ℕ) (data : List UInt8) : Option (Tree × List UInt8) := do
  let rounds := data.length
  let data ← consume opening data
  if depth > maxDepth then none
  else
    let data := wsSkip data
    if deref data = closing then some (make [], data.tail)
    else do
      let (as, data) ← decodeElements decodeElement closing rounds data
      some (make as, data)

section Containers
variable (decodeValue : ℕ → List UInt8 → Option (Tree × List UInt8))

def decodeList (depth : ℕ) : List UInt8 → Option (Tree × List UInt8) :=
  decodeContainer (decodeValue (depth + 1)) openBracket closeBracket .array depth

/-- What the loop of `decode_object` does before it looks for a comma. -/
def decodeMember (depth : ℕ) (data : List UInt8) : Option ((List UInt8 × Tree) × List UInt8) := do
  let (key, data) ← decodeString data
  let data ← consume colon (wsSkip data)
  let (v, data) ← decodeValue (depth + 1) (wsSkip data)
  some ((key, v), data)

def decodeObject (depth : ℕ) : List UInt8 → Option (Tree × List UInt8) :=
  decodeContainer (decodeMember decodeValue depth) openBrace closeBrace .object depth

end Containers

/-- A word that is compared letter by letter. -/
def decodeWord (word : List UInt8) (t : Tree) (data : List UInt8) : Option (Tree × List UInt8) :=
  if word.isPrefixOf data then some (t, data.drop word.length) else none

def decodeValue : ℕ → ℕ → List UInt8 → Option (Tree × List UInt8)
  | 0, _, _ => none
  | rounds + 1, depth, data =>
    if deref data = openBracket then decodeList (decodeValue rounds) (depth + 1) data
    else if deref data = openBrace then decodeObject (decodeValue rounds) (depth + 1) data
    else if deref data = quote then (decodeString data).map fun r => (.string r.1, r.2)
    else if deref data = 0x74 then decodeWord trueText (.bool true) data
    else if deref data = 0x66 then decodeWord falseText (.bool false) data
    else if deref data = 0x6E then decodeWord nullText .null data
    else decodeNumber data

def load (data : List UInt8) : Option Tree := do
  let (ret, data) ← decodeValue (maxDepth + 1) 0 (wsSkip data)
  if deref (wsSkip data) ≠ 0 then none else some ret

theorem deref_cons (c : UInt8) (data : List UInt8) : deref (c :: data) = c := rfl

/-- A byte other than 0 is read only where it is. -/
theorem eq_cons_of_deref {data : List UInt8} {c : UInt8} (h : deref data = c) (hc : c ≠ 0) :
    data = c :: data.tail := by
  cases data with
  | nil => exact absurd h.symm hc
  | cons c' data =>
    obtain rfl : c' = c := h
    rfl

theorem consume_cons (c : UInt8) (data : List UInt8) : consume c (c :: data) = some data := by
  simp [consume, deref_cons]

theorem consume_eq_some {c : UInt8} {data rest : List UInt8} (h : consume c data = some rest) (hc : c ≠ 0) :
    data = c :: rest := by
  rw [consume] at h
  split at h
  · contradiction
  · next hderef =>
    obtain rfl := Option.some.inj h
    exact eq_cons_of_deref (not_ne_iff.mp hderef) hc

end SmartParking.Crow
