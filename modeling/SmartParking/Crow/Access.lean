import Mathlib.Data.List.Nodup
import Mathlib.Data.List.TakeWhile
import SmartParking.Crow.Standard
import SmartParking.Foundation.JsonInteger

/-! # Reading a decoded value

The accessors of `rvalue` that the handlers use. One that throws has no value. An index is
sorted by its keys once, with a sort that is not stable, so which of two members with one
key is found is left open.
-/
namespace SmartParking.Crow
open Foundation.JsonText Foundation.JsonString
open Foundation.JsonNumber hiding IsNumber

/-- The `from_hex` of `unescape`. -/
def fromHex (c : UInt8) : ℕ :=
  if 0x61 ≤ c then c.toNat - 0x61 + 10
  else if 0x41 ≤ c then c.toNat - 0x41 + 10
  else c.toNat - 0x30

/-- What `unescape` writes for the digits after `\u`. -/
def writeCode (code : ℕ) : List UInt8 :=
  if 0x800 ≤ code then
    [UInt8.ofNat (0xE0 ||| code >>> 12), UInt8.ofNat (0x80 ||| code >>> 6 &&& 0x3F),
      UInt8.ofNat (0x80 ||| code &&& 0x3F)]
  else if 0x80 ≤ code then [UInt8.ofNat (0xC0 ||| code >>> 6), UInt8.ofNat (0x80 ||| code &&& 0x3F)]
  else [UInt8.ofNat code]

/-- What `unescape` writes for the other letters. -/
def writeLetter (letter : UInt8) : List UInt8 :=
  if letter = 0x22 then [0x22]
  else if letter = 0x5C then [0x5C]
  else if letter = 0x2F then [0x2F]
  else if letter = 0x62 then [0x08]
  else if letter = 0x66 then [0x0C]
  else if letter = 0x6E then [0x0A]
  else if letter = 0x72 then [0x0D]
  else if letter = 0x74 then [0x09]
  else []

/-- The loop of `unescape`. -/
def unescapeLoop : List UInt8 → List UInt8
  | [] => []
  | c :: head =>
    if c = backslash then
      match head with
      | [] => []
      | letter :: head =>
        if letter = 0x75 then
          match head with
          | d₁ :: d₂ :: d₃ :: d₄ :: head =>
            writeCode (fromHex d₁ <<< 12 + fromHex d₂ <<< 8 + fromHex d₃ <<< 4 + fromHex d₄) ++ unescapeLoop head
          | _ => []
        else writeLetter letter ++ unescapeLoop head
    else c :: unescapeLoop head

/-- A string is unescaped when `decode_string` has met a backslash in it. -/
def unescape (body : List UInt8) : List UInt8 := if backslash ∈ body then unescapeLoop body else body

/-- What `isspace` holds of. -/
def isSpace (c : UInt8) : Bool := c == 0x20 || (decide (0x09 ≤ c) && decide (c ≤ 0x0D))

/-- What extracting an `int64_t` gives for an integer that is written out. -/
def saturate (n : ℤ) : ℤ := max (-2 ^ 63) (min n (2 ^ 63 - 1))

/-- `lexical_cast<int64_t>`: the stream skips spaces and reads a sign and digits. Where there
is nothing to read the result keeps the value it is not initialised with. -/
def lexicalCast (uninitialised : ℤ) (text : List UInt8) : ℤ :=
  match text.dropWhile isSpace with
  | [] => uninitialised
  | c :: text =>
    if c = 0x2D then saturate (-digitsValue (text.takeWhile isDigit))
    else if c = 0x2B then saturate (digitsValue (text.takeWhile isDigit))
    else saturate (digitsValue ((c :: text).takeWhile isDigit))

def i (uninitialised : ℤ) : Tree → Option ℤ
  | .number token => some (lexicalCast uninitialised token)
  | .string body => some (lexicalCast uninitialised body)
  | _ => none

def s : Tree → Option (List UInt8)
  | .string body => some (unescape body)
  | _ => none

/-- A way to find a member by its key. -/
structure Lookup where
  find : List (List UInt8 × Tree) → List UInt8 → Option Tree
  sound : ∀ members key t, find members key = some t → ∃ m ∈ members, unescape m.1 = key ∧ m.2 = t
  complete : ∀ members key, find members key = none → ∀ m ∈ members, unescape m.1 ≠ key

/-- The search that a stable sort amounts to. -/
def Lookup.first : Lookup where
  find members key := (members.find? fun m => unescape m.1 == key).map Prod.snd
  sound members key t h := by
    obtain ⟨m, hfind, rfl⟩ := Option.map_eq_some_iff.mp h
    exact ⟨m, List.mem_of_find?_eq_some hfind, by simpa using List.find?_some hfind, rfl⟩
  complete members key h := by
    rw [Option.map_eq_none_iff, List.find?_eq_none] at h
    exact fun m hm => by simpa using h m hm

variable (lookup : Lookup)

/-- `operator[]` with a key. -/
def member (t : Tree) (key : List UInt8) : Option Tree :=
  match t with
  | .object members => lookup.find members key
  | _ => none

def has (t : Tree) (key : List UInt8) : Bool := (member lookup t key).isSome

/-- What a loop over `begin()` and `end()` visits. -/
def elements : Tree → Option (List Tree)
  | .array items => some items
  | .object members => some (members.map Prod.snd)
  | _ => none

end SmartParking.Crow
