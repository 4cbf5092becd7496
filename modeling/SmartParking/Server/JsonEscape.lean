import SmartParking.Foundation.JsonString
import SmartParking.Foundation.OutputStream

/-! # JSON escaping

`jsonEscape` of `Server.cpp`. A `char` is a byte, whose value as an `int` may be negative
where `char` is signed.
-/
namespace SmartParking.Server
open Foundation Foundation.JsonString

def ascii (s : String) : List UInt8 := s.toList.map fun c => c.toUInt8

/-- The value that `switch (c)` compares with the labels. -/
def promote (charIsSigned : Bool) (c : UInt8) : ℤ :=
  if charIsSigned = true ∧ 0x80 ≤ c.toNat then c.toNat - 256 else c.toNat

/-- The body of the loop. -/
def escapeChar (charIsSigned : Bool) (out : OutputStream) (c : UInt8) : OutputStream :=
  if promote charIsSigned c = ('\\').toNat then out.write (ascii "\\\\")
  else if promote charIsSigned c = ('\"').toNat then out.write (ascii "\\\"")
  else if promote charIsSigned c = ('\n').toNat then out.write (ascii "\\n")
  else if promote charIsSigned c = ('\r').toNat then out.write (ascii "\\r")
  else if promote charIsSigned c = ('\t').toNat then out.write (ascii "\\t")
  else if c.toNat < 0x20 then
    (((((out.write (ascii "\\u")).hex).uppercase).setfill 0x30).setw 4).writeInt c.toNat
  else out.write [c]

def jsonEscape (charIsSigned : Bool) (s : List UInt8) : List UInt8 :=
  (s.foldl (escapeChar charIsSigned) OutputStream.new).text

def hexDigit (n : ℕ) : UInt8 := if n < 10 then UInt8.ofNat (0x30 + n) else UInt8.ofNat (0x37 + n)

/-- What one byte is written as. -/
def escaped (c : UInt8) : List UInt8 :=
  if c = 0x5C then [0x5C, 0x5C]
  else if c = 0x22 then [0x5C, 0x22]
  else if c = 0x0A then [0x5C, 0x6E]
  else if c = 0x0D then [0x5C, 0x72]
  else if c = 0x09 then [0x5C, 0x74]
  else if c.toNat < 0x20 then [0x5C, 0x75, 0x30, 0x30, hexDigit (c.toNat / 16), hexDigit (c.toNat % 16)]
  else [c]

/-- The labels are below 128, so it does not matter whether `char` is signed. -/
theorem promote_eq_iff (charIsSigned : Bool) (c label : UInt8) (hlabel : label.toNat < 0x80) :
    promote charIsSigned c = label.toNat ↔ c = label := by
  have hc : c.toNat < 256 := c.toNat_lt
  rw [← UInt8.toNat_inj, promote]
  split <;> omega

theorem digits_control : ∀ n < 0x20, (OutputStream.digits 16 true n).leftpad 4 0x30 =
    [0x30, 0x30, hexDigit (n / 16), hexDigit (n % 16)] := by decide

theorem hexValue_hexDigit : ∀ n < 16, hexValue (hexDigit n) = some n := by decide

/-- A control byte is written with four digits, whatever the stream wrote before. -/
theorem writeControl_appended {out : OutputStream} (h : out.width = 0) {n : ℕ} (hn : n < 0x20) :
    out.Appended [0x5C, 0x75, 0x30, 0x30, hexDigit (n / 16), hexDigit (n % 16)]
      ((((((out.write (ascii "\\u")).hex).uppercase).setfill 0x30).setw 4).writeInt n) := by
  have hletter : (out.write (ascii "\\u")).text = out.text ++ [0x5C, 0x75] := (OutputStream.write_appended h _).text
  have hmod : ((n : ℤ) % 4294967296).toNat = n := by omega
  have htext : OutputStream.intText (((((out.write (ascii "\\u")).hex).uppercase).setfill 0x30).setw 4) n =
      OutputStream.digits 16 true n := congrArg (OutputStream.digits 16 true) hmod
  refine ⟨?_, rfl⟩
  calc
    _ = (out.write (ascii "\\u")).text ++ (OutputStream.digits 16 true n).leftpad 4 0x30 := by
      rw [OutputStream.writeInt, htext]
      rfl
    _ = out.text ++ [0x5C, 0x75, 0x30, 0x30, hexDigit (n / 16), hexDigit (n % 16)] := by
      rw [hletter, digits_control n hn, List.append_assoc]
      rfl

theorem escapeChar_appended (charIsSigned : Bool) (out : OutputStream) (c : UInt8) (h : out.width = 0) :
    out.Appended (escaped c) (escapeChar charIsSigned out c) := by
  have hbackslash : promote charIsSigned c = ('\\').toNat ↔ c = 0x5C := promote_eq_iff charIsSigned c 0x5C (by decide)
  have hquote : promote charIsSigned c = ('\"').toNat ↔ c = 0x22 := promote_eq_iff charIsSigned c 0x22 (by decide)
  have hnewline : promote charIsSigned c = ('\n').toNat ↔ c = 0x0A := promote_eq_iff charIsSigned c 0x0A (by decide)
  have hreturn : promote charIsSigned c = ('\r').toNat ↔ c = 0x0D := promote_eq_iff charIsSigned c 0x0D (by decide)
  have htab : promote charIsSigned c = ('\t').toNat ↔ c = 0x09 := promote_eq_iff charIsSigned c 0x09 (by decide)
  simp only [escapeChar, escaped, hbackslash, hquote, hnewline, hreturn, htab]
  split
  · exact OutputStream.write_appended h _
  split
  · exact OutputStream.write_appended h _
  split
  · exact OutputStream.write_appended h _
  split
  · exact OutputStream.write_appended h _
  split
  · exact OutputStream.write_appended h _
  split
  · next hcontrol => exact writeControl_appended h hcontrol
  · exact OutputStream.write_appended h _

theorem jsonEscape_eq (charIsSigned : Bool) : jsonEscape charIsSigned = fun s => s.flatMap escaped := by
  funext s
  have hrun : OutputStream.new.Appended (s.flatMap escaped) (s.foldl (escapeChar charIsSigned) OutputStream.new) :=
    OutputStream.foldl_appended (escapeChar_appended charIsSigned) rfl s
  exact hrun.text

example : jsonEscape true (ascii "a\"\x1f\n") = ascii "a\\\"\\u001F\\n" := by decide

theorem isChar_control {c : UInt8} (hc : c.toNat < 0x20) :
    IsChar [0x5C, 0x75, 0x30, 0x30, hexDigit (c.toNat / 16), hexDigit (c.toNat % 16)] c.toNat := by
  have hhigh := hexValue_hexDigit (c.toNat / 16) (by omega)
  have hlow := hexValue_hexDigit (c.toNat % 16) (by omega)
  have hzero : hexValue 0x30 = some 0 := by decide
  have hvalue : ((0 * 16 + 0) * 16 + c.toNat / 16) * 16 + c.toNat % 16 = c.toNat := by omega
  have h := IsChar.unit 0x30 0x30 _ _ 0 0 _ _ hzero hzero hhigh hlow
  rw [hvalue] at h
  exact h

theorem escaped_isChar (c : UInt8) : IsChar (escaped c) c.toNat := by
  unfold escaped
  split
  · next h => subst h; exact IsChar.short 0x5C 0x5C (by decide)
  split
  · next h => subst h; exact IsChar.short 0x22 0x22 (by decide)
  split
  · next h => subst h; exact IsChar.short 0x6E 0x0A (by decide)
  split
  · next h => subst h; exact IsChar.short 0x72 0x0D (by decide)
  split
  · next h => subst h; exact IsChar.short 0x74 0x09 (by decide)
  split
  · next h => exact isChar_control h
  · next hbackslash hquote _ _ _ hcontrol =>
    have hprintable : 0x20 ≤ c := UInt8.le_iff_toNat_le.mpr (Nat.le_of_not_lt hcontrol)
    exact IsChar.raw c hprintable hquote hbackslash

/-- `jsonEscape` is a faithful encoder of byte strings. -/
theorem jsonEscape_faithful (charIsSigned : Bool) : Faithful (jsonEscape charIsSigned) := by
  rw [jsonEscape_eq]
  exact faithful_flatMap escaped_isChar

end SmartParking.Server
