import Mathlib.Data.Int.Order.Basic

/-! # Formatted output

An output stream with its formatting state: base, case of digits, fill and field width.
The first three stay as they are set, and the width is used up by the next output.
-/
namespace Foundation

structure OutputStream where
  text : List UInt8
  isHex : Bool
  isUppercase : Bool
  fill : UInt8
  width : ℕ
  deriving DecidableEq, Repr

namespace OutputStream

def new : OutputStream := ⟨[], false, false, 0x20, 0⟩

def hex (out : OutputStream) : OutputStream := { out with isHex := true }
def uppercase (out : OutputStream) : OutputStream := { out with isUppercase := true }
def setfill (out : OutputStream) (fill : UInt8) : OutputStream := { out with fill := fill }
def setw (out : OutputStream) (width : ℕ) : OutputStream := { out with width := width }

def write (out : OutputStream) (s : List UInt8) : OutputStream :=
  { out with text := out.text ++ s.leftpad out.width out.fill, width := 0 }

def digits (base : ℕ) (isUppercase : Bool) (n : ℕ) : List UInt8 :=
  (Nat.toDigits base n).map fun d => if isUppercase then d.toUpper.toUInt8 else d.toUInt8

/-- The text of a 32-bit integer. In base 16 it is that of the unsigned integer. -/
def intText (out : OutputStream) (n : ℤ) : List UInt8 :=
  if out.isHex then digits 16 out.isUppercase (n % 4294967296).toNat
  else if n < 0 then 0x2D :: digits 10 false n.natAbs
  else digits 10 false n.natAbs

def writeInt (out : OutputStream) (n : ℤ) : OutputStream := out.write (out.intText n)

/-- What was output since: the text grew by `s`, and no width is pending. -/
structure Appended (out : OutputStream) (s : List UInt8) (out' : OutputStream) : Prop where
  text : out'.text = out.text ++ s
  width : out'.width = 0

theorem write_appended {out : OutputStream} (h : out.width = 0) (s : List UInt8) : Appended out s (out.write s) := by
  refine ⟨?_, rfl⟩
  have hpad : s.leftpad 0 out.fill = s := by simp [List.leftpad]
  rw [write, h, hpad]

theorem Appended.trans {out out' out'' : OutputStream} {s t : List UInt8} (h : Appended out s out')
    (h' : Appended out' t out'') : Appended out (s ++ t) out'' := by
  refine ⟨?_, h'.width⟩
  rw [h'.text, h.text, List.append_assoc]

/-- Output item by item. -/
theorem foldl_appended {α : Type*} {f : OutputStream → α → OutputStream} {g : α → List UInt8}
    (hf : ∀ out a, out.width = 0 → Appended out (g a) (f out a)) {out : OutputStream} (h : out.width = 0)
    (as : List α) : Appended out (as.flatMap g) (as.foldl f out) := by
  induction as generalizing out with
  | nil => exact ⟨(List.append_nil _).symm, h⟩
  | cons a as ih => exact (hf out a h).trans (ih (hf out a h).width)

end OutputStream

end Foundation
