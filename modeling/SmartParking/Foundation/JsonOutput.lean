import SmartParking.Foundation.JsonInteger
import SmartParking.Foundation.JsonWrite
import SmartParking.Foundation.OutputStream

/-! # JSON on an output stream

A stream on which nothing was set writes integers as JSON has them. A loop that writes a
comma before every item but the first puts commas between what its turns write.
-/
namespace Foundation.OutputStream
open JsonText JsonNumber
variable {α : Type}

/-- A stream on which nothing was set. -/
def plain (text : List UInt8) : OutputStream := ⟨text, false, false, 0x20, 0⟩

@[simp] theorem plain_text (text : List UInt8) : (plain text).text = text := rfl

theorem new_eq_plain : new = plain [] := rfl

@[simp] theorem write_plain (text s : List UInt8) : (plain text).write s = plain (text ++ s) := by
  simp [write, plain, List.leftpad]

theorem digits_ten (n : ℕ) : digits 10 false n = natText n := rfl

@[simp] theorem writeInt_plain (text : List UInt8) (n : ℤ) :
    (plain text).writeInt n = plain (text ++ integerText n) := by
  have hint : intText (plain text) n = integerText n := by
    rw [intText, plain, integerText]
    simp only [Bool.false_eq_true, if_false, digits_ten]
  rw [writeInt, hint, write_plain]

/-- A turn of a loop with a flag for its first turn. -/
def turn (write : OutputStream → α → Option OutputStream) (state : OutputStream × Bool) (a : α) :
    Option (OutputStream × Bool) := do
  let out := if !state.2 then state.1.write [comma] else state.1
  let out ← write out a
  some (out, false)

theorem joined_cons (text : List UInt8) (texts : List (List UInt8)) :
    joined (text :: texts) = text ++ texts.flatMap (comma :: ·) := by
  induction texts generalizing text with
  | nil => rw [joined, List.flatMap_nil, List.append_nil]
  | cons text' texts ih => rw [joined, ih, List.flatMap_cons, List.cons_append]

section Loop
variable {write : OutputStream → α → Option OutputStream} {g : α → Option (List UInt8)}

/-- The turns after the first one. -/
theorem foldlM_turn_false (h : ∀ text a, write (plain text) a = (g a).map fun s => plain (text ++ s))
    (text : List UInt8) (as : List α) : as.foldlM (turn write) (plain text, false) =
      (as.mapM g).map fun texts => (plain (text ++ texts.flatMap (comma :: ·)), false) := by
  induction as generalizing text with
  | nil => simp
  | cons a as ih =>
    have hturn : turn write (plain text, false) a = (g a).map fun s => (plain (text ++ comma :: s), false) := by
      simp only [turn, Bool.not_false, if_true, write_plain, h, List.append_assoc, List.singleton_append]
      cases g a <;> rfl
    rw [List.foldlM_cons, List.mapM_cons, hturn]
    cases g a with
    | none => rfl
    | some s =>
      simp only [Option.map_some, Option.bind_eq_bind, Option.bind_some, ih]
      cases as.mapM g with
      | none => rfl
      | some texts => simp

/-- What a loop writes, if all its turns write something. -/
theorem foldlM_turn (h : ∀ text a, write (plain text) a = (g a).map fun s => plain (text ++ s))
    (text : List UInt8) (as : List α) : as.foldlM (turn write) (plain text, true) =
      (as.mapM g).map fun texts => (plain (text ++ joined texts), as.isEmpty) := by
  cases as with
  | nil => simp [joined]
  | cons a as =>
    have hturn : turn write (plain text, true) a = (g a).map fun s => (plain (text ++ s), false) := by
      simp only [turn, Bool.not_true, Bool.false_eq_true, if_false, h]
      cases g a <;> rfl
    rw [List.foldlM_cons, List.mapM_cons, hturn]
    cases g a with
    | none => rfl
    | some s =>
      simp only [Option.map_some, Option.bind_eq_bind, Option.bind_some, foldlM_turn_false h]
      cases as.mapM g with
      | none => rfl
      | some texts => simp [joined_cons]

end Loop

end Foundation.OutputStream
