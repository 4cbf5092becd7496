import SmartParking.Crow.Strings
import SmartParking.Foundation.JsonNumber

/-! # The numbers Crow reads

`decode_number` takes some tokens that are no JSON numbers, such as `1.` and `1e-`, and
refuses an exponent right after a leading zero. It reads the longest run of the characters
that numbers are made of.
-/
namespace SmartParking.Crow
open Foundation.JsonText Foundation.JsonString
open Foundation.JsonNumber hiding IsNumber

theorem isDigit_iff (c : UInt8) : isDigit c = true ↔ c ∈ digitChars := by
  simp only [isDigit, Bool.and_eq_true, decide_eq_true_eq, digitChars, List.mem_cons, List.not_mem_nil, or_false,
    UInt8.le_iff_toNat_le, ← UInt8.toNat_inj]
  simp only [UInt8.reduceToNat]
  omega

namespace NumberParsingState

/-- What a character of a number does to the state. -/
def next (state : NumberParsingState) (c : UInt8) : NumberParsingState :=
  if c = 0x30 then select zeroRow state
  else if isDigit c then select digitRow state
  else if c = 0x2E then select pointRow state
  else if c = 0x2D then select minusRow state
  else if c = 0x2B then select plusRow state
  else select eRow state

/-- Where the automaton reads the token to the end and accepts. -/
def Reads (state : NumberParsingState) (data rest : List UInt8) : Prop :=
  ∃ token, data = token ++ rest ∧ (∀ b ∈ token, b ∈ numberChars) ∧ Avoids numberChars rest ∧
    (token.foldl next state).accepts = true

theorem next_invalid (c : UInt8) : next invalid c = invalid := by
  unfold next
  split
  · rfl
  split
  · rfl
  split
  · rfl
  split
  · rfl
  split <;> rfl

theorem foldl_next_invalid (token : List UInt8) : token.foldl next invalid = invalid := by
  induction token with
  | nil => rfl
  | cons c token ih => rw [List.foldl_cons, next_invalid, ih]

theorem reads_cons {state : NumberParsingState} {c : UInt8} {data rest : List UInt8} (hc : c ∈ numberChars) :
    Reads state (c :: data) rest ↔ Reads (next state c) data rest := by
  constructor
  · rintro ⟨token, heq, hchars, havoids, haccepts⟩
    cases token with
    | nil =>
      rw [List.nil_append] at heq
      rw [← heq] at havoids
      exact absurd hc (avoids_cons.mp havoids)
    | cons c' token =>
      obtain ⟨rfl, rfl⟩ := List.cons.inj heq
      exact ⟨token, rfl, fun b hb => hchars b (List.mem_cons_of_mem _ hb), havoids, haccepts⟩
  · rintro ⟨token, rfl, hchars, havoids, haccepts⟩
    exact ⟨c :: token, rfl, List.forall_mem_cons.mpr ⟨hc, hchars⟩, havoids, haccepts⟩

theorem reads_of_avoids {state : NumberParsingState} {data rest : List UInt8} (h : Avoids numberChars data) :
    Reads state data rest ↔ state.accepts = true ∧ data = rest := by
  constructor
  · rintro ⟨token, rfl, hchars, -, haccepts⟩
    cases token with
    | nil => exact ⟨haccepts, rfl⟩
    | cons c token => exact absurd (hchars c List.mem_cons_self) (avoids_cons.mp h)
  · rintro ⟨haccepts, rfl⟩
    exact ⟨[], rfl, by simp, h, haccepts⟩

/-- Another digit changes nothing after a digit. -/
theorem next_digit_digit (state : NumberParsingState) {c d : UInt8} (hzero : c ≠ 0x30) (hc : isDigit c = true)
    (hd : isDigit d = true) : next (next state c) d = next state c := by
  have hnext : next state c = select digitRow state := by simp [next, hzero, hc]
  rw [hnext, next, if_pos hd]
  cases state <;> (split <;> rfl)

/-- The digits the inner loop skips. -/
theorem reads_dropWhile {state : NumberParsingState} (h : ∀ d, isDigit d = true → next state d = state)
    (data rest : List UInt8) : Reads state (data.dropWhile isDigit) rest ↔ Reads state data rest := by
  induction data with
  | nil => rfl
  | cons d data ih =>
    rw [List.dropWhile_cons]
    split
    · next hd => rw [ih, reads_cons (digitChars_numberChars d ((isDigit_iff d).mp hd)), h d hd]
    · rfl

end NumberParsingState

open NumberParsingState

theorem decodeNumberLoop_eq_some_iff {rounds : ℕ} {state : NumberParsingState} {data rest : List UInt8}
    (h : data.length < rounds) : decodeNumberLoop rounds state data = some rest ↔ Reads state data rest := by
  induction rounds generalizing state data with
  | zero => omega
  | succ rounds ih =>
    rw [decodeNumberLoop]
    split
    · next hinvalid =>
      subst hinvalid
      simp [Reads, foldl_next_invalid, accepts]
    have hstep : ∀ c data', data = c :: data' → c ∈ numberChars → ∀ state', next state c = state' →
        (decodeNumberLoop rounds state' data' = some rest ↔ Reads state data rest) := by
      rintro c data' rfl hc _ rfl
      rw [reads_cons hc, ih (by simpa using h)]
    split
    · next hc =>
      apply hstep 0x30 _ (eq_cons_of_deref hc (by decide)) (by decide)
      rfl
    split
    · next hzero hdigit =>
      obtain ⟨c, data, rfl⟩ : ∃ c data', data = c :: data' := by
        cases data with
        | nil => exact absurd hdigit (by decide)
        | cons c data => exact ⟨c, data, rfl⟩
      rw [deref_cons] at hzero hdigit
      have hnext : select digitRow state = next state c := by rw [next, if_neg hzero, if_pos hdigit]
      have hlength : (data.dropWhile isDigit).length ≤ data.length := data.dropWhile_sublist isDigit |>.length_le
      rw [List.length_cons] at h
      rw [List.tail_cons, hnext, ih (by omega), reads_dropWhile fun d hd => next_digit_digit state hzero hdigit hd,
        reads_cons (digitChars_numberChars c ((isDigit_iff c).mp hdigit))]
    split
    · next hc =>
      apply hstep 0x2E _ (eq_cons_of_deref hc (by decide)) (by decide)
      rfl
    split
    · next hc =>
      apply hstep 0x2D _ (eq_cons_of_deref hc (by decide)) (by decide)
      rfl
    split
    · next hc =>
      apply hstep 0x2B _ (eq_cons_of_deref hc (by decide)) (by decide)
      rfl
    split
    · next hc =>
      rcases hc with hc | hc
      · apply hstep 0x65 _ (eq_cons_of_deref hc (by decide)) (by decide)
        rfl
      · apply hstep 0x45 _ (eq_cons_of_deref hc (by decide)) (by decide)
        rfl
    · next hzero hdigit hpoint hminus hplus he =>
      have havoids : Avoids numberChars data := by
        cases data with
        | nil => simp [Avoids]
        | cons c data =>
          rw [deref_cons] at *
          rw [avoids_cons, numberChars, List.mem_append, ← isDigit_iff]
          simp [hdigit, hpoint, hminus, hplus, not_or.mp he]
      rw [reads_of_avoids havoids]
      split
      · next haccepts => simp [haccepts]
      · next haccepts => simp [haccepts]

/-- The digits after the point may be missing. -/
inductive LooseFraction : List UInt8 → Prop
  | none : LooseFraction []
  | point {ds : List UInt8} (hds : AllDigits ds) : LooseFraction (0x2E :: ds)

/-- After the letter comes a digit or a sign, and then as many digits as there are. -/
inductive LooseExponent : List UInt8 → Prop
  | none : LooseExponent []
  | e {e x : UInt8} {ds : List UInt8} (he : IsE e) (hx : x ∈ digitChars ∨ x = 0x2B ∨ x = 0x2D) (hds : AllDigits ds) :
      LooseExponent (e :: x :: ds)

inductive IsNumber : List UInt8 → Prop
  | mk {sign integer fraction exponent : List UInt8} (hsign : IsSign sign) (hinteger : IsInteger integer)
      (hfraction : LooseFraction fraction) (hexponent : LooseExponent exponent)
      (hzero : integer = [0x30] → fraction = [] → exponent = []) :
      IsNumber (sign ++ (integer ++ (fraction ++ exponent)))

namespace NumberParsingState

theorem next_digitsAfterE : ∀ c ∈ numberChars,
    next digitsAfterE c = if c ∈ digitChars then digitsAfterE else invalid := by
  decide

theorem next_e : ∀ c ∈ numberChars,
    next e c = if c ∈ digitChars ∨ c = 0x2B ∨ c = 0x2D then digitsAfterE else invalid := by decide

theorem next_digitsAfterPoints : ∀ c ∈ numberChars, next digitsAfterPoints c =
    if c ∈ digitChars then digitsAfterPoints else if c = 0x65 ∨ c = 0x45 then e else invalid := by decide

theorem next_digits : ∀ c ∈ numberChars, next digits c = if c ∈ digitChars then digits
    else if c = 0x2E then digitsAfterPoints else if c = 0x65 ∨ c = 0x45 then e else invalid := by decide

theorem next_zeroFirst : ∀ c ∈ numberChars,
    next zeroFirst c = if c = 0x2E then digitsAfterPoints else invalid := by decide

theorem next_afterMinus : ∀ c ∈ numberChars, next afterMinus c =
    if c = 0x30 then zeroFirst else if c ∈ digitChars then digits else invalid := by decide

theorem next_minus : ∀ c ∈ numberChars,
    next minus c = if c = 0x2D then afterMinus else next afterMinus c := by decide

/-- The automaton accepts when it goes on with the token in the state. -/
def AcceptsFrom (state : NumberParsingState) (token : List UInt8) : Prop :=
  (∀ b ∈ token, b ∈ numberChars) ∧ (token.foldl next state).accepts = true

theorem acceptsFrom_nil {state : NumberParsingState} : AcceptsFrom state [] ↔ state.accepts = true := by
  simp [AcceptsFrom]

theorem acceptsFrom_cons {state : NumberParsingState} {c : UInt8} {token : List UInt8} :
    AcceptsFrom state (c :: token) ↔ c ∈ numberChars ∧ AcceptsFrom (next state c) token := by
  simp [AcceptsFrom, and_assoc]

theorem not_acceptsFrom_invalid {token : List UInt8} : ¬ AcceptsFrom invalid token := by
  rintro ⟨-, haccepts⟩
  rw [foldl_next_invalid] at haccepts
  contradiction

theorem acceptsFrom_digitsAfterE {token : List UInt8} : AcceptsFrom digitsAfterE token ↔ AllDigits token := by
  induction token with
  | nil => simp [acceptsFrom_nil, accepts, AllDigits]
  | cons c token ih =>
    rw [acceptsFrom_cons, AllDigits, List.forall_mem_cons]
    constructor
    · rintro ⟨hc, h⟩
      rw [next_digitsAfterE c hc] at h
      split at h
      · next hdigit => exact ⟨hdigit, ih.mp h⟩
      · exact absurd h not_acceptsFrom_invalid
    · rintro ⟨hdigit, h⟩
      have hc := digitChars_numberChars c hdigit
      rw [next_digitsAfterE c hc, if_pos hdigit]
      exact ⟨hc, ih.mpr h⟩

theorem acceptsFrom_e {token : List UInt8} : AcceptsFrom e token ↔
    ∃ x ds, token = x :: ds ∧ (x ∈ digitChars ∨ x = 0x2B ∨ x = 0x2D) ∧ AllDigits ds := by
  cases token with
  | nil => simp [acceptsFrom_nil, accepts]
  | cons c token =>
    rw [acceptsFrom_cons]
    constructor
    · rintro ⟨hc, h⟩
      rw [next_e c hc] at h
      split at h
      · next hx => exact ⟨c, token, rfl, hx, acceptsFrom_digitsAfterE.mp h⟩
      · exact absurd h not_acceptsFrom_invalid
    · rintro ⟨x, ds, heq, hx, hds⟩
      obtain ⟨rfl, rfl⟩ := List.cons.inj heq
      have hc : c ∈ numberChars := by
        rcases hx with hx | rfl | rfl
        · exact digitChars_numberChars c hx
        · decide
        · decide
      rw [next_e c hc, if_pos hx]
      exact ⟨hc, acceptsFrom_digitsAfterE.mpr hds⟩

/-- An exponent can follow in every state that the letter leads on from. -/
theorem acceptsFrom_exponent {state : NumberParsingState} (haccepts : state.accepts = true)
    (hnext : ∀ c, IsE c → next state c = e) {exponent : List UInt8} (h : LooseExponent exponent) :
    AcceptsFrom state exponent := by
  cases h with
  | none => exact acceptsFrom_nil.mpr haccepts
  | e he hx hds =>
    rw [acceptsFrom_cons, hnext _ he]
    exact ⟨he.mem_numberChars, acceptsFrom_e.mpr ⟨_, _, rfl, hx, hds⟩⟩

/-- Digits can come first in every state that they do not change. -/
theorem acceptsFrom_allDigits {state : NumberParsingState} (hnext : ∀ d ∈ digitChars, next state d = state)
    {ds token : List UInt8} (hds : AllDigits ds) (h : AcceptsFrom state token) : AcceptsFrom state (ds ++ token) := by
  induction ds with
  | nil => exact h
  | cons d ds ih =>
    have hd : d ∈ digitChars := hds d List.mem_cons_self
    rw [List.cons_append, acceptsFrom_cons, hnext d hd]
    exact ⟨digitChars_numberChars d hd, ih fun b hb => hds b (List.mem_cons_of_mem _ hb)⟩

theorem looseExponent_of_acceptsFrom_e {c : UInt8} (he : c = 0x65 ∨ c = 0x45) {token : List UInt8}
    (h : AcceptsFrom e token) : LooseExponent (c :: token) := by
  obtain ⟨x, ds, rfl, hx, hds⟩ := acceptsFrom_e.mp h
  exact LooseExponent.e he hx hds

theorem acceptsFrom_digitsAfterPoints {token : List UInt8} : AcceptsFrom digitsAfterPoints token ↔
    ∃ ds exponent, token = ds ++ exponent ∧ AllDigits ds ∧ LooseExponent exponent := by
  constructor
  · intro h
    induction token with
    | nil => exact ⟨[], [], rfl, by simp [AllDigits], LooseExponent.none⟩
    | cons c token ih =>
      obtain ⟨hc, h⟩ := acceptsFrom_cons.mp h
      rw [next_digitsAfterPoints c hc] at h
      split at h
      · next hdigit =>
        obtain ⟨ds, exponent, rfl, hds, hexponent⟩ := ih h
        exact ⟨c :: ds, exponent, rfl, List.forall_mem_cons.mpr ⟨hdigit, hds⟩, hexponent⟩
      split at h
      · next he => exact ⟨[], _, rfl, by simp [AllDigits], looseExponent_of_acceptsFrom_e he h⟩
      · exact absurd h not_acceptsFrom_invalid
  · rintro ⟨ds, exponent, rfl, hds, hexponent⟩
    apply acceptsFrom_allDigits (by decide) hds
    apply acceptsFrom_exponent rfl _ hexponent
    rintro c (rfl | rfl) <;> rfl

theorem acceptsFrom_fraction {state : NumberParsingState} (hpoint : next state 0x2E = digitsAfterPoints)
    {ds exponent : List UInt8} (hds : AllDigits ds) (h : LooseExponent exponent) :
    AcceptsFrom state (0x2E :: ds ++ exponent) := by
  rw [List.cons_append, acceptsFrom_cons, hpoint]
  exact ⟨by decide, acceptsFrom_digitsAfterPoints.mpr ⟨ds, exponent, rfl, hds, h⟩⟩

theorem acceptsFrom_digits {token : List UInt8} : AcceptsFrom digits token ↔
    ∃ ds fraction exponent, token = ds ++ (fraction ++ exponent) ∧ AllDigits ds ∧ LooseFraction fraction ∧
      LooseExponent exponent := by
  constructor
  · intro h
    induction token with
    | nil => exact ⟨[], [], [], rfl, by simp [AllDigits], LooseFraction.none, LooseExponent.none⟩
    | cons c token ih =>
      obtain ⟨hc, h⟩ := acceptsFrom_cons.mp h
      rw [next_digits c hc] at h
      split at h
      · next hdigit =>
        obtain ⟨ds, fraction, exponent, rfl, hds, hfraction, hexponent⟩ := ih h
        exact ⟨c :: ds, fraction, exponent, rfl, List.forall_mem_cons.mpr ⟨hdigit, hds⟩, hfraction, hexponent⟩
      split at h
      · next hpoint =>
        obtain ⟨ds, exponent, rfl, hds, hexponent⟩ := acceptsFrom_digitsAfterPoints.mp h
        subst hpoint
        exact ⟨[], _ :: ds, exponent, rfl, by simp [AllDigits], LooseFraction.point hds, hexponent⟩
      split at h
      · next he =>
        exact ⟨[], [], _, rfl, by simp [AllDigits], LooseFraction.none, looseExponent_of_acceptsFrom_e he h⟩
      · exact absurd h not_acceptsFrom_invalid
  · rintro ⟨ds, fraction, exponent, rfl, hds, hfraction, hexponent⟩
    apply acceptsFrom_allDigits (by decide) hds
    cases hfraction with
    | none =>
      apply acceptsFrom_exponent rfl _ hexponent
      rintro c (rfl | rfl) <;> rfl
    | point hds' => exact acceptsFrom_fraction rfl hds' hexponent

theorem acceptsFrom_zeroFirst {token : List UInt8} : AcceptsFrom zeroFirst token ↔
    ∃ fraction exponent, token = fraction ++ exponent ∧ LooseFraction fraction ∧ LooseExponent exponent ∧
      (fraction = [] → exponent = []) := by
  constructor
  · intro h
    cases token with
    | nil => exact ⟨[], [], rfl, LooseFraction.none, LooseExponent.none, fun _ => rfl⟩
    | cons c token =>
      obtain ⟨hc, h⟩ := acceptsFrom_cons.mp h
      rw [next_zeroFirst c hc] at h
      split at h
      · next hpoint =>
        obtain ⟨ds, exponent, rfl, hds, hexponent⟩ := acceptsFrom_digitsAfterPoints.mp h
        subst hpoint
        exact ⟨_ :: ds, exponent, rfl, LooseFraction.point hds, hexponent, by simp⟩
      · exact absurd h not_acceptsFrom_invalid
  · rintro ⟨fraction, exponent, rfl, hfraction, hexponent, hzero⟩
    cases hfraction with
    | none =>
      rw [hzero rfl]
      exact acceptsFrom_nil.mpr rfl
    | point hds => exact acceptsFrom_fraction rfl hds hexponent

/-- A number without its sign. -/
theorem acceptsFrom_afterMinus {token : List UInt8} : AcceptsFrom afterMinus token ↔
    ∃ integer fraction exponent, token = integer ++ (fraction ++ exponent) ∧ IsInteger integer ∧
      LooseFraction fraction ∧ LooseExponent exponent ∧ (integer = [0x30] → fraction = [] → exponent = []) := by
  constructor
  · intro h
    cases token with
    | nil => exact absurd (acceptsFrom_nil.mp h) (by decide)
    | cons c token =>
      obtain ⟨hc, h⟩ := acceptsFrom_cons.mp h
      rw [next_afterMinus c hc] at h
      split at h
      · next hzero =>
        obtain ⟨fraction, exponent, rfl, hfraction, hexponent, hnone⟩ := acceptsFrom_zeroFirst.mp h
        subst hzero
        exact ⟨[0x30], fraction, exponent, rfl, IsInteger.zero, hfraction, hexponent, fun _ => hnone⟩
      split at h
      · next hzero hdigit =>
        obtain ⟨ds, fraction, exponent, rfl, hds, hfraction, hexponent⟩ := acceptsFrom_digits.mp h
        refine ⟨c :: ds, fraction, exponent, rfl, IsInteger.digits hdigit hzero hds, hfraction, hexponent, ?_⟩
        intro heq
        exact absurd (List.cons.inj heq).1 hzero
      · exact absurd h not_acceptsFrom_invalid
  · rintro ⟨integer, fraction, exponent, rfl, hinteger, hfraction, hexponent, hnone⟩
    cases hinteger with
    | zero =>
      rw [List.cons_append, List.nil_append, acceptsFrom_cons]
      exact ⟨by decide, acceptsFrom_zeroFirst.mpr ⟨fraction, exponent, rfl, hfraction, hexponent, hnone rfl⟩⟩
    | digits hd hzero hds =>
      have hc := digitChars_numberChars _ hd
      rw [List.cons_append, acceptsFrom_cons, next_afterMinus _ hc, if_neg hzero, if_pos hd]
      exact ⟨hc, acceptsFrom_digits.mpr ⟨_, fraction, exponent, rfl, hds, hfraction, hexponent⟩⟩

/-- The automaton accepts exactly the numbers. -/
theorem acceptsFrom_minus {token : List UInt8} : AcceptsFrom minus token ↔ IsNumber token := by
  have hunsigned : ∀ c ∈ numberChars, c ≠ 0x2D → next minus c = next afterMinus c := by
    intro c hc hne
    rw [next_minus c hc, if_neg hne]
  constructor
  · intro h
    cases token with
    | nil => exact absurd (acceptsFrom_nil.mp h) (by decide)
    | cons c token =>
      obtain ⟨hc, hrest⟩ := acceptsFrom_cons.mp h
      by_cases hminus : c = 0x2D
      · subst hminus
        obtain ⟨integer, fraction, exponent, rfl, hinteger, hfraction, hexponent, hnone⟩ :=
          acceptsFrom_afterMinus.mp hrest
        exact IsNumber.mk (Or.inr rfl) hinteger hfraction hexponent hnone
      · rw [hunsigned c hc hminus, ← and_iff_right (b := AcceptsFrom _ token) hc, ← acceptsFrom_cons] at hrest
        obtain ⟨integer, fraction, exponent, heq, hinteger, hfraction, hexponent, hnone⟩ :=
          acceptsFrom_afterMinus.mp hrest
        rw [heq]
        exact IsNumber.mk (Or.inl rfl) hinteger hfraction hexponent hnone
  · rintro ⟨hsign, hinteger, hfraction, hexponent, hnone⟩
    have hafter := acceptsFrom_afterMinus.mpr ⟨_, _, _, rfl, hinteger, hfraction, hexponent, hnone⟩
    rcases hsign with rfl | rfl
    · obtain ⟨d, ds, rfl⟩ := List.exists_cons_of_ne_nil hinteger.ne_nil
      have hd : d ∈ digitChars := hinteger.allDigits d List.mem_cons_self
      have hne : d ≠ 0x2D := by
        rintro rfl
        exact absurd hd (by decide)
      rw [List.nil_append, List.cons_append] at *
      obtain ⟨hc, hrest⟩ := acceptsFrom_cons.mp hafter
      rw [acceptsFrom_cons, hunsigned d hc hne]
      exact ⟨hc, hrest⟩
    · rw [List.cons_append, List.nil_append, acceptsFrom_cons]
      exact ⟨by decide, hafter⟩

end NumberParsingState

/-- `decode_number` reads the longest run of number characters, when it is a number. -/
theorem decodeNumber_eq_some_iff {data rest : List UInt8} {t : Tree} : decodeNumber data = some (t, rest) ↔
    ∃ token, data = token ++ rest ∧ t = .number token ∧ IsNumber token ∧ Avoids numberChars rest := by
  rw [decodeNumber, Option.map_eq_some_iff]
  constructor
  · rintro ⟨rest', hloop, heq⟩
    obtain ⟨rfl, rfl⟩ := Prod.mk.inj heq
    obtain ⟨token, rfl, hchars, havoids, haccepts⟩ := (decodeNumberLoop_eq_some_iff (by omega)).mp hloop
    refine ⟨token, rfl, ?_, acceptsFrom_minus.mp ⟨hchars, haccepts⟩, havoids⟩
    simp
  · rintro ⟨token, rfl, rfl, hnumber, havoids⟩
    obtain ⟨hchars, haccepts⟩ := acceptsFrom_minus.mpr hnumber
    refine ⟨rest, (decodeNumberLoop_eq_some_iff (by omega)).mpr ⟨token, rfl, hchars, havoids, haccepts⟩, ?_⟩
    simp

theorem IsNumber.chars {token : List UInt8} (h : IsNumber token) : ∀ b ∈ token, b ∈ numberChars :=
  (acceptsFrom_minus.mpr h).1

theorem IsNumber.ne_nil {token : List UInt8} (h : IsNumber token) : token ≠ [] := by
  cases h with
  | mk _ hinteger _ _ _ => simp [hinteger.ne_nil]

/-- What Crow takes for JSON. -/
def dialect : Dialect where
  IsNumber := IsNumber
  IsBody := IsBody
  number_ne_nil _ h := h.ne_nil
  number_chars _ h := h.chars
  body_enclosed _ h := h.enclosed

end SmartParking.Crow
