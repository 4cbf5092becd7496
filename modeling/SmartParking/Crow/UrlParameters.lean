import Mathlib.Data.List.TakeWhile
import SmartParking.Crow.Numbers
import SmartParking.Crow.TrieRules

/-! # Parameters in a url

What `<int>` takes of a url: a sign, if there is one, and all digits that follow, as long as
the integer has 64 bits. `<path>` takes the rest of a url.
-/
namespace SmartParking.Crow
open Foundation.JsonText
open Foundation.JsonNumber hiding IsNumber

theorem scanDigits_eq_some_iff {data : List UInt8} {n : ℕ} {rest : List UInt8} : scanDigits data = some (n, rest) ↔
    ∃ ds, data = ds ++ rest ∧ ds ≠ [] ∧ AllDigits ds ∧ Avoids digitChars rest ∧ digitsValue ds = n := by
  rw [scanDigits]
  constructor
  · intro h
    split at h
    · contradiction
    · next hne =>
      obtain ⟨rfl, rfl⟩ := Prod.mk.inj (Option.some.inj h)
      refine ⟨_, List.takeWhile_append_dropWhile.symm, hne, fun d hd => ?_, fun c hc => ?_, rfl⟩
      · exact (isDigit_iff d).mp (List.mem_takeWhile_imp hd)
      · have hnot := List.head?_dropWhile_not isDigit data
        rw [Option.mem_def.mp hc] at hnot
        rw [← isDigit_iff]
        simpa using hnot
  · rintro ⟨ds, rfl, hne, hds, hrest, rfl⟩
    have hall : ∀ d ∈ ds, isDigit d = true := fun d hd => (isDigit_iff d).mpr (hds d hd)
    have hnone : rest.takeWhile isDigit = [] ∧ rest.dropWhile isDigit = rest := by
      cases rest with
      | nil => exact ⟨rfl, rfl⟩
      | cons c rest =>
        have hc : isDigit c = false := by simpa [← isDigit_iff] using avoids_cons.mp hrest
        exact ⟨List.takeWhile_cons_of_neg (by simp [hc]), List.dropWhile_cons_of_neg (by simp [hc])⟩
    rw [List.takeWhile_append_of_pos hall, List.dropWhile_append_of_pos hall, hnone.1, hnone.2, List.append_nil,
      if_neg hne]

/-- A sign, if there is one, and digits. -/
inductive IsSignedText : List UInt8 → ℤ → Prop
  | unsigned {ds : List UInt8} (hne : ds ≠ []) (hds : AllDigits ds) : IsSignedText ds (digitsValue ds)
  | plus {ds : List UInt8} (hne : ds ≠ []) (hds : AllDigits ds) : IsSignedText (0x2B :: ds) (digitsValue ds)
  | minus {ds : List UInt8} (hne : ds ≠ []) (hds : AllDigits ds) : IsSignedText (0x2D :: ds) (-digitsValue ds)

theorem scanSigned_eq_some_iff {data : List UInt8} {n : ℤ} {rest : List UInt8} :
    scanSigned data = some (n, rest) ↔ ∃ text, data = text ++ rest ∧ IsSignedText text n ∧ Avoids digitChars rest := by
  constructor
  · intro h
    rw [scanSigned] at h
    split at h
    · next hc =>
      obtain ⟨⟨m, rest'⟩, hscan, heq⟩ := Option.map_eq_some_iff.mp h
      obtain ⟨rfl, rfl⟩ := Prod.mk.inj heq
      obtain ⟨ds, htail, hne, hds, hrest, rfl⟩ := scanDigits_eq_some_iff.mp hscan
      exact ⟨0x2D :: ds, by rw [eq_cons_of_deref hc (by decide), htail]; rfl, .minus hne hds, hrest⟩
    split at h
    · next hc =>
      obtain ⟨⟨m, rest'⟩, hscan, heq⟩ := Option.map_eq_some_iff.mp h
      obtain ⟨rfl, rfl⟩ := Prod.mk.inj heq
      obtain ⟨ds, htail, hne, hds, hrest, rfl⟩ := scanDigits_eq_some_iff.mp hscan
      exact ⟨0x2B :: ds, by rw [eq_cons_of_deref hc (by decide), htail]; rfl, .plus hne hds, hrest⟩
    · obtain ⟨⟨m, rest'⟩, hscan, heq⟩ := Option.map_eq_some_iff.mp h
      obtain ⟨rfl, rfl⟩ := Prod.mk.inj heq
      obtain ⟨ds, hdata, hne, hds, hrest, rfl⟩ := scanDigits_eq_some_iff.mp hscan
      exact ⟨ds, hdata, .unsigned hne hds, hrest⟩
  · rintro ⟨text, rfl, htext, hrest⟩
    rw [scanSigned]
    cases htext with
    | @unsigned ds hne hds =>
      obtain ⟨d, ds, rfl⟩ := List.exists_cons_of_ne_nil hne
      have hd : d ≠ 0x2D ∧ d ≠ 0x2B := by
        have hsigns : ∀ d ∈ digitChars, d ≠ 0x2D ∧ d ≠ 0x2B := by decide
        exact hsigns d (hds d List.mem_cons_self)
      have hscan := scanDigits_eq_some_iff.mpr ⟨d :: ds, rfl, hne, hds, hrest, rfl⟩
      rw [if_neg (by simpa using hd.1), if_neg (by simpa using hd.2), hscan]
      rfl
    | plus hne hds =>
      have hscan := scanDigits_eq_some_iff.mpr ⟨_, rfl, hne, hds, hrest, rfl⟩
      rw [List.cons_append, List.headD_cons, if_neg (by decide), if_pos rfl, List.tail_cons, hscan]
      rfl
    | minus hne hds =>
      have hscan := scanDigits_eq_some_iff.mpr ⟨_, rfl, hne, hds, hrest, rfl⟩
      rw [List.cons_append, List.headD_cons, if_pos rfl, List.tail_cons, hscan]
      rfl

/-- What a parameter `<int>` can stand for. -/
def IsIntText (text : List UInt8) (n : ℤ) : Prop := IsSignedText text n ∧ -2 ^ 63 ≤ n ∧ n < 2 ^ 63

/-- A signed text starts as `find` asks for. -/
theorem IsSignedText.head {text : List UInt8} {n : ℤ} (h : IsSignedText text n) (rest : List UInt8) :
    (isDigit ((text ++ rest).headD 0) || (text ++ rest).headD 0 == 0x2B || (text ++ rest).headD 0 == 0x2D) = true := by
  cases h with
  | unsigned hne hds =>
    obtain ⟨d, ds, rfl⟩ := List.exists_cons_of_ne_nil hne
    simp [(isDigit_iff d).mpr (hds d List.mem_cons_self)]
  | plus => rfl
  | minus => rfl

variable {D : Type} {strtod : List UInt8 → Option (D × List UInt8)}

theorem take_int_eq_some_iff {url : List UInt8} {params : RoutingParams D} {r : RoutingParams D × List UInt8} :
    ParamType.int.take strtod url params = some r ↔
      ∃ text n, url = text ++ r.2 ∧ IsIntText text n ∧ Avoids digitChars r.2 ∧
        r.1 = { params with intParams := params.intParams ++ [n] } := by
  constructor
  · intro h
    rw [ParamType.take] at h
    dsimp only at h
    split at h
    · rw [Option.bind_eq_bind, Option.bind_eq_some_iff] at h
      obtain ⟨⟨n, rest⟩, hscan, h⟩ := h
      dsimp only at h
      split at h
      · next hrange =>
        obtain rfl := Option.some.inj h
        obtain ⟨text, hurl, htext, hrest⟩ := scanSigned_eq_some_iff.mp hscan
        exact ⟨text, n, hurl, ⟨htext, hrange⟩, hrest, rfl⟩
      · contradiction
    · contradiction
  · rintro ⟨text, n, rfl, ⟨htext, hrange⟩, hrest, hparams⟩
    have hscan := scanSigned_eq_some_iff.mpr ⟨text, rfl, htext, hrest⟩
    rw [ParamType.take]
    dsimp only
    rw [if_pos (htext.head r.2), hscan, Option.bind_eq_bind, Option.bind_some]
    dsimp only
    rw [if_pos hrange, ← hparams]

theorem IsSignedText.unique {text : List UInt8} {n n' : ℤ} (h : IsSignedText text n) (h' : IsSignedText text n') :
    n = n' := by
  have hn := scanSigned_eq_some_iff.mpr ⟨text, (List.append_nil text).symm, h, by simp [Avoids]⟩
  have hn' := scanSigned_eq_some_iff.mpr ⟨text, (List.append_nil text).symm, h', by simp [Avoids]⟩
  rw [hn] at hn'
  exact (Prod.mk.inj (Option.some.inj hn')).1

theorem matchPieces_literal (key url : List UInt8) (params : RoutingParams D) :
    matchPieces strtod (key.map .byte) url params = if url = key then some params else none := by
  have hmatch := matchPieces_bytes strtod key [] url params
  rw [List.append_nil] at hmatch
  rw [hmatch, matchPieces]
  by_cases hprefix : key <+: url
  · obtain ⟨rest, rfl⟩ := hprefix
    simp
  · have hne : url ≠ key := fun heq => hprefix (heq ▸ List.prefix_refl key)
    rw [if_neg (by simpa using hprefix), if_neg hne]

/-- A rule that has no parameter matches its own url. -/
theorem matchUrl_literal {rule : List UInt8} (h : pieces 0 rule = some (rule.map .byte)) {url : List UInt8}
    {params : RoutingParams D} : matchUrl strtod rule url = some params ↔ url = rule ∧ params = .empty := by
  rw [matchUrl, h, Option.bind_eq_bind, Option.bind_some, matchPieces_literal]
  split
  · next heq => simp [heq, eq_comm]
  · next hne => simp [hne]

/-- A rule that has one `<int>` matches the urls that have an integer there. -/
theorem matchUrl_int {rule pre post : List UInt8}
    (h : pieces 0 rule = some (pre.map .byte ++ .param .int :: post.map .byte)) (hpost : Avoids digitChars post)
    {url : List UInt8} {params : RoutingParams D} : matchUrl strtod rule url = some params ↔
      ∃ text n, url = pre ++ text ++ post ∧ IsIntText text n ∧
        params = { RoutingParams.empty with intParams := [n] } := by
  rw [matchUrl, h, Option.bind_eq_bind, Option.bind_some, matchPieces_bytes]
  constructor
  · intro hmatch
    split at hmatch
    · next hprefix =>
      obtain ⟨rest, rfl⟩ := List.isPrefixOf_iff_prefix.mp hprefix
      rw [List.drop_left, matchPieces, Option.bind_eq_bind, Option.bind_eq_some_iff] at hmatch
      obtain ⟨⟨params', rest'⟩, htake, hmatch⟩ := hmatch
      obtain ⟨text, n, hurl, htext, -, hparams⟩ := take_int_eq_some_iff.mp htake
      dsimp only at hmatch hurl hparams
      rw [matchPieces_literal] at hmatch
      split at hmatch
      · next heq =>
        subst heq
        obtain rfl := Option.some.inj hmatch
        exact ⟨text, n, by rw [hurl, List.append_assoc], htext, hparams⟩
      · contradiction
    · contradiction
  · rintro ⟨text, n, rfl, htext, rfl⟩
    have hprefix : pre.isPrefixOf (pre ++ text ++ post) = true := by
      rw [List.append_assoc]
      exact List.isPrefixOf_iff_prefix.mpr (List.prefix_append pre _)
    have htake : ParamType.int.take strtod (text ++ post) .empty =
        some ({ RoutingParams.empty with intParams := [n] }, post) :=
      take_int_eq_some_iff.mpr ⟨text, n, rfl, htext, hpost, rfl⟩
    rw [if_pos hprefix, List.append_assoc, List.drop_left, matchPieces, htake, Option.bind_eq_bind, Option.bind_some]
    dsimp only
    rw [matchPieces_literal, if_pos rfl]

/-- A rule that ends in `<path>` matches the urls that go on there. -/
theorem matchUrl_path {rule pre : List UInt8} (h : pieces 0 rule = some (pre.map .byte ++ [.param .path]))
    {url : List UInt8} {params : RoutingParams D} : matchUrl strtod rule url = some params ↔
      ∃ path, url = pre ++ path ∧ path ≠ [] ∧ params = { RoutingParams.empty with stringParams := [path] } := by
  have htake : ∀ path : List UInt8, matchPieces strtod [.param .path] path .empty =
      if path ≠ [] then some { RoutingParams.empty with stringParams := [path] } else none := by
    intro path
    rw [matchPieces, ParamType.take]
    split <;> rfl
  rw [matchUrl, h, Option.bind_eq_bind, Option.bind_some, matchPieces_bytes]
  constructor
  · intro hmatch
    split at hmatch
    · next hprefix =>
      obtain ⟨path, rfl⟩ := List.isPrefixOf_iff_prefix.mp hprefix
      rw [List.drop_left, htake] at hmatch
      split at hmatch
      · next hne => exact ⟨path, rfl, hne, (Option.some.inj hmatch).symm⟩
      · contradiction
    · contradiction
  · rintro ⟨path, rfl, hne, rfl⟩
    rw [if_pos (List.isPrefixOf_iff_prefix.mpr (List.prefix_append pre path)), List.drop_left, htake, if_pos hne]

end SmartParking.Crow
