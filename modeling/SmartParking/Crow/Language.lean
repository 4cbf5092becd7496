import SmartParking.Crow.Numbers
import SmartParking.Foundation.JsonTree

/-! # The language Crow reads

`load` accepts a text exactly when the part of it before the first 0 byte is a document of
Crow's dialect whose containers nest at most 5000 deep, and returns its only reading.
-/
namespace SmartParking.Crow
open Foundation.JsonText Foundation.JsonString

section Decoders
variable {α : Type} {decode : List UInt8 → Option (α × List UInt8)} {P : List UInt8 → α → Prop}

/-- What is decoded stands at the start of the text. -/
def Sound (decode : List UInt8 → Option (α × List UInt8)) (P : List UInt8 → α → Prop) : Prop :=
  ∀ ⦃data rest : List UInt8⦄ ⦃a : α⦄, decode data = some (a, rest) → ∃ text, data = text ++ rest ∧ P text a

/-- What stands at the start of the text is decoded, up to its end. -/
def Complete (decode : List UInt8 → Option (α × List UInt8)) (P : List UInt8 → α → Prop) : Prop :=
  ∀ ⦃text rest : List UInt8⦄ ⦃a : α⦄, P text a → EndsNumber rest → decode (text ++ rest) = some (a, rest)

theorem mem_spaces_iff (c : UInt8) : c ∈ spaces ↔ c = 0x20 ∨ c = 0x09 ∨ c = 0x0D ∨ c = 0x0A := by
  simp [spaces]

theorem wsSkip_append {w s : List UInt8} (hw : IsBlank w) (hs : Avoids spaces s) : wsSkip (w ++ s) = s := by
  induction w with
  | nil =>
    cases s with
    | nil => rfl
    | cons c s => rw [List.nil_append, wsSkip, if_neg ((mem_spaces_iff c).not.mp (avoids_cons.mp hs))]
  | cons c w ih =>
    rw [List.cons_append, wsSkip, if_pos ((mem_spaces_iff c).mp (hw c List.mem_cons_self)),
      ih fun b hb => hw b (List.mem_cons_of_mem _ hb)]

theorem wsSkip_spec (data : List UInt8) : ∃ w, IsBlank w ∧ data = w ++ wsSkip data := by
  induction data with
  | nil => exact ⟨[], by simp [IsBlank], rfl⟩
  | cons c data ih =>
    rw [wsSkip]
    split
    · next hc =>
      obtain ⟨w, hw, hdata⟩ := ih
      refine ⟨c :: w, List.forall_mem_cons.mpr ⟨(mem_spaces_iff c).mpr hc, hw⟩, ?_⟩
      rw [List.cons_append, ← hdata]
    · exact ⟨[], by simp [IsBlank], rfl⟩

theorem decodeElements_sound (h : Sound decode P) {closing : UInt8} (hc : IsClosing closing) {rounds : ℕ}
    {data rest : List UInt8} {as : List α} (heq : decodeElements decode closing rounds data = some (as, rest)) :
    ∃ text, data = text ++ closing :: rest ∧ ∀ w, IsBlank w → Listed (Padded P) (w ++ text) as := by
  induction rounds generalizing data as with
  | zero => contradiction
  | succ rounds ih =>
    rw [decodeElements, Option.bind_eq_bind, Option.bind_eq_some_iff] at heq
    obtain ⟨⟨a, data₁⟩, hdecode, heq⟩ := heq
    obtain ⟨text, rfl, ha⟩ := h hdecode
    obtain ⟨w', hw', hskip⟩ := wsSkip_spec data₁
    dsimp only at heq
    split at heq
    · next hclosing =>
      obtain ⟨rfl, rfl⟩ := Prod.mk.inj (Option.some.inj heq)
      refine ⟨text ++ w', ?_, fun w hw => Listed.one (Padded.mk hw ha hw')⟩
      rw [List.append_assoc, ← eq_cons_of_deref hclosing hc.ne_zero, ← hskip]
    · rw [Option.bind_eq_bind, Option.bind_eq_some_iff] at heq
      obtain ⟨data₂, hconsume, heq⟩ := heq
      rw [Option.bind_eq_bind, Option.bind_eq_some_iff] at heq
      obtain ⟨⟨as', data₃⟩, hloop, heq⟩ := heq
      obtain ⟨rfl, rfl⟩ := Prod.mk.inj (Option.some.inj heq)
      obtain ⟨v, hv, hskip₂⟩ := wsSkip_spec data₂
      obtain ⟨text', htext', hlisted⟩ := ih hloop
      refine ⟨text ++ (w' ++ comma :: (v ++ text')), ?_, ?_⟩
      · rw [consume_eq_some hconsume (by decide), hskip₂, htext'] at hskip
        rw [hskip]
        simp only [List.append_assoc, List.cons_append]
      · intro w hw
        have hcons := Listed.cons (Padded.mk hw ha hw') (hlisted v hv)
        simpa only [List.append_assoc, List.cons_append] using hcons

/-- A padded thing is decoded between the blanks that the two calls of `ws_skip` skip. -/
theorem decode_padded (hsolid : Solid P) (h : Complete decode P) {text s : List UInt8} {a : α} {c : UInt8}
    (hp : Padded P text a) (hc : EndsValue (c :: s)) :
    ∃ data, decode (wsSkip (text ++ c :: s)) = some (a, data) ∧ wsSkip data = c :: s := by
  obtain @⟨w, text, w', _, hw, ha, hw'⟩ := hp
  obtain ⟨b, l, hb, rfl⟩ := hsolid ha
  refine ⟨w' ++ c :: s, ?_, wsSkip_append hw' hc.2⟩
  have hstart : wsSkip (w ++ (b :: l ++ (w' ++ c :: s))) = b :: l ++ (w' ++ c :: s) :=
    wsSkip_append hw (avoids_cons.mpr (not_space hb))
  simp only [List.append_assoc]
  rw [hstart]
  exact h ha (endsNumber_blank hw' hc.1)

theorem decodeElements_complete (hsolid : Solid P) (h : Complete decode P) {closing : UInt8}
    (hc : IsClosing closing) {text : List UInt8} {as : List α} (hlisted : Listed (Padded P) text as)
    {rounds : ℕ} (hrounds : as.length ≤ rounds) (rest : List UInt8) :
    decodeElements decode closing rounds (wsSkip (text ++ closing :: rest)) = some (as, rest) := by
  induction hlisted generalizing rounds with
  | one hp =>
    obtain ⟨rounds, rfl⟩ : ∃ n, rounds = n + 1 := ⟨rounds - 1, by simp at hrounds; omega⟩
    obtain ⟨data, hdecode, hskip⟩ := decode_padded hsolid h hp (hc.endsValue rest)
    rw [decodeElements, hdecode, Option.bind_eq_bind, Option.bind_some]
    dsimp only
    rw [hskip, deref_cons, if_pos rfl, List.tail_cons]
  | cons hp _ ih =>
    obtain ⟨rounds, rfl⟩ : ∃ n, rounds = n + 1 := ⟨rounds - 1, by simp at hrounds; omega⟩
    obtain ⟨data, hdecode, hskip⟩ := decode_padded hsolid h hp (endsValue_comma _)
    rw [List.append_assoc, List.cons_append, decodeElements, hdecode, Option.bind_eq_bind, Option.bind_some]
    dsimp only
    rw [hskip, deref_cons, if_neg hc.ne_comma.symm, consume_cons, Option.bind_eq_bind, Option.bind_some,
      ih (by simpa using hrounds), Option.bind_eq_bind, Option.bind_some]

theorem Listed.length_le (hsolid : Solid P) {text : List UInt8} {as : List α} (h : Listed (Padded P) text as) :
    as.length ≤ text.length := by
  have hpos : ∀ text a, Padded P text a → 0 < text.length := by
    rintro _ _ ⟨_, ha, _⟩
    obtain ⟨b, l, -, rfl⟩ := hsolid ha
    simp only [List.length_append, List.length_cons]
    omega
  induction h with
  | one hp => exact hpos _ _ hp
  | cons hp _ ih =>
    rw [List.length_cons, List.length_append, List.length_cons]
    omega

/-- Between the two bytes that enclose a container there are blanks, or there is a list. -/
theorem decodeContainer_sound (h : Sound decode P) {opening closing : UInt8} (hopening : opening ≠ 0)
    (hc : IsClosing closing) {make : List α → Tree} {depth : ℕ} {data rest : List UInt8} {t : Tree}
    (heq : decodeContainer decode opening closing make depth data = some (t, rest)) :
    depth ≤ maxDepth ∧ ∃ inner, data = opening :: (inner ++ [closing]) ++ rest ∧
      (IsBlank inner ∧ t = make [] ∨ ∃ as, Listed (Padded P) inner as ∧ t = make as) := by
  rw [decodeContainer, Option.bind_eq_bind, Option.bind_eq_some_iff] at heq
  obtain ⟨data₁, hconsume, heq⟩ := heq
  obtain rfl := consume_eq_some hconsume hopening
  obtain ⟨w, hw, hskip⟩ := wsSkip_spec data₁
  split at heq
  · contradiction
  next hdepth =>
  refine ⟨by omega, ?_⟩
  dsimp only at heq
  split at heq
  · next hclosing =>
    obtain ⟨rfl, rfl⟩ := Prod.mk.inj (Option.some.inj heq)
    refine ⟨w, ?_, Or.inl ⟨hw, rfl⟩⟩
    rw [eq_cons_of_deref hclosing hc.ne_zero] at hskip
    simpa using hskip
  · rw [Option.bind_eq_bind, Option.bind_eq_some_iff] at heq
    obtain ⟨⟨as, data₂⟩, hloop, heq⟩ := heq
    obtain ⟨rfl, rfl⟩ := Prod.mk.inj (Option.some.inj heq)
    obtain ⟨text, htext, hlisted⟩ := decodeElements_sound h hc hloop
    refine ⟨w ++ text, ?_, Or.inr ⟨as, hlisted w hw, rfl⟩⟩
    rw [htext] at hskip
    simpa using hskip

theorem decodeContainer_blank {opening closing : UInt8} (hc : IsClosing closing) {make : List α → Tree} {depth : ℕ}
    (hdepth : depth ≤ maxDepth) {w : List UInt8} (hw : IsBlank w) (rest : List UInt8) :
    decodeContainer decode opening closing make depth (opening :: (w ++ [closing]) ++ rest) = some (make [], rest) := by
  simp only [List.append_assoc, List.cons_append, List.nil_append]
  rw [decodeContainer, consume_cons, Option.bind_eq_bind, Option.bind_some, if_neg (by omega),
    wsSkip_append hw (hc.endsValue rest).2]
  simp only [deref_cons, if_true, List.tail_cons]

theorem decodeContainer_listed (hsolid : Solid P) (h : Complete decode P) {opening closing : UInt8}
    (hc : IsClosing closing) {make : List α → Tree} {depth : ℕ} (hdepth : depth ≤ maxDepth) {text : List UInt8}
    {as : List α} (hlisted : Listed (Padded P) text as) (rest : List UInt8) :
    decodeContainer decode opening closing make depth (opening :: (text ++ [closing]) ++ rest) =
      some (make as, rest) := by
  obtain ⟨w, b, l, hw, hb, htext⟩ := hlisted.solid hsolid
  have hstart : deref (wsSkip (text ++ closing :: rest)) = b := by
    rw [htext, List.append_assoc, List.cons_append, wsSkip_append hw (avoids_cons.mpr (not_space hb)), deref_cons]
  have hne : deref (wsSkip (text ++ closing :: rest)) ≠ closing := by
    rw [hstart]
    rintro rfl
    exact hb hc.stops
  have hlength := Listed.length_le hsolid hlisted
  simp only [List.append_assoc, List.cons_append, List.nil_append]
  rw [decodeContainer, consume_cons, Option.bind_eq_bind, Option.bind_some, if_neg (by omega)]
  dsimp only
  rw [if_neg hne, decodeElements_complete hsolid h hc hlisted (by simp; omega)]
  rfl

end Decoders

section Containers
variable {dv : ℕ → List UInt8 → Option (Tree × List UInt8)} {P : List UInt8 → Tree → Prop} {depth : ℕ}

theorem decodeMember_sound (h : Sound (dv (depth + 1)) P) : Sound (decodeMember dv depth) (IsMember dialect P) := by
  intro data rest member heq
  rw [decodeMember, Option.bind_eq_bind, Option.bind_eq_some_iff] at heq
  obtain ⟨⟨key, data₁⟩, hkey, heq⟩ := heq
  obtain ⟨rfl, hbody⟩ := decodeString_eq_some_iff.mp hkey
  rw [Option.bind_eq_bind, Option.bind_eq_some_iff] at heq
  obtain ⟨data₂, hconsume, heq⟩ := heq
  rw [Option.bind_eq_bind, Option.bind_eq_some_iff] at heq
  obtain ⟨⟨v, data₃⟩, hvalue, heq⟩ := heq
  obtain ⟨rfl, rfl⟩ := Prod.mk.inj (Option.some.inj heq)
  obtain ⟨text, htext, hv⟩ := h hvalue
  obtain ⟨w, hw, hskip⟩ := wsSkip_spec data₁
  obtain ⟨w', hw', hskip'⟩ := wsSkip_spec data₂
  rw [consume_eq_some hconsume (by decide), hskip', htext] at hskip
  refine ⟨_, ?_, IsMember.mk hbody hw hw' hv⟩
  rw [hskip]
  simp only [List.append_assoc, List.cons_append]

theorem decodeMember_complete (hsolid : Solid P) (h : Complete (dv (depth + 1)) P) :
    Complete (decodeMember dv depth) (IsMember dialect P) := by
  rintro _ rest _ ⟨hbody, hw, hw', hv⟩ hends
  obtain ⟨b, l, hb, rfl⟩ := hsolid hv
  simp only [List.append_assoc, List.cons_append]
  rw [decodeMember, decodeString_eq_some_iff.mpr ⟨rfl, hbody⟩, Option.bind_eq_bind, Option.bind_some]
  dsimp only
  rw [wsSkip_append hw (avoids_cons.mpr (by decide)), consume_cons, Option.bind_eq_bind, Option.bind_some,
    wsSkip_append hw' (avoids_cons.mpr (not_space hb)), ← List.cons_append, h hv hends]
  rfl

theorem decodeList_sound (h : Sound (dv (depth + 1)) P) {data rest : List UInt8} {t : Tree}
    (heq : decodeList dv depth data = some (t, rest)) :
    depth ≤ maxDepth ∧ ∃ text, data = text ++ rest ∧ IsContainer dialect P text t := by
  obtain ⟨hdepth, inner, rfl, hinner⟩ := decodeContainer_sound h (by decide) (Or.inl rfl) heq
  refine ⟨hdepth, _, rfl, ?_⟩
  rcases hinner with ⟨hw, rfl⟩ | ⟨items, hitems, rfl⟩
  · exact IsContainer.emptyArray hw
  · exact IsContainer.array hitems

theorem decodeObject_sound (h : Sound (dv (depth + 1)) P) {data rest : List UInt8} {t : Tree}
    (heq : decodeObject dv depth data = some (t, rest)) :
    depth ≤ maxDepth ∧ ∃ text, data = text ++ rest ∧ IsContainer dialect P text t := by
  obtain ⟨hdepth, inner, rfl, hinner⟩ :=
    decodeContainer_sound (decodeMember_sound h) (by decide) (Or.inr rfl) heq
  refine ⟨hdepth, _, rfl, ?_⟩
  rcases hinner with ⟨hw, rfl⟩ | ⟨members, hmembers, rfl⟩
  · exact IsContainer.emptyObject hw
  · exact IsContainer.object hmembers

/-- Which of the two functions a container is read by depends on its first byte. -/
theorem decodeContainers_complete (hsolid : Solid P) (h : Complete (dv (depth + 1)) P) (hdepth : depth ≤ maxDepth)
    {text : List UInt8} {t : Tree} (hc : IsContainer dialect P text t) (rest : List UInt8) :
    deref text = openBracket ∧ decodeList dv depth (text ++ rest) = some (t, rest) ∨
      deref text = openBrace ∧ decodeObject dv depth (text ++ rest) = some (t, rest) := by
  cases hc with
  | emptyArray hw => exact Or.inl ⟨rfl, decodeContainer_blank (Or.inl rfl) hdepth hw rest⟩
  | array hitems => exact Or.inl ⟨rfl, decodeContainer_listed hsolid h (Or.inl rfl) hdepth hitems rest⟩
  | emptyObject hw => exact Or.inr ⟨rfl, decodeContainer_blank (Or.inr rfl) hdepth hw rest⟩
  | object hmembers =>
    exact Or.inr ⟨rfl, decodeContainer_listed IsMember.solid (decodeMember_complete hsolid h) (Or.inr rfl)
      hdepth hmembers rest⟩

end Containers

theorem decodeWord_eq_some_iff {word data rest : List UInt8} {t t' : Tree} :
    decodeWord word t data = some (t', rest) ↔ data = word ++ rest ∧ t' = t := by
  rw [decodeWord]
  constructor
  · intro h
    split at h
    · next hprefix =>
      obtain ⟨rfl, rfl⟩ := Prod.mk.inj (Option.some.inj h)
      obtain ⟨rest, rfl⟩ := List.isPrefixOf_iff_prefix.mp hprefix
      simp
    · contradiction
  · rintro ⟨rfl, rfl⟩
    simp

theorem decodeValue_leaf {rounds depth : ℕ} {text rest : List UInt8} {t : Tree} (h : IsLeaf dialect text t)
    (hends : EndsNumber rest) : decodeValue (rounds + 1) depth (text ++ rest) = some (t, rest) := by
  have hword : ∀ word t, decodeWord word t (word ++ rest) = some (t, rest) :=
    fun _ _ => decodeWord_eq_some_iff.mpr ⟨rfl, rfl⟩
  rw [decodeValue]
  cases h with
  | null => exact hword nullText .null
  | bool b =>
    cases b with
    | false => exact hword falseText (.bool false)
    | true => exact hword trueText (.bool true)
  | number h =>
    obtain ⟨c, l, rfl⟩ := List.exists_cons_of_ne_nil (dialect.number_ne_nil _ h)
    obtain ⟨-, hbracket, hbrace, hn, ht, hf, hquote⟩ :=
      numberChars_start c (dialect.number_chars _ h c List.mem_cons_self)
    rw [List.cons_append, deref_cons, if_neg hbracket, if_neg hbrace, if_neg hquote, if_neg ht, if_neg hf,
      if_neg hn]
    exact decodeNumber_eq_some_iff.mpr ⟨_, rfl, rfl, h, hends⟩
  | string h =>
    have hstring : decodeString (quoted _ ++ rest) = some (_, rest) := decodeString_eq_some_iff.mpr ⟨rfl, h⟩
    rw [hstring]
    rfl

/-- Values that nest as deep as the depth that is left allows are decoded. -/
theorem decodeValue_complete {n rounds depth : ℕ} (hrounds : n < rounds) (hdepth : depth + 2 * n ≤ maxDepth) :
    Complete (decodeValue rounds depth) (IsValue dialect n) := by
  induction n generalizing rounds depth with
  | zero =>
    obtain ⟨rounds, rfl⟩ : ∃ m, rounds = m + 1 := ⟨rounds - 1, by omega⟩
    exact fun text rest t h hends => decodeValue_leaf h hends
  | succ n ih =>
    obtain ⟨rounds, rfl⟩ : ∃ m, rounds = m + 1 := ⟨rounds - 1, by omega⟩
    intro text rest t h hends
    rcases h with h | h
    · exact decodeValue_leaf h hends
    · have hinner : Complete (decodeValue rounds (depth + 1 + 1)) (IsValue dialect n) :=
        ih (by omega) (by omega)
      obtain ⟨b, l, rfl, -, -⟩ := h.start
      rw [decodeValue]
      rcases decodeContainers_complete (IsValue.solid n) hinner (by omega) h rest with ⟨hb, hread⟩ | ⟨hb, hread⟩
      · rw [deref_cons] at hb
        rw [List.cons_append, deref_cons, if_pos hb]
        exact hread
      · rw [deref_cons] at hb
        subst hb
        exact hread

/-- Only values that nest at most as deep as the depth that is left allows are decoded. -/
theorem decodeValue_sound {n rounds depth : ℕ} (hdepth : maxDepth ≤ depth + 2 * n) :
    Sound (decodeValue rounds depth) (IsValue dialect n) := by
  induction rounds generalizing n depth with
  | zero =>
    intro data rest t h
    contradiction
  | succ rounds ih =>
    intro data rest t h
    -- at depths where no container fits, `n - 1` is 0 and stands for nothing
    have hinner : Sound (decodeValue rounds (depth + 1 + 1)) (IsValue dialect (n - 1)) := ih (by omega)
    have hcontainer : (depth + 1 ≤ maxDepth ∧
          ∃ text, data = text ++ rest ∧ IsContainer dialect (IsValue dialect (n - 1)) text t) →
        ∃ text, data = text ++ rest ∧ IsValue dialect n text t := by
      rintro ⟨hlt, text, htext, hc⟩
      obtain ⟨m, rfl⟩ : ∃ m, n = m + 1 := ⟨n - 1, by omega⟩
      exact ⟨text, htext, Or.inr hc⟩
    have hleaf : ∀ text, data = text ++ rest → IsLeaf dialect text t →
        ∃ text, data = text ++ rest ∧ IsValue dialect n text t :=
      fun text htext hl => ⟨text, htext, hl.value n⟩
    rw [decodeValue] at h
    split at h
    · exact hcontainer (decodeList_sound hinner h)
    split at h
    · exact hcontainer (decodeObject_sound hinner h)
    split at h
    · obtain ⟨⟨body, rest'⟩, hstring, heq⟩ := Option.map_eq_some_iff.mp h
      obtain ⟨rfl, rfl⟩ := Prod.mk.inj heq
      obtain ⟨htext, hbody⟩ := decodeString_eq_some_iff.mp hstring
      exact hleaf _ htext (IsLeaf.string hbody)
    split at h
    · obtain ⟨htext, rfl⟩ := decodeWord_eq_some_iff.mp h
      exact hleaf _ htext (IsLeaf.bool true)
    split at h
    · obtain ⟨htext, rfl⟩ := decodeWord_eq_some_iff.mp h
      exact hleaf _ htext (IsLeaf.bool false)
    split at h
    · obtain ⟨htext, rfl⟩ := decodeWord_eq_some_iff.mp h
      exact hleaf _ htext IsLeaf.null
    · obtain ⟨token, htext, rfl, hnumber, -⟩ := decodeNumber_eq_some_iff.mp h
      exact hleaf _ htext (IsLeaf.number hnumber)

theorem avoids_of_deref {C rest : List UInt8} (h : deref rest = 0) (hC : 0 ∉ C) : Avoids C rest := by
  cases rest with
  | nil => simp [Avoids]
  | cons c rest =>
    obtain rfl : c = 0 := h
    exact avoids_cons.mpr hC

theorem load_iff_exists (data : List UInt8) (t : Tree) : load data = some t ↔
    ∃ text rest, data = text ++ rest ∧ deref rest = 0 ∧ IsDocument dialect 5000 text t := by
  rw [load, Option.bind_eq_bind, Option.bind_eq_some_iff]
  constructor
  · rintro ⟨⟨ret, data'⟩, hvalue, h⟩
    obtain ⟨w, hw, hskip⟩ := wsSkip_spec data
    obtain ⟨w', hw', hskip'⟩ := wsSkip_spec data'
    obtain ⟨text, htext, hv⟩ := decodeValue_sound (n := 5000) (by decide) hvalue
    dsimp only at h
    split at h
    · contradiction
    · next hend =>
      obtain rfl := Option.some.inj h
      refine ⟨w ++ (text ++ w'), wsSkip data', ?_, not_ne_iff.mp hend, Padded.mk hw hv hw'⟩
      calc
        data = w ++ (text ++ data') := by rw [← htext, ← hskip]
        _ = w ++ (text ++ w') ++ wsSkip data' := by rw [List.append_assoc, List.append_assoc, ← hskip']
  · rintro ⟨text, rest, rfl, hend, hdocument⟩
    obtain @⟨w, text, w', _, hw, hv, hw'⟩ := hdocument
    obtain ⟨b, l, hb, rfl⟩ := IsValue.solid 5000 hv
    have hstart : wsSkip (w ++ (b :: l ++ w') ++ rest) = b :: l ++ (w' ++ rest) := by
      simp only [List.append_assoc]
      exact wsSkip_append hw (avoids_cons.mpr (not_space hb))
    have hends : EndsNumber (w' ++ rest) := endsNumber_blank hw' (avoids_of_deref hend (by decide))
    refine ⟨(t, w' ++ rest), ?_, ?_⟩
    · rw [hstart]
      exact decodeValue_complete (by decide) (by decide) hv hends
    · dsimp only
      rw [wsSkip_append hw' (avoids_of_deref hend (by decide)), if_neg (not_not.mpr hend)]

/-- The part of a text before its first 0 byte. -/
def cString (data : List UInt8) : List UInt8 := data.takeWhile (· != 0)

theorem cString_append {text rest : List UInt8} (htext : ∀ b ∈ text, b ≠ 0) (hrest : deref rest = 0) :
    cString (text ++ rest) = text := by
  have hnil : rest.takeWhile (· != 0) = [] := by
    cases rest with
    | nil => rfl
    | cons c rest =>
      obtain rfl : c = 0 := hrest
      rfl
  rw [cString, List.takeWhile_append_of_pos (by simpa using htext), hnil, List.append_nil]

theorem IsBody.ne_zero {body : List UInt8} (h : IsBody body) : ∀ b ∈ body, b ≠ 0 := by
  induction h with
  | nil => simp
  | raw _ _ hzero _ ih => exact List.forall_mem_cons.mpr ⟨hzero, ih⟩
  | short hletter _ ih =>
    have hletters : ∀ b ∈ escapeLetters, b ≠ 0 := by decide
    simp only [List.forall_mem_cons]
    exact ⟨by decide, hletters _ hletter, ih⟩
  | unit h₁ h₂ h₃ h₄ _ ih =>
    simp only [List.forall_mem_cons]
    exact ⟨by decide, by decide, (check_ne h₁).2.2, (check_ne h₂).2.2, (check_ne h₃).2.2, (check_ne h₄).2.2, ih⟩

/-- `load` accepts exactly the texts whose part before the first 0 byte is a document, and
returns what it reads as. -/
theorem load_eq_some_iff (data : List UInt8) (t : Tree) :
    load data = some t ↔ IsDocument dialect 5000 (cString data) t := by
  rw [load_iff_exists]
  constructor
  · rintro ⟨text, rest, rfl, hend, h⟩
    have hbytes : ∀ b ∈ text, b ≠ 0 := h.bytes (by decide) fun _ hbody => IsBody.ne_zero hbody
    rwa [cString_append hbytes hend]
  · intro h
    refine ⟨cString data, data.dropWhile (· != 0), List.takeWhile_append_dropWhile.symm, ?_, h⟩
    cases hrest : data.dropWhile (· != 0) with
    | nil => rfl
    | cons c rest =>
      have hhead : (data.dropWhile (· != 0)).head? = some c := by rw [hrest, List.head?_cons]
      have hfalse := List.head?_dropWhile_not (fun b : UInt8 => b != 0) data
      rw [hhead] at hfalse
      simpa [deref_cons] using hfalse

/-- Every text that `load` accepts has the tree that it returns as its only reading, in any
dialect, and a text that it refuses has no reading. -/
theorem load_exact (data : List UInt8) :
    (∃ t, load data = some t ∧ IsDocument dialect 5000 (cString data) t ∧
        ∀ D n t', IsDocument D n (cString data) t' → t' = t) ∨
      load data = none ∧ ∀ t, ¬ IsDocument dialect 5000 (cString data) t := by
  cases hload : load data with
  | some t =>
    have hdocument := (load_eq_some_iff data t).mp hload
    exact Or.inl ⟨t, rfl, hdocument, fun D n t' h' => h'.unique hdocument⟩
  | none =>
    refine Or.inr ⟨rfl, fun t ht => ?_⟩
    rw [(load_eq_some_iff data t).mpr ht] at hload
    contradiction

end SmartParking.Crow
