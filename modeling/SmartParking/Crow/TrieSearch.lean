import SmartParking.Crow.Trie

/-! # What the trie finds

The entries of a node are the ways down to the rules below it. Optimising the trie keeps
them, and a search finds the entry with the least index among those that match the url.
-/
namespace SmartParking.Crow
open Foundation.LeastCandidate

/-- What a url has to have to get to a node from its parent. -/
def Node.label (node : Node) : List Piece :=
  match node.param with
  | some type => [.param type]
  | none => node.key.map .byte

def under (label : List Piece) (entries : List (List Piece × ℕ)) : List (List Piece × ℕ) :=
  entries.map fun e => (label ++ e.1, e.2)

mutual

/-- The rules at a node and below it, with the pieces that lead to them. -/
def Node.entries : Node → List (List Piece × ℕ)
  | ⟨ruleIndex, _, _, children⟩ => (if ruleIndex = 0 then [] else [([], ruleIndex)]) ++ entriesBelow children

def entriesBelow : List Node → List (List Piece × ℕ)
  | [] => []
  | child :: children => under child.label child.entries ++ entriesBelow children

end

mutual

/-- To get to a child takes at least one piece. -/
def Node.Proper : Node → Prop
  | ⟨_, _, _, children⟩ => ProperBelow children

def ProperBelow : List Node → Prop
  | [] => True
  | child :: children => child.label ≠ [] ∧ child.Proper ∧ ProperBelow children

end

theorem Node.entries_eq (node : Node) :
    node.entries = (if node.ruleIndex = 0 then [] else [([], node.ruleIndex)]) ++ entriesBelow node.children := by
  cases node
  rw [Node.entries]

theorem Node.proper_iff (node : Node) : node.Proper ↔ ProperBelow node.children := by
  cases node
  rw [Node.Proper]

theorem mem_under {label : List Piece} {entries : List (List Piece × ℕ)} {e : List Piece × ℕ} :
    e ∈ under label entries ↔ ∃ p, (p, e.2) ∈ entries ∧ label ++ p = e.1 := by
  rw [under, List.mem_map]
  constructor
  · rintro ⟨e', he', rfl⟩
    exact ⟨e'.1, he', rfl⟩
  · rintro ⟨p, hp, heq⟩
    exact ⟨(p, e.2), hp, Prod.ext heq rfl⟩

theorem under_append (label label' : List Piece) (entries : List (List Piece × ℕ)) :
    under (label ++ label') entries = under label (under label' entries) := by
  simp [under, List.append_assoc]

theorem entriesBelow_append (children more : List Node) :
    entriesBelow (children ++ more) = entriesBelow children ++ entriesBelow more := by
  induction children with
  | nil => simp [entriesBelow]
  | cons child children ih => rw [List.cons_append, entriesBelow, ih, entriesBelow, List.append_assoc]

theorem mem_entriesBelow {children : List Node} {e : List Piece × ℕ} :
    e ∈ entriesBelow children ↔ ∃ child ∈ children, e ∈ under child.label child.entries := by
  induction children with
  | nil => simp [entriesBelow]
  | cons child children ih => rw [entriesBelow, List.mem_append, ih, List.exists_mem_cons_iff]

theorem properBelow_iff (children : List Node) :
    ProperBelow children ↔ ∀ child ∈ children, child.label ≠ [] ∧ child.Proper := by
  induction children with
  | nil => simp [ProperBelow]
  | cons child children ih => rw [ProperBelow, ih, List.forall_mem_cons, and_assoc]

theorem ne_nil_of_mem_entriesBelow {children : List Node} (h : ProperBelow children) {e : List Piece × ℕ}
    (he : e ∈ entriesBelow children) : e.1 ≠ [] := by
  obtain ⟨child, hchild, hmem⟩ := mem_entriesBelow.mp he
  obtain ⟨p, -, heq⟩ := mem_under.mp hmem
  rw [← heq]
  exact List.append_ne_nil_of_left_ne_nil ((properBelow_iff children).mp h child hchild).1 p

section Match
variable {D : Type} (strtod : List UInt8 → Option (D × List UInt8))

/-- The pieces match the whole url, one after the other, and leave these parameters. -/
def matchPieces : List Piece → List UInt8 → RoutingParams D → Option (RoutingParams D)
  | [], url, params => if url = [] then some params else none
  | .byte c :: rest, url, params =>
    match url with
    | [] => none
    | b :: url => if b = c then matchPieces rest url params else none
  | .param type :: rest, url, params => do
    let (params, url) ← type.take strtod url params
    matchPieces rest url params

theorem ParamType.take_nil (type : ParamType) (params : RoutingParams D) : type.take strtod [] params = none := by
  have hdigit : isDigit 0 = false := by decide
  cases type <;> simp [ParamType.take, hdigit]

theorem matchPieces_nil {ps : List Piece} (h : ps ≠ []) (params : RoutingParams D) :
    matchPieces strtod ps [] params = none := by
  cases ps with
  | nil => exact absurd rfl h
  | cons piece rest =>
    cases piece with
    | byte c => rfl
    | param type => rw [matchPieces, ParamType.take_nil]; rfl

theorem matchPieces_bytes (key : List UInt8) (ps : List Piece) (url : List UInt8) (params : RoutingParams D) :
    matchPieces strtod (key.map .byte ++ ps) url params =
      if key.isPrefixOf url then matchPieces strtod ps (url.drop key.length) params else none := by
  induction key generalizing url with
  | nil => simp
  | cons c key ih =>
    rw [List.map_cons, List.cons_append]
    cases url with
    | nil => rfl
    | cons b url =>
      rw [matchPieces]
      by_cases hb : b = c
      · subst hb
        simp [ih]
      · simp [hb, Ne.symm hb]

/-- A child takes of the url what its label matches. -/
theorem matchPieces_label (child : Node) (ps : List Piece) (url : List UInt8) (params : RoutingParams D) :
    matchPieces strtod (child.label ++ ps) url params =
      (child.take strtod url params).bind fun r => matchPieces strtod ps r.2 r.1 := by
  rw [Node.label, Node.take]
  cases child.param with
  | some type => rfl
  | none =>
    dsimp only
    rw [matchPieces_bytes]
    split <;> rfl

/-- The entry `n` matches and leaves the parameters `params'`. -/
def Matches (entries : List (List Piece × ℕ)) (url : List UInt8) (params : RoutingParams D) (n : ℕ)
    (params' : RoutingParams D) : Prop :=
  ∃ ps, (ps, n) ∈ entries ∧ matchPieces strtod ps url params = some params'

variable {strtod}

theorem matches_append {entries more : List (List Piece × ℕ)} {url : List UInt8} {params : RoutingParams D} {n : ℕ}
    {params' : RoutingParams D} : Matches strtod (entries ++ more) url params n params' ↔
      Matches strtod entries url params n params' ∨ Matches strtod more url params n params' := by
  simp only [Matches, List.mem_append, or_and_right, exists_or]

theorem matches_under {child : Node} {url : List UInt8} {params : RoutingParams D} {n : ℕ}
    {params' : RoutingParams D} : Matches strtod (under child.label child.entries) url params n params' ↔
      ∃ r, child.take strtod url params = some r ∧ Matches strtod child.entries r.2 r.1 n params' := by
  constructor
  · rintro ⟨ps, hmem, hmatch⟩
    obtain ⟨p, hp, rfl⟩ := mem_under.mp hmem
    rw [matchPieces_label, Option.bind_eq_some_iff] at hmatch
    obtain ⟨r, hr, hmatch⟩ := hmatch
    exact ⟨r, hr, p, hp, hmatch⟩
  · rintro ⟨r, hr, p, hp, hmatch⟩
    refine ⟨child.label ++ p, mem_under.mpr ⟨p, hp, rfl⟩, ?_⟩
    rw [matchPieces_label, hr]
    exact hmatch

theorem matches_end {node : Node} (h : node.Proper) {params : RoutingParams D} {n : ℕ} {params' : RoutingParams D}
    (hmatch : Matches strtod node.entries [] params n params') : n = node.ruleIndex ∧ n ≠ 0 := by
  obtain ⟨ps, hmem, hmatch⟩ := hmatch
  rw [Node.entries_eq] at hmem
  rcases List.mem_append.mp hmem with hown | hbelow
  · split at hown
    · exact absurd hown List.not_mem_nil
    · next hne =>
      obtain ⟨-, rfl⟩ := Prod.mk.inj (List.mem_singleton.mp hown)
      exact ⟨rfl, hne⟩
  · have hps := ne_nil_of_mem_entriesBelow (node.proper_iff.mp h) hbelow
    rw [matchPieces_nil strtod hps] at hmatch
    contradiction

/-- Where there is more to match, only what is below a node does. -/
theorem matches_below {node : Node} {url : List UInt8} (hurl : url ≠ []) {params : RoutingParams D} {n : ℕ}
    {params' : RoutingParams D} : Matches strtod (entriesBelow node.children) url params n params' ↔
      Matches strtod node.entries url params n params' := by
  rw [Node.entries_eq, matches_append]
  refine ⟨Or.inr, fun h => h.resolve_left ?_⟩
  rintro ⟨ps, hmem, hmatch⟩
  split at hmem
  · exact absurd hmem List.not_mem_nil
  · obtain ⟨rfl, -⟩ := Prod.mk.inj (List.mem_singleton.mp hmem)
    rw [matchPieces, if_neg hurl] at hmatch
    contradiction

mutual

/-- A search finds the least entry that matches. -/
theorem Node.find_finds (node : Node) (url : List UInt8) (params : RoutingParams D) (h : node.Proper) :
    Finds (Matches strtod node.entries url params) (node.find strtod url params) := by
  match node with
  | ⟨ruleIndex, key, param, children⟩ =>
    rw [Node.find]
    split
    · next hurl =>
      subst hurl
      constructor
      · intro hne
        refine ⟨[], ?_, rfl⟩
        rw [Node.entries_eq]
        exact List.mem_append_left _ (by simp [show ruleIndex ≠ 0 from hne])
      · intro n x hmatch
        obtain ⟨rfl, hne⟩ := matches_end h hmatch
        exact ⟨hne, Nat.le_refl _⟩
    · next hurl =>
      rw [Node.proper_iff] at h
      have hnone : Finds (fun _ (_ : RoutingParams D) => False) (0, .empty) := finds_none _ fun _ _ => not_false
      refine (findChildren_finds children url params h hnone).congr fun n x => ?_
      rw [false_or]
      have hbelow : Matches strtod (entriesBelow (Node.mk ruleIndex key param children).children) url params n x ↔ _ :=
        matches_below hurl
      exact hbelow

theorem findChildren_finds (children : List Node) (url : List UInt8) (params : RoutingParams D)
    (h : ProperBelow children) {Candidate : ℕ → RoutingParams D → Prop} {found : ℕ × RoutingParams D}
    (hfound : Finds Candidate found) :
    Finds (fun n x => Candidate n x ∨ Matches strtod (entriesBelow children) url params n x)
      (findChildren strtod children url params found) := by
  match children with
  | [] =>
    rw [findChildren]
    refine hfound.congr fun n x => ?_
    simp [Matches, entriesBelow]
  | child :: children =>
    rw [ProperBelow] at h
    rw [findChildren, entriesBelow]
    cases htake : child.take strtod url params with
    | none =>
      refine (findChildren_finds children url params h.2.2 hfound).congr fun n x => ?_
      simp [matches_append, matches_under, htake]
    | some r =>
      have hchild := hfound.lesser (Node.find_finds child r.2 r.1 h.2.1)
      refine (findChildren_finds children url params h.2.2 hchild).congr fun n x => ?_
      simp [matches_append, matches_under, htake, or_assoc]

end

end Match

end SmartParking.Crow
