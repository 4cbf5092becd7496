import SmartParking.Crow.TrieBuild

/-! # The rules of a trie

The rules that are added one after the other, and what a url finds: of the rules whose pieces
match it, the one with the least index.
-/
namespace SmartParking.Crow
open Foundation.LeastCandidate Server

/-- A rule with its index, as the routes of an app have to be. -/
structure Routable (rule : List UInt8 × ℕ) : Prop where
  slash : rule.1.head? = some 0x2F
  zero : (0 : UInt8) ∉ rule.1
  tags : (pieces 0 rule.1).isSome = true
  index : rule.2 ≠ 0

def addAll (head : Node) (rules : List (List UInt8 × ℕ)) : Option Node :=
  rules.foldlM (fun head rule => head.add rule.1 rule.2) head

/-- All calls of `add`, and then `validate`. -/
def buildTrie (rules : List (List UInt8 × ℕ)) : Option Node := do
  let head ← addAll .new rules
  head.validate

theorem pieces_ne_zero {skip : ℕ} {url : List UInt8} {ps : List Piece} (h : pieces skip url = some ps)
    (hzero : (0 : UInt8) ∉ url) : ∀ piece ∈ ps, piece ≠ .byte 0 := by
  induction url generalizing skip ps with
  | nil =>
    cases skip <;> obtain rfl := Option.some.inj h <;> exact fun piece hpiece => absurd hpiece List.not_mem_nil
  | cons c url ih =>
    obtain ⟨hc, hurl⟩ := not_or.mp (List.mem_cons.not.mp hzero)
    cases skip with
    | succ skip => exact ih h hurl
    | zero =>
      rw [pieces] at h
      split at h
      · simp only [Option.bind_eq_bind, Option.bind_eq_some_iff, Option.some_inj] at h
        obtain ⟨x, -, rest, hrest, rfl⟩ := h
        exact List.forall_mem_cons.mpr ⟨Piece.noConfusion, ih hrest hurl⟩
      · simp only [Option.bind_eq_bind, Option.bind_eq_some_iff, Option.some_inj] at h
        obtain ⟨rest, hrest, rfl⟩ := h
        exact List.forall_mem_cons.mpr ⟨fun heq => hc (Piece.byte.inj heq).symm, ih hrest hurl⟩

theorem pieces_of_slash {url : List UInt8} {ps : List Piece} (h : pieces 0 url = some ps)
    (hslash : url.head? = some 0x2F) : ∃ rest, ps = .byte 0x2F :: rest := by
  cases url with
  | nil => contradiction
  | cons c url =>
    obtain rfl := Option.some.inj hslash
    have hc : (0x2F : UInt8) ≠ 0x3C := by decide
    rw [pieces, if_neg hc, Option.bind_eq_bind, Option.bind_eq_some_iff] at h
    obtain ⟨rest, -, h⟩ := h
    exact ⟨rest, (Option.some.inj h).symm⟩

theorem Routable.exists_pieces {rule : List UInt8 × ℕ} (h : Routable rule) :
    ∃ rest, pieces 0 rule.1 = some (.byte 0x2F :: rest) ∧ ∀ piece ∈ Piece.byte 0x2F :: rest, piece ≠ .byte 0 := by
  obtain ⟨ps, hps⟩ := Option.isSome_iff_exists.mp h.tags
  obtain ⟨rest, rfl⟩ := pieces_of_slash hps h.slash
  exact ⟨rest, hps, pieces_ne_zero hps h.zero⟩

/-- The head of a trie whose rules start with a slash. -/
structure Rooted (head : Node) : Prop where
  plain : head.Plain
  ruleIndex : head.ruleIndex = 0
  param : head.param = none
  children : ∀ child ∈ head.children, child.label = [.byte 0x2F]

theorem rooted_new : Rooted .new := by
  refine ⟨(Node.plain_iff _).mpr ?_, rfl, rfl, ?_⟩ <;> simp [Node.new]

theorem Rooted.insert {head head' : Node} (h : Rooted head) {n : ℕ} (hn : n ≠ 0) {rest : List Piece}
    (hps : ∀ piece ∈ Piece.byte 0x2F :: rest, piece ≠ .byte 0)
    (hinsert : head.insert n (.byte 0x2F :: rest) = some head') : Rooted head' := by
  have hins := Node.insert_inserted hn hps h.plain hinsert
  obtain ⟨hpiece, hrest⟩ := List.forall_mem_cons.mp hps
  have hlabel : (Piece.byte 0x2F).newNode.label = [Piece.byte 0x2F] := Piece.IsFor.label ⟨rfl, rfl⟩
  have hchildren := (Node.plain_iff _).mp h.plain
  rcases Node.insert_cons h.plain hpiece n rest with ⟨pre, child, post, hsplit, hchild, heq⟩ | ⟨-, heq⟩
  · rw [heq, Option.map_eq_some_iff] at hinsert
    obtain ⟨child', hchild', rfl⟩ := hinsert
    have hmem : child ∈ head.children := by simp [hsplit]
    have hins' := Node.insert_inserted hn hrest (hchildren.2 child hmem).2 hchild'
    have hold := h.children
    rw [hsplit] at hold
    refine ⟨hins.plain, h.ruleIndex, h.param, fun c hc => ?_⟩
    rcases List.mem_append.mp hc with hpre | hc
    · exact hold c (List.mem_append_left _ hpre)
    rcases List.mem_cons.mp hc with rfl | hpost
    · exact hins'.label.trans hchild
    · exact hold c (List.mem_append_right _ (List.mem_cons_of_mem _ hpost))
  · rw [heq, Option.map_eq_some_iff] at hinsert
    obtain ⟨child', hchild', rfl⟩ := hinsert
    have hins' := Node.insert_inserted hn hrest (Piece.byte 0x2F).plain_newNode hchild'
    refine ⟨hins.plain, h.ruleIndex, h.param, fun c hc => ?_⟩
    rcases List.mem_append.mp hc with hold | hnew
    · exact h.children c hold
    · rw [List.mem_singleton.mp hnew]
      exact hins'.label.trans hlabel

/-- A rooted head is simple. -/
theorem Rooted.validate {head : Node} (h : Rooted head) : head.validate.isSome = true := by
  have hlabels : head.children.map Node.label = List.replicate head.children.length [Piece.byte 0x2F] :=
    List.eq_replicate_iff.mpr ⟨List.length_map _, by simpa using h.children⟩
  have hnodup := ((Node.plain_iff _).mp h.plain).1
  rw [hlabels, List.nodup_replicate] at hnodup
  have hparam : ∀ child ∈ head.children, child.param = none := by
    intro child hchild
    have hlabel := h.children child hchild
    cases hparam : child.param with
    | none => rfl
    | some type => simp [Node.label, hparam] at hlabel
  have hsimple := head.isSimpleNode_iff.mpr ⟨h.ruleIndex, by omega, h.param, hparam⟩
  rw [Node.validate, if_pos hsimple]
  rfl

theorem Node.add_eq {head : Node} {url : List UInt8} {ps : List Piece} (h : pieces 0 url = some ps) (n : ℕ) :
    head.add url n = head.insert n ps := by
  rw [Node.add, h]
  rfl

/-- The entries after all calls of `add`. -/
theorem addAll_entries {rules : List (List UInt8 × ℕ)} (hrules : ∀ rule ∈ rules, Routable rule) {head head' : Node}
    (hhead : Rooted head) (h : addAll head rules = some head') :
    Rooted head' ∧ ∀ ps n, (ps, n) ∈ head'.entries ↔
      (ps, n) ∈ head.entries ∨ ∃ rule ∈ rules, pieces 0 rule.1 = some ps ∧ rule.2 = n := by
  induction rules generalizing head with
  | nil =>
    obtain rfl := Option.some.inj h
    simp [hhead]
  | cons rule rules ih =>
    obtain ⟨hrule, hrest⟩ := List.forall_mem_cons.mp hrules
    obtain ⟨rest, hpieces, hps⟩ := hrule.exists_pieces
    rw [addAll, List.foldlM_cons, Option.bind_eq_bind, Option.bind_eq_some_iff] at h
    obtain ⟨mid, hadd, h⟩ := h
    rw [Node.add_eq hpieces] at hadd
    have hins := Node.insert_inserted hrule.index hps hhead.plain hadd
    obtain ⟨hrooted, hentries⟩ := ih hrest (hhead.insert hrule.index hps hadd) h
    refine ⟨hrooted, fun ps n => ?_⟩
    rw [hentries, hins.entries, List.exists_mem_cons_iff, hpieces, Option.some_inj, Prod.mk.injEq]
    tauto

/-- `add` throws where two urls have the same pieces. -/
theorem addAll_isSome_iff {rules : List (List UInt8 × ℕ)} (hrules : ∀ rule ∈ rules, Routable rule) {head : Node}
    (hhead : Rooted head) : (addAll head rules).isSome = true ↔
      (∀ rule ∈ rules, ∀ ps n, pieces 0 rule.1 = some ps → (ps, n) ∉ head.entries) ∧
        (rules.map fun rule => pieces 0 rule.1).Nodup := by
  induction rules generalizing head with
  | nil => simp [addAll]
  | cons rule rules ih =>
    obtain ⟨hrule, hrest⟩ := List.forall_mem_cons.mp hrules
    obtain ⟨rest, hpieces, hps⟩ := hrule.exists_pieces
    have hsome := Node.insert_isSome_iff hps hhead.plain (n := rule.2)
    rw [addAll, List.foldlM_cons, Node.add_eq hpieces, List.map_cons, List.nodup_cons, List.forall_mem_cons, hpieces]
    cases hadd : head.insert rule.2 (.byte 0x2F :: rest) with
    | none =>
      rw [hadd, Option.isSome_none] at hsome
      refine iff_of_false Bool.false_ne_true fun h => ?_
      exact Bool.false_ne_true (hsome.mpr fun m => h.1.1 _ m rfl)
    | some mid =>
      rw [hadd, Option.isSome_some] at hsome
      have hfree := hsome.mp rfl
      have hins := Node.insert_inserted hrule.index hps hhead.plain hadd
      refine (ih hrest (hhead.insert hrule.index hps hadd)).trans ?_
      constructor
      · rintro ⟨hnone, hnodup⟩
        refine ⟨⟨?_, ?_⟩, ?_, hnodup⟩
        · rintro ps n hps
          obtain rfl := Option.some.inj hps
          exact hfree n
        · intro rule' hmem ps n hpieces' hentry
          exact hnone rule' hmem ps n hpieces' ((hins.entries _).mpr (Or.inr hentry))
        · intro hmem
          obtain ⟨rule', hmem', heq⟩ := List.mem_map.mp hmem
          exact hnone rule' hmem' _ rule.2 heq ((hins.entries _).mpr (Or.inl rfl))
      · rintro ⟨⟨-, hold⟩, hnew, hnodup⟩
        refine ⟨fun rule' hmem ps n hpieces' hentry => ?_, hnodup⟩
        rcases (hins.entries _).mp hentry with heq | hentry
        · obtain ⟨rfl, -⟩ := Prod.mk.inj heq
          exact hnew (List.mem_map.mpr ⟨rule', hmem, hpieces'⟩)
        · exact hold rule' hmem ps n hpieces' hentry

section Search
variable {D : Type} (strtod : List UInt8 → Option (D × List UInt8))

/-- What a rule of a url leaves as parameters, where it matches. -/
def matchUrl (rule url : List UInt8) : Option (RoutingParams D) := do
  let ps ← pieces 0 rule
  matchPieces strtod ps url .empty

/-- The rule with the index `n` matches the url. -/
def RuleMatches (rules : List (List UInt8 × ℕ)) (url : List UInt8) (n : ℕ) (params : RoutingParams D) : Prop :=
  ∃ rule ∈ rules, rule.2 = n ∧ matchUrl strtod rule.1 url = some params

variable {strtod}

theorem matches_iff_ruleMatches {rules : List (List UInt8 × ℕ)} {head : Node}
    (h : ∀ ps n, (ps, n) ∈ head.entries ↔ ∃ rule ∈ rules, pieces 0 rule.1 = some ps ∧ rule.2 = n) (url : List UInt8)
    (n : ℕ) (params : RoutingParams D) :
    Matches strtod head.entries url .empty n params ↔ RuleMatches strtod rules url n params := by
  simp only [Matches, h, RuleMatches, matchUrl, Option.bind_eq_bind, Option.bind_eq_some_iff]
  constructor
  · rintro ⟨ps, ⟨rule, hmem, hpieces, rfl⟩, hmatch⟩
    exact ⟨rule, hmem, rfl, ps, hpieces, hmatch⟩
  · rintro ⟨rule, hmem, rfl, ps, hpieces, hmatch⟩
    exact ⟨ps, ⟨rule, hmem, hpieces, rfl⟩, hmatch⟩

/-- The trie of some rules can be built if no two of them have the same pieces. -/
theorem buildTrie_isSome_iff {rules : List (List UInt8 × ℕ)} (h : ∀ rule ∈ rules, Routable rule) :
    (buildTrie rules).isSome = true ↔ (rules.map fun rule => pieces 0 rule.1).Nodup := by
  have hadd := addAll_isSome_iff h rooted_new
  have hnew : Node.new.entries = [] := by simp [Node.entries_eq, Node.new, entriesBelow]
  rw [hnew] at hadd
  simp only [List.not_mem_nil, not_false_eq_true, implies_true, true_and] at hadd
  rw [← hadd, buildTrie]
  cases hhead : addAll .new rules with
  | none => rfl
  | some head => exact iff_of_true (addAll_entries h rooted_new hhead).1.validate rfl

/-- A search finds the least index of a rule that matches. -/
theorem buildTrie_finds {rules : List (List UInt8 × ℕ)} (h : ∀ rule ∈ rules, Routable rule) {head : Node}
    (hhead : buildTrie rules = some head) (url : List UInt8) :
    Finds (RuleMatches strtod rules url) (head.find strtod url .empty) := by
  rw [buildTrie, Option.bind_eq_bind, Option.bind_eq_some_iff] at hhead
  obtain ⟨built, hbuilt, hvalidate⟩ := hhead
  obtain ⟨hrooted, hentries⟩ := addAll_entries h rooted_new hbuilt
  have hnew : Node.new.entries = [] := by simp [Node.entries_eq, Node.new, entriesBelow]
  rw [hnew] at hentries
  simp only [List.not_mem_nil, false_or] at hentries
  obtain ⟨hproper, hsame⟩ := Node.validate_entries hrooted.plain hvalidate
  rw [← hsame] at hentries
  exact (Node.find_finds head url .empty hproper).congr fun n params => matches_iff_ruleMatches hentries url n params

/-- The trie can be built exactly if no two rules have the same pieces, and it then finds for
every url the least index of a rule that matches, or none where no rule does. -/
theorem buildTrie_exact (strtod : List UInt8 → Option (D × List UInt8)) {rules : List (List UInt8 × ℕ)}
    (h : ∀ rule ∈ rules, Routable rule) :
    ((buildTrie rules).isSome = true ↔ (rules.map fun rule => pieces 0 rule.1).Nodup) ∧
      ∀ head, buildTrie rules = some head → ∀ url,
        Finds (RuleMatches strtod rules url) (head.find strtod url .empty) ∧
        ((head.find strtod url .empty).1 = 0 ↔ ∀ rule ∈ rules, matchUrl strtod rule.1 url = none) := by
  refine ⟨buildTrie_isSome_iff h, fun head hhead url => ?_⟩
  have hfinds : Finds (RuleMatches strtod rules url) (head.find strtod url .empty) := buildTrie_finds h hhead url
  refine ⟨hfinds, hfinds.eq_zero_iff.trans ?_⟩
  constructor
  · intro hnone rule hrule
    rw [Option.eq_none_iff_forall_ne_some]
    exact fun params hmatch => hnone rule.2 params ⟨rule, hrule, rfl, hmatch⟩
  · rintro hnone n params ⟨rule, hrule, -, hmatch⟩
    rw [hnone rule hrule] at hmatch
    contradiction

/-- The rules `/a` and `/<int>`. -/
theorem buildTrie_exact_twoRules :
    ((buildTrie [(ascii "/a", 2), (ascii "/<int>", 3)]).isSome = true ↔
        ([(ascii "/a", 2), (ascii "/<int>", 3)].map fun rule => pieces 0 rule.1).Nodup) ∧
      ∀ head, buildTrie [(ascii "/a", 2), (ascii "/<int>", 3)] = some head → ∀ url,
        Finds (RuleMatches (D := ℕ) (fun _ => none) [(ascii "/a", 2), (ascii "/<int>", 3)] url)
          (head.find (fun _ => none) url .empty) ∧
        ((head.find (D := ℕ) (fun _ => none) url .empty).1 = 0 ↔
          ∀ rule ∈ [(ascii "/a", 2), (ascii "/<int>", 3)], matchUrl (D := ℕ) (fun _ => none) rule.1 url = none) := by
  refine buildTrie_exact _ ?_
  simp only [List.forall_mem_cons]
  exact ⟨⟨by decide, by decide, by decide, by decide⟩, ⟨by decide, by decide, by decide, by decide⟩,
    fun rule hrule => absurd hrule List.not_mem_nil⟩

end Search

end SmartParking.Crow
