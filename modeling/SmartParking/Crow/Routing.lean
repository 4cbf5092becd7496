import SmartParking.Crow.Router

/-! # The rule that a request finds

Rules are found as if they were tried one after the other: the first one that is registered
for the method and matches the url. Before that, a url is redirected if a slash at its end
makes it match a rule. The router never finds its trie corrupted.
-/
namespace SmartParking.Crow
open Foundation.LeastCandidate Server

variable {H : Type}

def rulesOf (allRules : List (Rule H)) (method : HTTPMethod) : List (Rule H) :=
  allRules.filter fun rule => rule.method = method

/-- A rule as the routes of an app have to be. -/
structure Rule.Wellformed (rule : Rule H) : Prop where
  slash : rule.rule.head? = some 0x2F
  zero : (0 : UInt8) ∉ rule.rule
  tags : (pieces 0 rule.rule).isSome = true

/-- The rule as it is redirected to, if it ends in a slash. -/
def Rule.redirected (rule : Rule H) : List (List UInt8) :=
  if hasTrailingSlash rule.rule then [rule.rule.dropLast] else []

/-- What the trie of a method gets for the rule with the index `n`. -/
def Rule.added (rule : Rule H) (n : ℕ) : List (List UInt8 × ℕ) :=
  (rule.rule, n) :: rule.redirected.map fun url => (url, ruleSpecialRedirectSlash)

/-- What the trie of a method gets for its rules, whose indices count from `n` on. -/
def numbered (n : ℕ) (rules : List (Rule H)) : List (List UInt8 × ℕ) :=
  (rules.zipIdx n).flatMap fun x => x.1.added x.2

theorem numbered_cons (n : ℕ) (rule : Rule H) (rules : List (Rule H)) :
    numbered n (rule :: rules) = rule.added n ++ numbered (n + 1) rules := by
  rw [numbered, List.zipIdx_cons, List.flatMap_cons]
  rfl

theorem mem_numbered {n i : ℕ} {rules : List (Rule H)} {url : List UInt8} : (url, i) ∈ numbered n rules ↔
    (n ≤ i ∧ ∃ rule, rules[i - n]? = some rule ∧ rule.rule = url) ∨
      (i = ruleSpecialRedirectSlash ∧ ∃ rule ∈ rules, url ∈ rule.redirected) := by
  have hadded : ∀ (rule : Rule H) (m : ℕ), (url, i) ∈ rule.added m ↔
      (i = m ∧ rule.rule = url) ∨ (i = ruleSpecialRedirectSlash ∧ url ∈ rule.redirected) := by
    intro rule m
    simp only [Rule.added, List.mem_cons, List.mem_map, Prod.mk.injEq]
    constructor
    · rintro (⟨rfl, rfl⟩ | ⟨url, hurl, rfl, rfl⟩)
      · exact Or.inl ⟨rfl, rfl⟩
      · exact Or.inr ⟨rfl, hurl⟩
    · rintro (⟨rfl, rfl⟩ | ⟨rfl, hurl⟩)
      · exact Or.inl ⟨rfl, rfl⟩
      · exact Or.inr ⟨url, hurl, rfl, rfl⟩
  simp only [numbered, List.mem_flatMap, Prod.exists, hadded, List.mk_mem_zipIdx_iff_le_and_getElem?_sub]
  constructor
  · rintro ⟨rule, m, ⟨hle, hget⟩, ⟨rfl, hurl⟩ | ⟨hi, hurl⟩⟩
    · exact Or.inl ⟨hle, rule, hget, hurl⟩
    · exact Or.inr ⟨hi, rule, List.mem_of_getElem? hget, hurl⟩
  · rintro (⟨hle, rule, hget, hurl⟩ | ⟨hi, rule, hmem, hurl⟩)
    · exact ⟨rule, i, ⟨hle, hget⟩, Or.inl ⟨rfl, hurl⟩⟩
    · obtain ⟨k, hget⟩ := List.getElem?_of_mem hmem
      exact ⟨rule, n + k, ⟨by omega, by simpa using hget⟩, Or.inr ⟨hi, hurl⟩⟩

/-- A tag has no slash, so the slash at the end of a rule is a piece of its own. -/
theorem isSome_pieces_of_append_slash {skip : ℕ} {url : List UInt8}
    (h : (pieces skip (url ++ [0x2F])).isSome = true) : (pieces skip url).isSome = true := by
  have hcons : ∀ (piece : Piece) (rest : Option (List Piece)),
      (rest.bind fun rest => some (piece :: rest)).isSome = rest.isSome := fun _ rest => by cases rest <;> rfl
  induction url generalizing skip with
  | nil => cases skip <;> rfl
  | cons c url ih =>
    cases skip with
    | succ skip => exact ih h
    | zero =>
      rw [List.cons_append, pieces] at h
      rw [pieces]
      simp only [Option.bind_eq_bind] at h ⊢
      split_ifs at h ⊢
      · have htag : ∀ x ∈ paramTraits,
            (ascii x.2).isPrefixOf (c :: (url ++ [0x2F])) = (ascii x.2).isPrefixOf (c :: url) := by
          intro x hx
          have hslash : ∀ x ∈ paramTraits, (0x2F : UInt8) ∉ ascii x.2 := by decide
          rw [← List.cons_append, Bool.eq_iff_iff, List.isPrefixOf_iff_prefix, List.isPrefixOf_iff_prefix,
            List.prefix_concat_iff, or_iff_right]
          exact fun heq => hslash x hx (heq ▸ List.mem_append_right _ List.mem_cons_self)
        rw [← List.head?_filter, List.filter_congr htag, List.head?_filter] at h
        cases hfind : paramTraits.find? fun x => (ascii x.2).isPrefixOf (c :: url) with
        | none =>
          rw [hfind] at h
          contradiction
        | some x =>
          rw [hfind, Option.bind_some, hcons] at h
          rw [Option.bind_some, hcons]
          exact ih h
      · rw [hcons] at h ⊢
        exact ih h

theorem hasTrailingSlash_iff (rule : List UInt8) :
    hasTrailingSlash rule = true ↔ 1 < rule.length ∧ rule = rule.dropLast ++ [0x2F] := by
  rw [hasTrailingSlash, Bool.and_eq_true, decide_eq_true_eq, beq_iff_eq]
  exact and_congr_right fun _ => List.getLast?_eq_some_iff.trans
    ⟨fun ⟨_, h⟩ => by rw [h, List.dropLast_concat], fun h => ⟨_, h⟩⟩

/-- A rule without its slash is well formed, too. -/
theorem Rule.Wellformed.redirected {rule : Rule H} (h : rule.Wellformed) {url : List UInt8}
    (hurl : url ∈ rule.redirected) : Routable (url, ruleSpecialRedirectSlash) := by
  rw [Rule.redirected] at hurl
  split at hurl
  · next hslash =>
    obtain rfl := List.mem_singleton.mp hurl
    obtain ⟨hlength, heq⟩ := (hasTrailingSlash_iff _).mp hslash
    have htags := h.tags
    have hhead := h.slash
    have hzero := h.zero
    rw [heq] at htags hhead hzero
    have hne : rule.rule.dropLast ≠ [] := List.ne_nil_of_length_pos (by rw [List.length_dropLast]; omega)
    refine ⟨?_, fun hmem => hzero (List.mem_append_left _ hmem), isSome_pieces_of_append_slash htags, Nat.one_ne_zero⟩
    rwa [List.head?_append_of_ne_nil _ hne] at hhead
  · contradiction

theorem routable_numbered {n : ℕ} (hn : n ≠ 0) {rules : List (Rule H)} (h : ∀ rule ∈ rules, rule.Wellformed) :
    ∀ rule ∈ numbered n rules, Routable rule := by
  rintro ⟨url, i⟩ hmem
  rcases mem_numbered.mp hmem with ⟨hle, rule, hget, rfl⟩ | ⟨rfl, rule, hrule, hurl⟩
  · have hrule := h rule (List.mem_of_getElem? hget)
    exact ⟨hrule.slash, hrule.zero, hrule.tags, by omega⟩
  · exact (h rule hrule).redirected hurl

def addRules (perMethod : PerMethod H) (rules : List (Rule H)) : Option (PerMethod H) :=
  rules.foldlM (fun perMethod rule => perMethod.addRule rule.rule rule.handler) perMethod

theorem addRule_eq (perMethod : PerMethod H) (rule : Rule H) : perMethod.addRule rule.rule rule.handler =
    (addAll perMethod.trie (rule.added perMethod.rules.length)).map
      fun trie => ⟨perMethod.rules ++ [some rule.handler], trie⟩ := by
  have hlength : (perMethod.rules ++ [some rule.handler]).length - 1 = perMethod.rules.length := by simp
  rw [PerMethod.addRule, hlength, Rule.added, addAll, List.foldlM_cons, Rule.redirected]
  cases perMethod.trie.add rule.rule perMethod.rules.length with
  | none => rfl
  | some trie =>
    cases hasTrailingSlash rule.rule with
    | false => rfl
    | true =>
      simp only [Option.bind_eq_bind, Option.bind_some, if_true, List.map_cons, List.map_nil, List.foldlM_cons,
        List.foldlM_nil]
      cases trie.add rule.rule.dropLast ruleSpecialRedirectSlash <;> rfl

/-- The calls of `add` for one method. -/
theorem addRules_eq (perMethod : PerMethod H) (rules : List (Rule H)) :
    addRules perMethod rules = (addAll perMethod.trie (numbered perMethod.rules.length rules)).map
      fun trie => ⟨perMethod.rules ++ rules.map fun rule => some rule.handler, trie⟩ := by
  induction rules generalizing perMethod with
  | nil => simp [addRules, numbered, addAll]
  | cons rule rules ih =>
    have hadd : addAll perMethod.trie
        (rule.added perMethod.rules.length ++ numbered (perMethod.rules.length + 1) rules) =
        (addAll perMethod.trie (rule.added perMethod.rules.length)).bind fun trie =>
          addAll trie (numbered (perMethod.rules.length + 1) rules) := List.foldlM_append
    rw [addRules, List.foldlM_cons, addRule_eq, numbered_cons, hadd]
    cases addAll perMethod.trie (rule.added perMethod.rules.length) with
    | none => rfl
    | some trie =>
      have hrest := ih ⟨perMethod.rules ++ [some rule.handler], trie⟩
      rw [List.length_append, List.length_singleton] at hrest
      refine hrest.trans ?_
      simp

theorem addRules_new (rules : List (Rule H)) :
    addRules .new rules = (addAll .new (numbered 2 rules)).map
      fun trie => ⟨none :: none :: rules.map fun rule => some rule.handler, trie⟩ :=
  addRules_eq .new rules

/-- A rule is added to the tries of its own method only. -/
theorem foldlM_addRule {allRules : List (Rule H)} {router router' : Router H}
    (h : allRules.foldlM Router.addRule router = some router') (method : HTTPMethod) :
    addRules (router.perMethods method) (rulesOf allRules method) = some (router'.perMethods method) := by
  induction allRules generalizing router with
  | nil =>
    obtain rfl := Option.some.inj h
    rfl
  | cons rule allRules ih =>
    rw [List.foldlM_cons, Option.bind_eq_bind, Option.bind_eq_some_iff] at h
    obtain ⟨mid, hmid, h⟩ := h
    have hrest := ih h
    rw [Router.addRule, Option.bind_eq_bind, Option.bind_eq_some_iff] at hmid
    obtain ⟨perMethod, hadd, hmid⟩ := hmid
    obtain rfl := Option.some.inj hmid
    rw [rulesOf, List.filter_cons]
    by_cases hmethod : rule.method = method
    · subst hmethod
      dsimp only at hrest
      rw [if_pos rfl] at hrest
      rw [if_pos (decide_eq_true rfl), addRules, List.foldlM_cons, hadd]
      exact hrest
    · dsimp only at hrest
      rw [if_neg (Ne.symm hmethod)] at hrest
      rw [if_neg (by simpa using hmethod)]
      exact hrest

/-- Rules can be added if they can be for every method. -/
theorem foldlM_addRule_isSome {allRules : List (Rule H)} {router : Router H}
    (h : ∀ method, (addRules (router.perMethods method) (rulesOf allRules method)).isSome = true) :
    (allRules.foldlM Router.addRule router).isSome = true := by
  induction allRules generalizing router with
  | nil => rfl
  | cons rule allRules ih =>
    have hown := h rule.method
    rw [rulesOf, List.filter_cons, if_pos (decide_eq_true rfl), addRules, List.foldlM_cons] at hown
    cases hadd : (router.perMethods rule.method).addRule rule.rule rule.handler with
    | none =>
      rw [hadd] at hown
      exact absurd hown Bool.false_ne_true
    | some perMethod =>
      rw [hadd] at hown
      rw [List.foldlM_cons, Router.addRule, hadd]
      refine ih fun method => ?_
      by_cases hmethod : method = rule.method
      · subst hmethod
        dsimp only
        rw [if_pos rfl]
        exact hown
      · have hother := h method
        rw [rulesOf, List.filter_cons, if_neg (by simpa using Ne.symm hmethod)] at hother
        dsimp only
        rw [if_neg hmethod]
        exact hother

/-- What is built for one method. -/
structure Built (rules : List (Rule H)) (perMethod : PerMethod H) : Prop where
  trie : buildTrie (numbered 2 rules) = some perMethod.trie
  rules : perMethod.rules = none :: none :: rules.map fun rule => some rule.handler

theorem rulesOf_wellformed {allRules : List (Rule H)} (h : ∀ rule ∈ allRules, rule.Wellformed) (method : HTTPMethod) :
    ∀ rule ∈ rulesOf allRules method, rule.Wellformed :=
  fun rule hmem => h rule (List.mem_of_mem_filter hmem)

theorem validate_built {allRules : List (Rule H)} {router : Router H}
    (hrouter : Router.validate allRules = some router) (method : HTTPMethod) :
    Built (rulesOf allRules method) (router.perMethods method) := by
  rw [Router.validate, Option.bind_eq_bind, Option.bind_eq_some_iff] at hrouter
  obtain ⟨added, hadded, hrouter⟩ := hrouter
  have hrules := foldlM_addRule hadded method
  rw [Router.new, addRules_new, Option.map_eq_some_iff] at hrules
  obtain ⟨trie, htrie, hperMethod⟩ := hrules
  rw [Router.validateTries] at hrouter
  split at hrouter
  · next hsimple =>
    obtain rfl := Option.some.inj hrouter
    have hmethod := List.all_eq_true.mp hsimple method (mem_httpMethods method)
    dsimp only
    rw [← hperMethod] at hmethod ⊢
    constructor
    · have hvalidate : trie.validate = some { trie with children := optimizeNodes trie.children } := if_pos hmethod
      have hadd : addAll .new (numbered 2 (rulesOf allRules method)) = some trie := htrie
      rw [buildTrie, hadd]
      exact hvalidate
    · rfl
  · contradiction

/-- A rule, and what is redirected to it. -/
def Rule.urls (rule : Rule H) : List (List UInt8) := rule.rule :: rule.redirected

theorem map_pieces_numbered (n : ℕ) (rules : List (Rule H)) :
    (numbered n rules).map (fun rule => pieces 0 rule.1) = rules.flatMap fun rule => rule.urls.map (pieces 0) := by
  induction rules generalizing n with
  | nil => rfl
  | cons rule rules ih =>
    rw [numbered_cons, List.map_append, ih, List.flatMap_cons, Rule.added, Rule.urls, List.map_cons, List.map_cons,
      List.map_map]
    rfl

/-- The urls of the rules for a method have different pieces. -/
def Apart (allRules : List (Rule H)) (method : HTTPMethod) : Prop :=
  ((rulesOf allRules method).flatMap fun rule => rule.urls.map (pieces 0)).Nodup

theorem validate_isSome {allRules : List (Rule H)} (h : ∀ rule ∈ allRules, rule.Wellformed)
    (hapart : ∀ method, Apart allRules method) : (Router.validate allRules).isSome = true := by
  have htries : ∀ method, ∃ trie, addAll .new (numbered 2 (rulesOf allRules method)) = some trie ∧
      trie.isSimpleNode = true := by
    intro method
    have hroutable := routable_numbered (n := 2) (by decide) (rulesOf_wellformed h method)
    have hbuild := (buildTrie_isSome_iff hroutable).mpr (map_pieces_numbered 2 _ ▸ hapart method)
    obtain ⟨head, hhead⟩ := Option.isSome_iff_exists.mp hbuild
    rw [buildTrie, Option.bind_eq_bind, Option.bind_eq_some_iff] at hhead
    obtain ⟨trie, htrie, hvalidate⟩ := hhead
    refine ⟨trie, htrie, ?_⟩
    by_contra hsimple
    rw [Node.validate, if_neg hsimple] at hvalidate
    contradiction
  have hadd : (allRules.foldlM Router.addRule .new).isSome = true := by
    refine foldlM_addRule_isSome fun method => ?_
    obtain ⟨trie, htrie, -⟩ := htries method
    rw [Router.new, addRules_new, htrie]
    rfl
  obtain ⟨router, hrouter⟩ := Option.isSome_iff_exists.mp hadd
  have hsimple : (httpMethods.all fun method => (router.perMethods method).trie.isSimpleNode) = true := by
    refine List.all_eq_true.mpr fun method _ => ?_
    obtain ⟨trie, htrie, hsimple⟩ := htries method
    have hrules := foldlM_addRule hrouter method
    rw [Router.new, addRules_new, htrie] at hrules
    rw [← Option.some.inj hrules]
    exact hsimple
  rw [Router.validate, hrouter, Option.bind_eq_bind, Option.bind_some, Router.validateTries, if_pos hsimple]
  rfl

/-- The router can be built exactly if all urls for a method have different pieces. -/
theorem validate_isSome_iff {allRules : List (Rule H)} (h : ∀ rule ∈ allRules, rule.Wellformed) :
    (Router.validate allRules).isSome = true ↔ ∀ method, Apart allRules method := by
  refine ⟨fun hsome method => ?_, validate_isSome h⟩
  obtain ⟨router, hrouter⟩ := Option.isSome_iff_exists.mp hsome
  have hroutable := routable_numbered (n := 2) (by decide) (rulesOf_wellformed h method)
  have hbuild := Option.isSome_iff_exists.mpr ⟨_, (validate_built hrouter method).trie⟩
  rw [Apart, ← map_pieces_numbered 2]
  exact (buildTrie_isSome_iff hroutable).mp hbuild

section Route
variable {D : Type} (strtod : List UInt8 → Option (D × List UInt8))

/-- The first rule that matches, with the parameters it leaves. -/
def firstMatch (rules : List (Rule H)) (url : List UInt8) : Option (H × RoutingParams D) :=
  rules.findSome? fun rule => (matchUrl strtod rule.rule url).map fun params => (rule.handler, params)

/-- Some rule is for the url with a slash at its end. -/
def isRedirected (rules : List (Rule H)) (url : List UInt8) : Bool :=
  rules.any fun rule => rule.redirected.any fun rule => (matchUrl strtod rule url).isSome

/-- What the rules for a method make of a url. -/
def answer (rules : List (Rule H)) (url : List UInt8) : Option (Outcome H D) :=
  if isRedirected strtod rules url then some (.redirect (url ++ [0x2F]))
  else (firstMatch strtod rules url).map fun r => .handler r.1 r.2

/-- What a search finds in the trie of one method. -/
inductive SearchResult (perMethod : PerMethod H) (url : List UInt8) (params : RoutingParams D) :
    ℕ → Option (Outcome H D) → Prop
  | nothing : SearchResult perMethod url params 0 none
  | redirect (h : perMethod.rules[ruleSpecialRedirectSlash]? = some none) :
    SearchResult perMethod url params ruleSpecialRedirectSlash (some (.redirect (url ++ [0x2F])))
  | handler (i : ℕ) (handler : H) (h : perMethod.rules[i + 2]? = some (some handler)) :
    SearchResult perMethod url params (i + 2) (some (.handler handler params))

section Least
variable {rules : List (Rule H)} {url : List UInt8} {index : ℕ} {params : RoutingParams D}
  (h : Finds (RuleMatches strtod (numbered 2 rules) url) (index, params))

include h in
/-- Where the index that is found comes after the redirects, none of them matches. -/
theorem isRedirected_of_least (hless : index = 0 ∨ ruleSpecialRedirectSlash < index) :
    isRedirected strtod rules url = false := by
  by_contra hany
  rw [Bool.not_eq_false] at hany
  simp only [isRedirected, List.any_eq_true] at hany
  obtain ⟨rule, hrule, url', hurl', hmatch⟩ := hany
  obtain ⟨params', hparams⟩ := Option.isSome_iff_exists.mp hmatch
  have hmem : (url', ruleSpecialRedirectSlash) ∈ numbered 2 rules :=
    mem_numbered.mpr (Or.inr ⟨rfl, rule, hrule, hurl'⟩)
  have hleast := h.least ruleSpecialRedirectSlash params' ⟨_, hmem, rfl, hparams⟩
  dsimp only at hleast
  omega

include h in
/-- No rule before the one that is found matches. -/
theorem matchUrl_of_least {i : ℕ} {rule : Rule H} (hget : rules[i]? = some rule) (hless : index = 0 ∨ i + 2 < index) :
    matchUrl strtod rule.rule url = none := by
  by_contra hmatch
  obtain ⟨params', hparams⟩ := Option.ne_none_iff_exists'.mp hmatch
  have hmem : (rule.rule, i + 2) ∈ numbered 2 rules :=
    mem_numbered.mpr (Or.inl ⟨by omega, rule, by simpa using hget, rfl⟩)
  have hleast := h.least (i + 2) params' ⟨_, hmem, rfl, hparams⟩
  dsimp only at hleast
  omega

include h in
theorem firstMatch_of_zero (hzero : index = 0) : firstMatch strtod rules url = none := by
  refine List.findSome?_eq_none_iff.mpr fun rule hmem => ?_
  obtain ⟨i, hget⟩ := List.getElem?_of_mem hmem
  rw [matchUrl_of_least strtod h hget (Or.inl hzero)]
  rfl

include h in
theorem firstMatch_of_least {k : ℕ} {rule : Rule H} (hindex : index = k + 2) (hget : rules[k]? = some rule)
    (hmatch : matchUrl strtod rule.rule url = some params) :
    firstMatch strtod rules url = some (rule.handler, params) := by
  obtain ⟨hlt, hrule⟩ := List.getElem?_eq_some_iff.mp hget
  refine List.findSome?_eq_some_iff.mpr ⟨rules.take k, rule, rules.drop (k + 1), ?_, ?_, ?_⟩
  · rw [← hrule, List.getElem_cons_drop, List.take_append_drop]
  · rw [hmatch]
    rfl
  · intro rule' hmem'
    obtain ⟨j, hj⟩ := List.getElem?_of_mem hmem'
    obtain ⟨hjlt, -⟩ := List.getElem?_eq_some_iff.mp hj
    rw [List.length_take] at hjlt
    rw [List.getElem?_take_of_lt (by omega)] at hj
    rw [matchUrl_of_least strtod h hj (Or.inr (by omega))]
    rfl

end Least

/-- What the search finds is what the rules for the method make of the url. -/
theorem Built.find {rules : List (Rule H)} (hrules : ∀ rule ∈ rules, rule.Wellformed) {perMethod : PerMethod H}
    (h : Built rules perMethod) (url : List UInt8) :
    SearchResult perMethod url (perMethod.trie.find strtod url .empty).2 (perMethod.trie.find strtod url .empty).1
      (answer strtod rules url) := by
  have hfinds : Finds (RuleMatches strtod (numbered 2 rules) url) (perMethod.trie.find strtod url .empty) :=
    buildTrie_finds (routable_numbered (by decide) hrules) h.trie url
  generalize perMethod.trie.find strtod url .empty = found at hfinds ⊢
  obtain ⟨index, params⟩ := found
  by_cases hzero : index = 0
  · rw [answer, isRedirected_of_least strtod hfinds (Or.inl hzero), firstMatch_of_zero strtod hfinds hzero, hzero]
    exact .nothing
  obtain ⟨⟨url', i⟩, hmem, hi, hmatch⟩ := hfinds.sound hzero
  dsimp only at hi hmatch
  subst hi
  rcases mem_numbered.mp hmem with ⟨hle, rule, hget, rfl⟩ | ⟨rfl, rule, hrule, hurl'⟩
  · obtain ⟨k, rfl⟩ := Nat.exists_eq_add_of_le' hle
    rw [Nat.add_sub_cancel] at hget
    have hspecial : ruleSpecialRedirectSlash < k + 2 := by
      rw [ruleSpecialRedirectSlash]
      omega
    rw [answer, isRedirected_of_least strtod hfinds (Or.inr hspecial),
      firstMatch_of_least strtod hfinds rfl hget hmatch]
    exact .handler k rule.handler (by rw [h.rules]; simp [hget])
  · have hany : isRedirected strtod rules url = true := by
      simp only [isRedirected, List.any_eq_true]
      exact ⟨rule, hrule, url', hurl', Option.isSome_iff_exists.mpr ⟨params, hmatch⟩⟩
    rw [answer, if_pos hany]
    exact .redirect (by rw [h.rules]; rfl)

variable {strtod}

section Router
variable {allRules : List (Rule H)} {router : Router H}

theorem find_eq_zero_iff (h : ∀ rule ∈ allRules, rule.Wellformed) (hrouter : Router.validate allRules = some router)
    (method : HTTPMethod) (url : List UInt8) :
    (router.find strtod method url).1 = 0 ↔ answer strtod (rulesOf allRules method) url = none := by
  have hfind := (validate_built hrouter method).find strtod (rulesOf_wellformed h method) url
  rw [Router.find]
  generalize (router.perMethods method).trie.find strtod url .empty = found at hfind ⊢
  obtain ⟨index, params⟩ := found
  generalize answer strtod (rulesOf allRules method) url = outcome at hfind ⊢
  cases hfind with
  | nothing => exact iff_of_true rfl rfl
  | redirect => exact iff_of_false Nat.one_ne_zero (Option.some_ne_none _)
  | handler => exact iff_of_false (Nat.succ_ne_zero _) (Option.some_ne_none _)

/-- What is done with the index that a search finds. -/
theorem handle_found (h : ∀ rule ∈ allRules, rule.Wellformed) (hrouter : Router.validate allRules = some router)
    {method : HTTPMethod} {url : List UInt8} {outcome : Outcome H D}
    (hanswer : answer strtod (rulesOf allRules method) url = some outcome) (skipBody : Bool) :
    router.handle url (.found method (router.find strtod method url).1 (router.find strtod method url).2 skipBody) =
      outcome := by
  have hfind := (validate_built hrouter method).find strtod (rulesOf_wellformed h method) url
  rw [hanswer] at hfind
  rw [Router.find]
  generalize (router.perMethods method).trie.find strtod url .empty = found at hfind ⊢
  obtain ⟨index, params⟩ := found
  dsimp only at hfind ⊢
  cases hfind with
  | redirect hget =>
    rw [Router.handle, hget]
    exact if_pos rfl
  | handler i handler hget =>
    rw [Router.handle, hget]
    refine if_neg ?_
    rw [ruleSpecialRedirectSlash]
    omega

theorem any_find (h : ∀ rule ∈ allRules, rule.Wellformed) (hrouter : Router.validate allRules = some router)
    (url : List UInt8) : (httpMethods.any fun method => (router.find strtod method url).1 != 0) =
      httpMethods.any fun method => (answer strtod (rulesOf allRules method) url).isSome := by
  congr 1
  funext method
  rw [Bool.eq_iff_iff, bne_iff_ne, ne_eq, find_eq_zero_iff h hrouter, Option.isSome_iff_ne_none]

end Router

variable (strtod)

/-- How a request ends when the rules are tried one after the other. A `HEAD` request can take
a rule for `GET`, and an `OPTIONS` request takes none. -/
def routeByRules (allRules : List (Rule H)) (method : HTTPMethod) (url : List UInt8) : Outcome H D :=
  let anyAnswer := httpMethods.any fun method => (answer strtod (rulesOf allRules method) url).isSome
  match method with
  | .head =>
    ((answer strtod (rulesOf allRules .head) url).or (answer strtod (rulesOf allRules .get) url)).getD (.code 404)
  | .options => if url = ascii "/*" ∨ anyAnswer = true then .code 204 else .code 404
  | method => (answer strtod (rulesOf allRules method) url).getD (if anyAnswer then .code 405 else .code 404)

variable {strtod}

theorem routeByRules_eq {allRules : List (Rule H)} {method : HTTPMethod} (hhead : method ≠ .head)
    (hoptions : method ≠ .options) (url : List UInt8) :
    routeByRules strtod allRules method url =
      (answer strtod (rulesOf allRules method) url).getD
        (if httpMethods.any fun method => (answer strtod (rulesOf allRules method) url).isSome then .code 405
        else .code 404) := by
  cases method <;> first | rfl | contradiction

theorem handleInitial_eq {router : Router H} {method : HTTPMethod} (hhead : method ≠ .head)
    (hoptions : method ≠ .options) (url : List UInt8) :
    router.handleInitial strtod method url =
      if (router.find strtod method url).1 ≠ 0 then
        .found method (router.find strtod method url).1 (router.find strtod method url).2 false
      else if httpMethods.any fun m => (router.find strtod m url).1 != 0 then .catchAll 405
      else .catchAll 404 := by
  cases method <;> first | rfl | contradiction

section Router
variable {allRules : List (Rule H)} {router : Router H}

theorem find_ne_zero (h : ∀ rule ∈ allRules, rule.Wellformed) (hrouter : Router.validate allRules = some router)
    {method : HTTPMethod} {url : List UInt8} {outcome : Outcome H D}
    (hanswer : answer strtod (rulesOf allRules method) url = some outcome) :
    (router.find strtod method url).1 ≠ 0 := by
  rw [ne_eq, find_eq_zero_iff h hrouter, hanswer]
  exact Option.some_ne_none outcome

theorem route_head (h : ∀ rule ∈ allRules, rule.Wellformed) (hrouter : Router.validate allRules = some router)
    (url : List UInt8) : router.route strtod .head url = routeByRules strtod allRules .head url := by
  rw [Router.route, Router.handleInitial, routeByRules]
  cases hhead : answer strtod (rulesOf allRules .head) url with
  | some outcome =>
    rw [if_pos (find_ne_zero h hrouter hhead), handle_found h hrouter hhead]
    rfl
  | none =>
    rw [if_neg (not_not.mpr ((find_eq_zero_iff h hrouter .head url).mpr hhead)), Option.none_or]
    cases hget : answer strtod (rulesOf allRules .get) url with
    | some outcome =>
      rw [if_pos (find_ne_zero h hrouter hget), handle_found h hrouter hget]
      rfl
    | none =>
      rw [if_neg (not_not.mpr ((find_eq_zero_iff h hrouter .get url).mpr hget))]
      rfl

/-- A `HEAD` request that no rule is for is answered at once. -/
theorem handleInitial_head (h : ∀ rule ∈ allRules, rule.Wellformed) (hrouter : Router.validate allRules = some router)
    {url : List UInt8} (hhead : answer strtod (rulesOf allRules .head) url = none)
    (hget : answer strtod (rulesOf allRules .get) url = none) :
    router.handleInitial strtod .head url = .done 404 none := by
  rw [Router.handleInitial, if_neg (not_not.mpr ((find_eq_zero_iff h hrouter .head url).mpr hhead))]
  exact if_neg (not_not.mpr ((find_eq_zero_iff h hrouter .get url).mpr hget))

/-- An `OPTIONS` request is answered at once. -/
theorem handleInitial_options (h : ∀ rule ∈ allRules, rule.Wellformed)
    (hrouter : Router.validate allRules = some router) (url : List UInt8) :
    ∃ allow, router.handleInitial strtod .options url = .done
      (if url = ascii "/*" ∨ (httpMethods.any fun method => (answer strtod (rulesOf allRules method) url).isSome) = true
        then 204 else 404) allow := by
  rw [Router.handleInitial, any_find h hrouter]
  by_cases hurl : url = ascii "/*"
  · rw [if_pos hurl, if_pos (Or.inl hurl)]
    exact ⟨_, rfl⟩
  · rw [if_neg hurl]
    cases httpMethods.any fun method => (answer strtod (rulesOf allRules method) url).isSome with
    | true =>
      rw [if_pos rfl, if_pos (Or.inr rfl)]
      exact ⟨_, rfl⟩
    | false =>
      rw [if_neg Bool.false_ne_true, if_neg (by simp [hurl])]
      exact ⟨_, rfl⟩

theorem route_options (h : ∀ rule ∈ allRules, rule.Wellformed) (hrouter : Router.validate allRules = some router)
    (url : List UInt8) : router.route strtod .options url = routeByRules strtod allRules .options url := by
  rw [Router.route, routeByRules]
  obtain ⟨allow, hinitial⟩ := handleInitial_options h hrouter url
  rw [hinitial, Router.handle, apply_ite Outcome.code]

/-- Any other request that no rule is for is left to a catch-all rule. -/
theorem handleInitial_catchAll (h : ∀ rule ∈ allRules, rule.Wellformed)
    (hrouter : Router.validate allRules = some router) {method : HTTPMethod} (hhead : method ≠ .head)
    (hoptions : method ≠ .options) {url : List UInt8} (hnone : answer strtod (rulesOf allRules method) url = none) :
    router.handleInitial strtod method url = .catchAll
      (if httpMethods.any fun method => (answer strtod (rulesOf allRules method) url).isSome then 405 else 404) := by
  rw [handleInitial_eq hhead hoptions, if_neg (not_not.mpr ((find_eq_zero_iff h hrouter method url).mpr hnone)),
    any_find h hrouter, apply_ite Initial.catchAll]

/-- The router ends a request as its rules do when they are tried one after the other. -/
theorem route_eq (h : ∀ rule ∈ allRules, rule.Wellformed) (hrouter : Router.validate allRules = some router)
    (method : HTTPMethod) (url : List UInt8) :
    router.route strtod method url = routeByRules strtod allRules method url := by
  by_cases hhead : method = .head
  · rw [hhead]
    exact route_head h hrouter url
  by_cases hoptions : method = .options
  · rw [hoptions]
    exact route_options h hrouter url
  rw [Router.route, routeByRules_eq hhead hoptions]
  cases hanswer : answer strtod (rulesOf allRules method) url with
  | some outcome =>
    rw [handleInitial_eq hhead hoptions, if_pos (find_ne_zero h hrouter hanswer), handle_found h hrouter hanswer]
    rfl
  | none => rw [handleInitial_catchAll h hrouter hhead hoptions hanswer, Router.handle, apply_ite Outcome.code]; rfl

end Router

/-- The router can be built exactly if all urls for a method have different pieces, and then
ends every request as the rules do when they are tried one after the other. -/
theorem router_exact (strtod : List UInt8 → Option (D × List UInt8)) {allRules : List (Rule H)}
    (h : ∀ rule ∈ allRules, rule.Wellformed) :
    ((Router.validate allRules).isSome = true ↔ ∀ method, Apart allRules method) ∧
      ∀ router, Router.validate allRules = some router →
        ∀ method url, router.route strtod method url = routeByRules strtod allRules method url :=
  ⟨validate_isSome_iff h, fun _ hrouter => route_eq h hrouter⟩

/-- Two rules for one url, with different methods, where one has a slash at its end. -/
theorem router_exact_twoRules :
    ((Router.validate [⟨.get, ascii "/a/<int>/", true⟩, ⟨.post, ascii "/a/<int>", false⟩]).isSome = true ↔
        ∀ method, Apart [⟨.get, ascii "/a/<int>/", true⟩, ⟨.post, ascii "/a/<int>", false⟩] method) ∧
      ∀ router, Router.validate [⟨.get, ascii "/a/<int>/", true⟩, ⟨.post, ascii "/a/<int>", false⟩] = some router →
        ∀ method url, router.route (D := ℕ) (fun _ => none) method url =
          routeByRules (fun _ => none)
            [⟨.get, ascii "/a/<int>/", true⟩, ⟨.post, ascii "/a/<int>", false⟩] method url := by
  refine router_exact _ ?_
  simp only [List.forall_mem_cons]
  exact ⟨⟨by decide, by decide, by decide⟩, ⟨by decide, by decide, by decide⟩,
    fun rule hrule => absurd hrule List.not_mem_nil⟩

end Route

end SmartParking.Crow
