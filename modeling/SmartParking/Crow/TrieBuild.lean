import SmartParking.Crow.TrieSearch

/-! # The trie that is built

`add` makes one more entry, and throws only where there is an entry for the same pieces.
Optimising changes no entry. So a search in the trie that is built finds the rule with the
least index among those that match.
-/
namespace SmartParking.Crow
open Foundation.FirstOrNew Foundation.LeastCandidate

/-- The child is the one that `add` makes for the piece. -/
structure Piece.IsFor (piece : Piece) (child : Node) : Prop where
  key : child.key = piece.newNode.key
  param : child.param = piece.newNode.param

mutual

/-- The trie before it is optimised: one piece to a child, and no two children for one. -/
def Node.Plain : Node → Prop
  | ⟨_, _, _, children⟩ => (children.map Node.label).Nodup ∧ PlainBelow children

def PlainBelow : List Node → Prop
  | [] => True
  | child :: children => (∃ piece, Piece.IsFor piece child) ∧ child.Plain ∧ PlainBelow children

end

theorem plainBelow_iff (children : List Node) :
    PlainBelow children ↔ ∀ child ∈ children, (∃ piece, Piece.IsFor piece child) ∧ child.Plain := by
  induction children with
  | nil => simp [PlainBelow]
  | cons child children ih => rw [PlainBelow, ih, List.forall_mem_cons, and_assoc]

theorem Node.plain_iff (node : Node) : node.Plain ↔
    (node.children.map Node.label).Nodup ∧
      ∀ child ∈ node.children, (∃ piece, Piece.IsFor piece child) ∧ child.Plain := by
  cases node
  rw [Node.Plain, plainBelow_iff]

theorem Piece.IsFor.label {piece : Piece} {child : Node} (h : piece.IsFor child) : child.label = [piece] := by
  rw [Node.label, h.param, h.key]
  cases piece <;> rfl

/-- A child is taken for the piece it was made for. The 0 byte would be taken for the key that
a parameter does not have. -/
theorem Piece.IsFor.isAt_iff {piece piece' : Piece} {child : Node} (h : piece'.IsFor child)
    (hpiece : piece ≠ byte 0) : piece.isAt child = true ↔ child.label = [piece] := by
  rw [h.label, List.singleton_inj]
  cases piece with
  | byte c =>
    have hc : c ≠ 0 := fun hc => hpiece (congrArg byte hc)
    cases piece' with
    | byte c' => simp [isAt, h.key, newNode]
    | param type => simp [isAt, h.key, newNode, Node.new, Ne.symm hc]
  | param type => cases piece' <;> simp [isAt, h.param, newNode, Node.new]

theorem Piece.plain_newNode (piece : Piece) : piece.newNode.Plain := by
  rw [Node.plain_iff]
  cases piece <;> simp [newNode, Node.new]

theorem Piece.entries_newNode (piece : Piece) : piece.newNode.entries = [] := by
  cases piece <;> simp [Node.entries_eq, newNode, Node.new, entriesBelow]

/-- The two ways to go on with a piece: to the only child for it, or to a new one. -/
theorem Node.insert_cons {node : Node} (h : node.Plain) {piece : Piece} (hpiece : piece ≠ .byte 0) (n : ℕ)
    (rest : List Piece) :
    (∃ pre child post, node.children = pre ++ child :: post ∧ child.label = [piece] ∧
        node.insert n (piece :: rest) =
          (child.insert n rest).map fun child => { node with children := pre ++ child :: post }) ∨
      (∀ child ∈ node.children, child.label ≠ [piece]) ∧
        node.insert n (piece :: rest) =
          (piece.newNode.insert n rest).map fun child => { node with children := node.children ++ [child] } := by
  have hchildren := (node.plain_iff.mp h).2
  have hat : ∀ child ∈ node.children, (piece.isAt child = true ↔ child.label = [piece]) := by
    intro child hchild
    obtain ⟨piece', hfor⟩ := (hchildren child hchild).1
    exact hfor.isAt_iff hpiece
  cases hfind : node.children.find? piece.isAt with
  | some child =>
    left
    obtain ⟨htrue, pre, post, hsplit, hpre⟩ := List.find?_eq_some_iff_append.mp hfind
    have hfalse : ∀ c ∈ pre, piece.isAt c = false := fun c hc => Bool.not_eq_true' _ ▸ hpre c hc
    have hmem : child ∈ node.children := by simp [hsplit]
    refine ⟨pre, child, post, hsplit, (hat child hmem).mp htrue, ?_⟩
    rw [Node.insert, hsplit, updateFirst_of_pass _ _ _ hfalse htrue, Option.bind_eq_bind, Option.bind_map]
    cases child.insert n rest <;> rfl
  | none =>
    right
    have hfalse : ∀ c ∈ node.children, piece.isAt c = false := by simpa using hfind
    refine ⟨fun child hchild hlabel => ?_, ?_⟩
    · have htrue := (hat child hchild).mpr hlabel
      rw [hfalse child hchild] at htrue
      contradiction
    · rw [Node.insert, updateFirst_of_fail _ _ _ hfalse, Option.bind_eq_bind, Option.bind_map]
      cases piece.newNode.insert n rest <;> rfl

/-- An entry that starts with a piece is below the child for it. -/
theorem Node.mem_entries_cons {node : Node} (h : node.Plain) {piece : Piece} {rest : List Piece} {n : ℕ} :
    (piece :: rest, n) ∈ node.entries ↔
      ∃ child ∈ node.children, child.label = [piece] ∧ (rest, n) ∈ child.entries := by
  have hown : (piece :: rest, n) ∉ if node.ruleIndex = 0 then [] else [([], node.ruleIndex)] := by
    split <;> simp
  rw [Node.entries_eq, List.mem_append, or_iff_right hown, mem_entriesBelow]
  constructor
  · rintro ⟨child, hchild, hmem⟩
    obtain ⟨piece', hfor⟩ := ((node.plain_iff.mp h).2 child hchild).1
    obtain ⟨p, hp, heq⟩ := mem_under.mp hmem
    rw [hfor.label] at heq
    obtain ⟨rfl, rfl⟩ := List.cons.inj heq
    exact ⟨child, hchild, hfor.label, hp⟩
  · rintro ⟨child, hchild, hlabel, hmem⟩
    exact ⟨child, hchild, mem_under.mpr ⟨rest, hmem, by rw [hlabel, List.singleton_append]⟩⟩

theorem Node.mem_entries_nil {node : Node} (h : node.Plain) {n : ℕ} :
    ([], n) ∈ node.entries ↔ node.ruleIndex ≠ 0 ∧ n = node.ruleIndex := by
  have hbelow : ([], n) ∉ entriesBelow node.children := by
    rw [mem_entriesBelow]
    rintro ⟨child, hchild, hmem⟩
    obtain ⟨piece, hfor⟩ := ((node.plain_iff.mp h).2 child hchild).1
    obtain ⟨p, -, heq⟩ := mem_under.mp hmem
    rw [hfor.label] at heq
    contradiction
  rw [Node.entries_eq, List.mem_append, or_iff_left hbelow]
  split <;> simp_all

/-- `add` throws only where there is a rule for the same pieces. -/
theorem Node.insert_isSome_iff {n : ℕ} {ps : List Piece} (hps : ∀ piece ∈ ps, piece ≠ .byte 0) {node : Node}
    (h : node.Plain) : (node.insert n ps).isSome = true ↔ ∀ m, (ps, m) ∉ node.entries := by
  induction ps generalizing node with
  | nil =>
    rw [Node.insert]
    split <;> simp_all [Node.mem_entries_nil h]
  | cons piece rest ih =>
    obtain ⟨hpiece, hrest⟩ := List.forall_mem_cons.mp hps
    obtain ⟨hnodup, hchildren⟩ := node.plain_iff.mp h
    rcases Node.insert_cons h hpiece n rest with ⟨pre, child, post, hsplit, hlabel, hinsert⟩ | ⟨hnone, hinsert⟩
    · have hmem : child ∈ node.children := by simp [hsplit]
      rw [hinsert, Option.isSome_map, ih hrest (hchildren child hmem).2]
      refine forall_congr' fun m => not_congr ?_
      rw [Node.mem_entries_cons h]
      constructor
      · exact fun hentry => ⟨child, hmem, hlabel, hentry⟩
      · rintro ⟨child', hmem', hlabel', hentry⟩
        rwa [List.inj_on_of_nodup_map hnodup hmem hmem' (hlabel.trans hlabel'.symm)]
    · rw [hinsert, Option.isSome_map, ih hrest piece.plain_newNode, Piece.entries_newNode]
      simp only [List.not_mem_nil, not_false_eq_true, implies_true, true_iff]
      intro m hentry
      obtain ⟨child, hmem, hlabel, -⟩ := (Node.mem_entries_cons h).mp hentry
      exact hnone child hmem hlabel

/-- One entry more. -/
structure Inserted (node : Node) (ps : List Piece) (n : ℕ) (node' : Node) : Prop where
  plain : node'.Plain
  key : node'.key = node.key
  param : node'.param = node.param
  entries : ∀ e, e ∈ node'.entries ↔ e = (ps, n) ∨ e ∈ node.entries

theorem Inserted.label {node node' : Node} {ps : List Piece} {n : ℕ} (h : Inserted node ps n node') :
    node'.label = node.label := by
  rw [Node.label, h.param, h.key, Node.label]

theorem Inserted.mem_under {node node' : Node} {ps : List Piece} {n : ℕ} (h : Inserted node ps n node') {piece : Piece}
    (hlabel : node.label = [piece]) (e : List Piece × ℕ) :
    e ∈ under node'.label node'.entries ↔ e = (piece :: ps, n) ∨ e ∈ under node.label node.entries := by
  rw [h.label, hlabel, Crow.mem_under, Crow.mem_under]
  constructor
  · rintro ⟨p, hp, heq⟩
    rcases (h.entries _).mp hp with hnew | hold
    · obtain ⟨rfl, hn⟩ := Prod.mk.inj hnew
      exact Or.inl (Prod.ext heq.symm hn)
    · exact Or.inr ⟨p, hold, heq⟩
  · rintro (rfl | ⟨p, hp, heq⟩)
    · exact ⟨ps, (h.entries _).mpr (Or.inl rfl), rfl⟩
    · exact ⟨p, (h.entries _).mpr (Or.inr hp), heq⟩

theorem Node.insert_inserted {n : ℕ} (hn : n ≠ 0) {ps : List Piece} (hps : ∀ piece ∈ ps, piece ≠ .byte 0)
    {node node' : Node} (h : node.Plain) (hinsert : node.insert n ps = some node') : Inserted node ps n node' := by
  induction ps generalizing node node' with
  | nil =>
    rw [Node.insert] at hinsert
    split at hinsert
    · contradiction
    · next hzero =>
      obtain rfl := Option.some.inj hinsert
      have hzero : node.ruleIndex = 0 := not_ne_iff.mp hzero
      refine ⟨Node.plain_iff _ |>.mpr (node.plain_iff.mp h), rfl, rfl, fun e => ?_⟩
      simp [Node.entries_eq, hzero, hn]
  | cons piece rest ih =>
    obtain ⟨hpiece, hrest⟩ := List.forall_mem_cons.mp hps
    obtain ⟨hnodup, hchildren⟩ := node.plain_iff.mp h
    rcases Node.insert_cons h hpiece n rest with ⟨pre, child, post, hsplit, hlabel, heq⟩ | ⟨hnone, heq⟩
    · rw [heq, Option.map_eq_some_iff] at hinsert
      obtain ⟨child', hchild', rfl⟩ := hinsert
      rw [hsplit] at hnodup hchildren
      have hmem : child ∈ pre ++ child :: post := by simp
      obtain ⟨⟨piece', hfor⟩, hplain⟩ := hchildren child hmem
      have hins := ih hrest hplain hchild'
      refine ⟨Node.plain_iff _ |>.mpr ⟨?_, ?_⟩, rfl, rfl, fun e => ?_⟩
      · simpa [hins.label] using hnodup
      · intro c hc
        rcases List.mem_append.mp hc with hpre | hc
        · exact hchildren c (List.mem_append_left _ hpre)
        rcases List.mem_cons.mp hc with rfl | hpost
        · exact ⟨⟨piece', hins.key.trans hfor.key, hins.param.trans hfor.param⟩, hins.plain⟩
        · exact hchildren c (List.mem_append_right _ (List.mem_cons_of_mem _ hpost))
      · rw [Node.entries_eq, Node.entries_eq node, hsplit]
        simp only [entriesBelow_append, entriesBelow, List.mem_append, hins.mem_under hlabel]
        tauto
    · rw [heq, Option.map_eq_some_iff] at hinsert
      obtain ⟨child', hchild', rfl⟩ := hinsert
      have hins := ih hrest piece.plain_newNode hchild'
      have hlabel : piece.newNode.label = [piece] := Piece.IsFor.label ⟨rfl, rfl⟩
      refine ⟨Node.plain_iff _ |>.mpr ⟨?_, ?_⟩, rfl, rfl, fun e => ?_⟩
      · rw [List.map_append, List.map_singleton, hins.label, hlabel]
        refine List.nodup_append.mpr ⟨hnodup, List.nodup_singleton _, ?_⟩
        intro l hl l' hl' heq
        obtain ⟨c, hc, rfl⟩ := List.mem_map.mp hl
        exact hnone c hc (heq.trans (List.mem_singleton.mp hl'))
      · intro c hc
        rcases List.mem_append.mp hc with hold | hnew
        · exact hchildren c hold
        · rw [List.mem_singleton.mp hnew]
          exact ⟨⟨piece, hins.key, hins.param⟩, hins.plain⟩
      · rw [Node.entries_eq, Node.entries_eq node]
        have hbelow := hins.mem_under hlabel e
        simp only [Piece.entries_newNode, under, List.map_nil, List.not_mem_nil, or_false] at hbelow
        simp only [entriesBelow_append, entriesBelow, List.append_nil, List.mem_append, under, hbelow]
        tauto

mutual

theorem Node.Plain.proper {node : Node} (h : node.Plain) : node.Proper := by
  match node with
  | ⟨_, _, _, children⟩ =>
    rw [Node.Plain] at h
    rw [Node.Proper]
    exact h.2.properBelow

theorem PlainBelow.properBelow {children : List Node} (h : PlainBelow children) : ProperBelow children := by
  match children with
  | [] => exact trivial
  | child :: children =>
    rw [PlainBelow] at h
    obtain ⟨⟨piece, hfor⟩, hplain, hrest⟩ := h
    rw [ProperBelow]
    exact ⟨hfor.label ▸ List.cons_ne_nil _ _, hplain.proper, PlainBelow.properBelow hrest⟩

end

/-- The label of a node that has the key `key`. -/
def Node.labelFor (key : List UInt8) (node : Node) : List Piece := Node.label { node with key := key }

theorem Node.labelFor_key (node : Node) : node.labelFor node.key = node.label := by
  cases node
  rfl

theorem Node.isSimpleNode_cons {ruleIndex : ℕ} {key : List UInt8} {param : Option ParamType} {child : Node}
    {rest : List Node} (h : Node.isSimpleNode ⟨ruleIndex, key, param, child :: rest⟩ = true) :
    ruleIndex = 0 ∧ param = none ∧ rest = [] ∧ child.param = none := by
  simp only [isSimpleNode, List.length_cons, List.all_cons, Bool.and_eq_true, beq_iff_eq, decide_eq_true_eq] at h
  obtain ⟨⟨⟨hindex, hlength⟩, hparam⟩, hchild, -⟩ := h
  exact ⟨hindex, hparam, List.eq_nil_of_length_eq_zero (by omega), hchild⟩

theorem Node.labelFor_append {key : List UInt8} {child : Node} (h : child.param = none) :
    child.labelFor (key ++ child.key) = key.map .byte ++ child.label := by
  simp [labelFor, label, h]

mutual

/-- Merging nodes keeps the ways to the rules. -/
theorem under_optimizeNode (key : List UInt8) (node : Node) :
    under (optimizeNode key node).label (optimizeNode key node).entries = under (node.labelFor key) node.entries := by
  match node with
  | ⟨ruleIndex, own, param, []⟩ => rfl
  | ⟨ruleIndex, own, param, child :: rest⟩ =>
    rw [optimizeNode]
    split
    · next hsimple =>
      obtain ⟨rfl, rfl, rfl, hchild⟩ := Node.isSimpleNode_cons hsimple
      have hentries : Node.entries ⟨0, own, none, [child]⟩ = under child.label child.entries := by
        simp [Node.entries_eq ⟨0, own, none, [child]⟩, entriesBelow]
      rw [under_optimizeNode (key ++ child.key) child, Node.labelFor_append hchild, under_append, hentries]
      rfl
    · have hfirst := under_optimizeNode child.key child
      rw [Node.labelFor_key] at hfirst
      rw [Node.entries_eq, Node.entries_eq ⟨ruleIndex, own, param, child :: rest⟩]
      simp only [entriesBelow, hfirst, entriesBelow_optimizeNodes rest]
      rfl

theorem entriesBelow_optimizeNodes (children : List Node) :
    entriesBelow (optimizeNodes children) = entriesBelow children := by
  match children with
  | [] => rfl
  | child :: children =>
    have hfirst := under_optimizeNode child.key child
    rw [Node.labelFor_key] at hfirst
    rw [optimizeNodes, entriesBelow, entriesBelow, hfirst, entriesBelow_optimizeNodes children]

end

mutual

theorem proper_optimizeNode (key : List UInt8) (node : Node) (hlabel : node.labelFor key ≠ []) (h : node.Proper) :
    (optimizeNode key node).label ≠ [] ∧ (optimizeNode key node).Proper := by
  match node with
  | ⟨ruleIndex, own, param, []⟩ => exact ⟨hlabel, h⟩
  | ⟨ruleIndex, own, param, child :: rest⟩ =>
    have hbelow := (Node.proper_iff _).mp h
    rw [ProperBelow] at hbelow
    rw [optimizeNode]
    split
    · next hsimple =>
      obtain ⟨rfl, rfl, rfl, hchild⟩ := Node.isSimpleNode_cons hsimple
      refine proper_optimizeNode (key ++ child.key) child ?_ hbelow.2.1
      rw [Node.labelFor_append hchild]
      exact List.append_ne_nil_of_right_ne_nil _ hbelow.1
    · have hfirst := proper_optimizeNode child.key child (child.labelFor_key ▸ hbelow.1) hbelow.2.1
      refine ⟨hlabel, (Node.proper_iff _).mpr ?_⟩
      rw [ProperBelow]
      exact ⟨hfirst.1, hfirst.2, proper_optimizeNodes rest hbelow.2.2⟩

theorem proper_optimizeNodes (children : List Node) (h : ProperBelow children) :
    ProperBelow (optimizeNodes children) := by
  match children with
  | [] => exact h
  | child :: children =>
    rw [ProperBelow] at h
    have hfirst := proper_optimizeNode child.key child (child.labelFor_key ▸ h.1) h.2.1
    rw [optimizeNodes, ProperBelow]
    exact ⟨hfirst.1, hfirst.2, proper_optimizeNodes children h.2.2⟩

end

theorem Node.isSimpleNode_iff (node : Node) : node.isSimpleNode = true ↔
    node.ruleIndex = 0 ∧ node.children.length < 2 ∧ node.param = none ∧
      ∀ child ∈ node.children, child.param = none := by
  simp [isSimpleNode, and_assoc]

/-- The trie that is searched has the entries of the trie that was built. -/
theorem Node.validate_entries {head head' : Node} (hplain : head.Plain) (h : head.validate = some head') :
    head'.Proper ∧ head'.entries = head.entries := by
  rw [validate] at h
  split at h
  · obtain rfl := Option.some.inj h
    constructor
    · refine (proper_iff _).mpr (proper_optimizeNodes _ ((proper_iff head).mp ?_))
      exact hplain.proper
    · rw [entries_eq, entries_eq head, entriesBelow_optimizeNodes]
  · contradiction

end SmartParking.Crow
