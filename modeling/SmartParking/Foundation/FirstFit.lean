import Mathlib.Data.List.Nodup

/-! # First-fit search

A loop that probes the elements of a list in order and returns at the first probe
that succeeds, with the position it stopped at and what the probe found there.
-/
namespace Foundation.FirstFit
variable {α β : Type*}

/-- The first position at which the probe succeeds, and its result there. -/
def firstSome (probe : α → Option β) : List α → Option (ℕ × β)
  | [] => none
  | a :: l =>
    match probe a with
    | some b => some (0, b)
    | none => (firstSome probe l).map (fun q => (q.1 + 1, q.2))

theorem firstSome_sound {probe : α → Option β} {l : List α} {i : ℕ} {b : β}
    (h : firstSome probe l = some (i, b)) : ∃ a, l[i]? = some a ∧ probe a = some b := by
  induction l generalizing i with
  | nil => simp [firstSome] at h
  | cons a l ih =>
    unfold firstSome at h
    cases ha : probe a with
    | some b' =>
      simp only [ha, Option.some.injEq, Prod.mk.injEq] at h
      obtain ⟨rfl, rfl⟩ := h
      exact ⟨a, rfl, ha⟩
    | none =>
      simp only [ha, Option.map_eq_some_iff, Prod.mk.injEq] at h
      obtain ⟨⟨j, b'⟩, hj, rfl, rfl⟩ := h
      obtain ⟨a', hl, hp⟩ := ih hj
      exact ⟨a', by simpa using hl, hp⟩

theorem firstSome_eq_none_iff {probe : α → Option β} {l : List α} :
    firstSome probe l = none ↔ ∀ a ∈ l, probe a = none := by
  induction l with
  | nil => simp [firstSome]
  | cons a l ih =>
    unfold firstSome
    cases ha : probe a with
    | some b => simp [ha]
    | none => simp [ha, ih]

theorem findSome?_zipIdx_succ (f : α × ℕ → Option β) (l : List α) (n : ℕ) :
    (l.zipIdx (n + 1)).findSome? f = (l.zipIdx n).findSome? (fun q => f (q.1, q.2 + 1)) := by
  induction l generalizing n with
  | nil => rfl
  | cons a l ih => simp only [List.zipIdx_cons, List.findSome?_cons, ih]

/-- The loop searches the elements paired with their positions. -/
theorem firstSome_eq_findSome? (probe : α → Option β) (l : List α) :
    firstSome probe l = l.zipIdx.findSome? (fun q => (probe q.1).map (fun b => (q.2, b))) := by
  induction l with
  | nil => rfl
  | cons a l ih =>
    rw [firstSome, List.zipIdx_cons, List.findSome?_cons, findSome?_zipIdx_succ]
    cases ha : probe a with
    | some b => rfl
    | none =>
      simp only [ih, List.map_findSome?, Option.map_none]
      congr 1
      funext q
      rw [Function.comp_apply, Option.map_map]
      rfl

/-- Skipping the elements that fail a test is searching the others. -/
theorem findSome?_filter (q : α → Bool) (f : α → Option β) (l : List α) :
    (l.filter q).findSome? f = l.findSome? (fun a => if q a then f a else none) := by
  induction l with
  | nil => rfl
  | cons a l ih =>
    rw [List.filter_cons, List.findSome?_cons]
    cases hq : q a with
    | true => simp only [if_true, List.findSome?_cons, ih]
    | false => simp only [Bool.false_eq_true, if_false, ih]

theorem firstSome_append_left {probe : α → Option β} {l : List α} {q : ℕ × β} (h : firstSome probe l = some q)
    (more : List α) : firstSome probe (l ++ more) = some q := by
  induction l generalizing q with
  | nil => simp [firstSome] at h
  | cons a l ih =>
    rw [List.cons_append, firstSome]
    rw [firstSome] at h
    cases ha : probe a with
    | some b => simpa only [ha] using h
    | none =>
      simp only [ha, Option.map_eq_some_iff] at h
      obtain ⟨q', hq', rfl⟩ := h
      simp only [ih hq', Option.map_some]

theorem firstSome_append_right {probe : α → Option β} {l : List α} (h : firstSome probe l = none)
    (more : List α) :
    firstSome probe (l ++ more) = (firstSome probe more).map (fun q => (l.length + q.1, q.2)) := by
  induction l with
  | nil => simp
  | cons a l ih =>
    rw [firstSome_eq_none_iff] at h
    have hrest : firstSome probe l = none :=
      firstSome_eq_none_iff.mpr (fun b hb => h b (List.mem_cons_of_mem _ hb))
    have hshift : (fun q : ℕ × β => (q.1 + 1, q.2)) ∘ (fun q : ℕ × β => (l.length + q.1, q.2)) =
        fun q : ℕ × β => ((a :: l).length + q.1, q.2) := by
      funext q
      apply Prod.ext
      · simp only [Function.comp_apply, List.length_cons]
        omega
      · rfl
    rw [List.cons_append, firstSome, h a List.mem_cons_self]
    dsimp only
    rw [ih hrest, Option.map_map, hshift]

/-- The first element that passes a test, with its position. -/
def findRef (p : α → Bool) : List α → Option (ℕ × α) := firstSome (Option.guard p)

/-- Searching the images under a map that the test does not see through. -/
theorem findRef_map {γ : Type*} {p : γ → Bool} {q : α → Bool} {f : α → γ} (h : ∀ a, p (f a) = q a) (l : List α) :
    findRef p (l.map f) = (findRef q l).map (fun r => (r.1, f r.2)) := by
  induction l with
  | nil => rfl
  | cons a l ih =>
    rw [findRef] at ih
    rw [List.map_cons, findRef, firstSome, findRef, firstSome, Option.guard, Option.guard, h a]
    by_cases ha : q a = true
    · simp only [ha, if_true, Option.map_some]
    · simp only [ha, ih, findRef, Option.map_map, Bool.false_eq_true, if_false]
      rfl

theorem findRef_sound {p : α → Bool} {l : List α} {i : ℕ} {a : α} (h : findRef p l = some (i, a)) :
    l[i]? = some a ∧ p a = true := by
  obtain ⟨a', hget, hguard⟩ := firstSome_sound h
  obtain ⟨rfl, hp⟩ := Option.guard_eq_some_iff.mp hguard
  exact ⟨hget, hp⟩

theorem findRef_eq_none_iff {p : α → Bool} {l : List α} : findRef p l = none ↔ ∀ a ∈ l, p a = false := by
  rw [findRef, firstSome_eq_none_iff]
  simp only [Option.guard_eq_none_iff]

/-- The elements before the one found fail the test. -/
theorem findRef_first {p : α → Bool} {l : List α} {i j : ℕ} {a b : α} (h : findRef p l = some (j, a))
    (hb : l[i]? = some b) (hp : p b = true) : j ≤ i := by
  induction l generalizing i j with
  | nil => simp at hb
  | cons c l ih =>
    rw [findRef, firstSome, Option.guard] at h
    by_cases hc : p c = true
    · simp only [hc, if_true, Option.some.injEq, Prod.mk.injEq] at h
      omega
    · simp only [hc, Bool.false_eq_true, if_false, Option.map_eq_some_iff, Prod.mk.injEq] at h
      obtain ⟨⟨k, a'⟩, hk, rfl, rfl⟩ := h
      cases i with
      | zero =>
        obtain rfl : c = b := by simpa using hb
        exact absurd hp hc
      | succ i =>
        have hle : k ≤ i := ih hk (by simpa using hb)
        exact Nat.succ_le_succ hle

/-- Where no two elements share a key, searching for a key finds the element that has it. -/
theorem findRef_key_iff {κ : Type*} [DecidableEq κ] {key : α → κ} {l : List α} (h : (l.map key).Nodup)
    {k : κ} {i : ℕ} {a : α} :
    findRef (fun b => key b == k) l = some (i, a) ↔ l[i]? = some a ∧ key a = k := by
  constructor
  · intro hfind
    obtain ⟨hget, hkey⟩ := findRef_sound hfind
    exact ⟨hget, beq_iff_eq.mp hkey⟩
  · rintro ⟨hget, rfl⟩
    cases hfind : findRef (fun b => key b == key a) l with
    | none =>
      have hne := findRef_eq_none_iff.mp hfind a (List.mem_of_getElem? hget)
      simp at hne
    | some found =>
      obtain ⟨j, b⟩ := found
      obtain ⟨hgetb, hkey⟩ := findRef_sound hfind
      have hj : (l.map key)[j]? = (l.map key)[i]? := by
        rw [List.getElem?_map, List.getElem?_map, hgetb, hget, Option.map_some, Option.map_some,
          beq_iff_eq.mp hkey]
      have hlt : j < (l.map key).length := by
        rw [List.length_map]
        exact (List.getElem?_eq_some_iff.mp hgetb).1
      obtain rfl : j = i := (List.getElem?_inj hlt h).mp hj
      rw [Option.some.inj (hgetb.symm.trans hget)]

/-- Where no two elements share a key, what holds of the element with a key, if there is one,
holds of what the search finds. -/
theorem absent_or_iff {κ : Type*} [DecidableEq κ] {key : α → κ} {l : List α} (h : (l.map key).Nodup) (k : κ)
    (P : α → Prop) :
    ((∀ a ∈ l, key a ≠ k) ∨ ∃ a ∈ l, key a = k ∧ P a) ↔
      ∀ i a, findRef (fun b => key b == k) l = some (i, a) → P a := by
  constructor
  · intro hcases i a hfind
    obtain ⟨hget, hkey⟩ := (findRef_key_iff h).mp hfind
    rcases hcases with habsent | ⟨b, hb, hkeyb, hP⟩
    · exact absurd hkey (habsent a (List.mem_of_getElem? hget))
    · rwa [List.inj_on_of_nodup_map h (List.mem_of_getElem? hget) hb (hkey.trans hkeyb.symm)]
  · intro hfound
    by_cases hex : ∃ a ∈ l, key a = k
    · obtain ⟨a, ha, hkey⟩ := hex
      obtain ⟨i, hget⟩ := List.mem_iff_getElem?.mp ha
      exact Or.inr ⟨a, ha, hkey, hfound i a ((findRef_key_iff h).mpr ⟨hget, hkey⟩)⟩
    · exact Or.inl (fun a ha hkey => hex ⟨a, ha, hkey⟩)

end Foundation.FirstFit
