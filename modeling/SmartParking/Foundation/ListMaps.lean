import Mathlib.Data.List.Nodup
import Mathlib.Data.List.Range

/-! # Maps over lists

Maps that may fail, which fail if one element does, and maps whose lists are told apart by the
index they are made at.
-/
namespace Foundation.ListMaps
variable {α β γ : Type}

theorem isSome_mapM (f : α → Option β) (l : List α) : (l.mapM f).isSome = true ↔ ∀ a ∈ l, (f a).isSome = true := by
  induction l with
  | nil => simp
  | cons a l ih =>
    rw [List.mapM_cons, List.forall_mem_cons, ← ih]
    cases f a <;> cases l.mapM f <;> simp

theorem mapM_map_some (f : α → Option β) (g : β → γ) (l : List α) :
    (l.mapM fun a => (f a).map g) = (l.mapM f).map (List.map g) := by
  induction l with
  | nil => rfl
  | cons a l ih =>
    rw [List.mapM_cons, List.mapM_cons, ih]
    cases f a <;> cases l.mapM f <;> rfl

theorem mapM_cons_eq_some_iff {f : α → Option β} {a : α} {as : List α} {bs : List β} :
    (a :: as).mapM f = some bs ↔ ∃ b bs', f a = some b ∧ as.mapM f = some bs' ∧ bs = b :: bs' := by
  simp only [List.mapM_cons, Option.bind_eq_bind, Option.bind_eq_some_iff, Option.pure_def, Option.some_inj]
  constructor
  · rintro ⟨b, hb, bs', hbs', rfl⟩
    exact ⟨b, bs', hb, hbs', rfl⟩
  · rintro ⟨b, bs', hb, hbs', rfl⟩
    exact ⟨b, hb, bs', hbs', rfl⟩

theorem forall_of_mapM {f : α → Option β} {P : β → Prop} (hf : ∀ a b, f a = some b → P b)
    {as : List α} {bs : List β} (h : as.mapM f = some bs) : ∀ b ∈ bs, P b := by
  induction as generalizing bs with
  | nil =>
    obtain rfl := Option.some.inj h
    simp
  | cons a as ih =>
    obtain ⟨b, rest, hb, hrest, rfl⟩ := mapM_cons_eq_some_iff.mp h
    exact List.forall_mem_cons.mpr ⟨hf a b hb, ih hrest⟩

/-- Lists that are told apart by the index they were made at have nothing in common. -/
theorem nodup_flatMap_indexed {l : List (α × ℕ)} {f : α × ℕ → List β} (index : β → ℕ)
    (hl : (l.map Prod.snd).Nodup) (hf : ∀ q, (f q).Nodup) (hindex : ∀ q, ∀ b ∈ f q, index b = q.2) :
    (l.flatMap f).Nodup := by
  rw [List.nodup_flatMap]
  refine ⟨fun q _ => hf q, ?_⟩
  rw [List.nodup_iff_pairwise_ne, List.pairwise_map] at hl
  refine hl.imp ?_
  intro q q' hne b hb hb'
  exact hne ((hindex q b hb).symm.trans (hindex q' b hb'))

theorem nodup_map_snd_zipIdx (l : List α) : (l.zipIdx.map Prod.snd).Nodup := by
  rw [List.zipIdx_map_snd]
  exact List.nodup_range'

end Foundation.ListMaps
