import Mathlib.Data.List.Nodup
import Mathlib.Data.Set.Card

/-! # Holding ledgers

A ledger says who holds what: no holder has two entries and no place is held
twice. Entries are kept in the order they were made, the latest first, and a
ledger that only pops its latest entry needs no search to stay one.
-/
namespace Foundation

structure Ledger (ρ σ : Type*) where
  entries : List (ρ × σ)
  holders_nodup : (entries.map Prod.fst).Nodup
  places_nodup : (entries.map Prod.snd).Nodup

namespace Ledger
variable {ρ σ : Type*}

def holders (l : Ledger ρ σ) : Set ρ := {r | ∃ p, (r, p) ∈ l.entries}
def places (l : Ledger ρ σ) : Set σ := {p | ∃ r, (r, p) ∈ l.entries}

theorem holder_unique (l : Ledger ρ σ) {r r' : ρ} {p : σ} (hr : (r, p) ∈ l.entries)
    (hr' : (r', p) ∈ l.entries) : r = r' := by
  have h := List.inj_on_of_nodup_map l.places_nodup hr hr' rfl
  exact congrArg Prod.fst h

theorem ncard_places (l : Ledger ρ σ) : l.places.ncard = l.entries.length := by
  classical
  have hset : l.places = ↑(l.entries.map Prod.snd).toFinset := by
    ext p
    simp [places]
  rw [hset, Set.ncard_coe_finset, List.toFinset_card_of_nodup l.places_nodup, List.length_map]

def empty : Ledger ρ σ := ⟨[], List.nodup_nil, List.nodup_nil⟩

@[simp] theorem entries_empty : (empty : Ledger ρ σ).entries = [] := rfl

/-- A newcomer takes a free place. -/
def take (l : Ledger ρ σ) (r : ρ) (p : σ) (hr : r ∉ l.holders) (hp : p ∉ l.places) : Ledger ρ σ where
  entries := (r, p) :: l.entries
  holders_nodup := by
    refine List.nodup_cons.mpr ⟨?_, l.holders_nodup⟩
    intro h
    obtain ⟨⟨r', q⟩, hq, rfl⟩ := List.mem_map.mp h
    exact hr ⟨q, hq⟩
  places_nodup := by
    refine List.nodup_cons.mpr ⟨?_, l.places_nodup⟩
    intro h
    obtain ⟨⟨r', q⟩, hq, rfl⟩ := List.mem_map.mp h
    exact hp ⟨r', hq⟩

theorem holders_take {l : Ledger ρ σ} {r : ρ} {p : σ} (hr : r ∉ l.holders) (hp : p ∉ l.places) :
    (l.take r p hr hp).holders = insert r l.holders := by
  ext r'
  simp [holders, take, exists_or]

theorem places_take {l : Ledger ρ σ} {r : ρ} {p : σ} (hr : r ∉ l.holders) (hp : p ∉ l.places) :
    (l.take r p hr hp).places = insert p l.places := by
  ext q
  simp [places, take, exists_or]

def pop (l : Ledger ρ σ) : Ledger ρ σ where
  entries := l.entries.tail
  holders_nodup := by
    rw [List.map_tail]
    exact l.holders_nodup.tail
  places_nodup := by
    rw [List.map_tail]
    exact l.places_nodup.tail

variable {l : Ledger ρ σ} {r : ρ} {p : σ} {rest : List (ρ × σ)}

theorem holders_pop (h : l.entries = (r, p) :: rest) : l.pop.holders = l.holders \ {r} := by
  ext r'
  constructor
  · rintro ⟨q, hq⟩
    have hq' : (r', q) ∈ rest := by simpa [pop, h] using hq
    have hmem : (r', q) ∈ l.entries := h ▸ List.mem_cons_of_mem _ hq'
    refine ⟨⟨q, hmem⟩, ?_⟩
    rintro rfl
    have hnd := l.holders_nodup
    rw [h, List.map_cons, List.nodup_cons] at hnd
    exact hnd.1 (List.mem_map.mpr ⟨(r', q), hq', rfl⟩)
  · rintro ⟨⟨q, hq⟩, hne⟩
    rw [h] at hq
    rcases List.mem_cons.mp hq with heq | hq
    · exact absurd (congrArg Prod.fst heq) hne
    · exact ⟨q, by simpa [pop, h] using hq⟩

theorem places_pop (h : l.entries = (r, p) :: rest) : l.pop.places = l.places \ {p} := by
  ext q
  constructor
  · rintro ⟨r', hr'⟩
    have hr'' : (r', q) ∈ rest := by simpa [pop, h] using hr'
    have hmem : (r', q) ∈ l.entries := h ▸ List.mem_cons_of_mem _ hr''
    refine ⟨⟨r', hmem⟩, ?_⟩
    rintro rfl
    have hnd := l.places_nodup
    rw [h, List.map_cons, List.nodup_cons] at hnd
    exact hnd.1 (List.mem_map.mpr ⟨(r', q), hr'', rfl⟩)
  · rintro ⟨⟨r', hr'⟩, hne⟩
    rw [h] at hr'
    rcases List.mem_cons.mp hr' with heq | hr'
    · exact absurd (congrArg Prod.snd heq) hne
    · exact ⟨r', by simpa [pop, h] using hr'⟩

end Ledger

end Foundation
