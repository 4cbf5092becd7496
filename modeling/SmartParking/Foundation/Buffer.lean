import SmartParking.Foundation.ListUpdate

/-! # Growing buffers and references into them

A vector keeps its elements in a buffer of some capacity. Pushing onto a full buffer
moves the elements to a larger one of a new generation. A reference is the generation
of the buffer it was taken in and an index; what is written through a reference into
an older buffer does not reach the vector.
-/
namespace Foundation.Buffer
open ListUpdate

structure GrowthPolicy where
  next : ℕ → ℕ
  lt_next : ∀ capacity, capacity < next capacity

/-- The capacity doubles, and the first element gets a buffer of one. -/
def doubling : GrowthPolicy where
  next capacity := capacity + max capacity 1
  lt_next capacity := by omega

structure Vec (α : Type*) where
  items : List α
  capacity : ℕ
  generation : ℕ
  fits : items.length ≤ capacity
  deriving DecidableEq, Repr

structure Ref where
  generation : ℕ
  index : ℕ
  deriving DecidableEq, Repr

variable {α : Type*}

/-- The reference points to an element of the buffer the vector uses now. -/
def Ref.Live (r : Ref) (v : Vec α) : Prop := r.generation = v.generation ∧ r.index < v.items.length

namespace Vec

def empty : Vec α := ⟨[], 0, 0, Nat.le_refl _⟩

/-- A copy of a sequence gets a buffer of exactly its size. -/
def ofList (items : List α) : Vec α := ⟨items, items.length, 0, Nat.le_refl _⟩

@[simp] theorem items_ofList (items : List α) : (ofList items).items = items := rfl

def isFull (v : Vec α) : Bool := v.items.length == v.capacity

theorem push_fits {v : Vec α} (h : ¬ v.isFull) (a : α) : (v.items ++ [a]).length ≤ v.capacity := by
  have hne : v.items.length ≠ v.capacity := by simpa [isFull] using h
  have hle := v.fits
  simp only [List.length_append, List.length_singleton]
  omega

theorem grow_fits (policy : GrowthPolicy) (v : Vec α) (a : α) :
    (v.items ++ [a]).length ≤ policy.next v.capacity := by
  have hle := v.fits
  have hlt := policy.lt_next v.capacity
  simp only [List.length_append, List.length_singleton]
  omega

def push (policy : GrowthPolicy) (v : Vec α) (a : α) : Vec α :=
  if h : v.isFull then ⟨v.items ++ [a], policy.next v.capacity, v.generation + 1, grow_fits policy v a⟩
  else ⟨v.items ++ [a], v.capacity, v.generation, push_fits h a⟩

def ref (v : Vec α) (index : ℕ) : Ref := ⟨v.generation, index⟩

/-- `&v.back()`. -/
def backRef (v : Vec α) : Ref := v.ref (v.items.length - 1)

def read (v : Vec α) (r : Ref) : Option α :=
  if r.generation = v.generation then v.items[r.index]? else none

def modify (v : Vec α) (index : ℕ) (f : α → α) : Vec α :=
  ⟨v.items.modify index f, v.capacity, v.generation, by simpa using v.fits⟩

def set (v : Vec α) (index : ℕ) (a : α) : Vec α :=
  ⟨v.items.set index a, v.capacity, v.generation, by simpa using v.fits⟩

/-- An update through a reference, which reaches the vector only in its current buffer. -/
def write (v : Vec α) (r : Ref) (f : α → α) : Vec α :=
  if r.generation = v.generation then v.modify r.index f else v

variable {policy : GrowthPolicy} {v : Vec α} {r : Ref} {f : α → α}

@[simp] theorem items_push (v : Vec α) (a : α) : (v.push policy a).items = v.items ++ [a] := by
  unfold push
  split <;> rfl

theorem generation_push (v : Vec α) (a : α) :
    (v.push policy a).generation = if v.isFull then v.generation + 1 else v.generation := by
  unfold push
  split <;> simp [*]

@[simp] theorem items_modify (v : Vec α) (index : ℕ) : (v.modify index f).items = v.items.modify index f := rfl
@[simp] theorem items_set (v : Vec α) (index : ℕ) (a : α) : (v.set index a).items = v.items.set index a := rfl
@[simp] theorem generation_set (v : Vec α) (index : ℕ) (a : α) : (v.set index a).generation = v.generation := rfl

@[simp] theorem generation_write : (v.write r f).generation = v.generation := by
  unfold write
  split <;> rfl

@[simp] theorem length_write : (v.write r f).items.length = v.items.length := by
  unfold write
  split <;> simp

/-- What is written through a live reference is an update at its index. -/
theorem items_write (h : r.Live v) : (v.write r f).items = v.items.modify r.index f := by
  rw [write, if_pos h.1]
  rfl

@[simp] theorem live_write {q : Ref} : q.Live (v.write r f) ↔ q.Live v := by
  simp only [Ref.Live, generation_write, length_write]

@[simp] theorem live_set {q : Ref} {index : ℕ} {a : α} : q.Live (v.set index a) ↔ q.Live v := by
  simp only [Ref.Live, generation_set, items_set, List.length_set]

/-- A live reference survives a push exactly when the buffer had room. -/
theorem live_push_iff (h : r.Live v) (a : α) : r.Live (v.push policy a) ↔ ¬ v.isFull := by
  obtain ⟨hgen, hlt⟩ := h
  have hlt' : r.index < (v.push policy a).items.length := by
    rw [items_push, List.length_append]
    omega
  simp only [Ref.Live, hlt', and_true, generation_push]
  by_cases hfull : v.isFull
  · simp [hfull, hgen]
  · simp [hfull, hgen]

theorem live_backRef_push (v : Vec α) (a : α) : (v.push policy a).backRef.Live (v.push policy a) := by
  refine ⟨rfl, ?_⟩
  simp [backRef, ref]

theorem backRef_push_index (v : Vec α) (a : α) : (v.push policy a).backRef.index = v.items.length := by
  simp [backRef, ref]

end Vec

end Foundation.Buffer
