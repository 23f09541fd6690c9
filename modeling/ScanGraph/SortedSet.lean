/-
Finite sets as lists in ascending order.

Inserting keeps the elements in order and each of them once, so that a set
built by insertions lists its elements in strictly ascending order.

Sets with the same elements are equal, whatever the order and the number of times in
which these were put in, which is proved in `Proofs.Table.Canonical`; so sets can be
compared as they stand.
-/

namespace ScanGraph

/-- A finite set, as the list of its elements. -/
structure SortedSet (α : Type) where
  toList : List α
deriving Repr, DecidableEq

namespace SortedSet

variable {α : Type}

/-- The set without elements. -/
def empty : SortedSet α :=
  ⟨[]⟩

instance : Inhabited (SortedSet α) :=
  ⟨empty⟩

/-- The set has no element. -/
def isEmpty (s : SortedSet α) : Bool :=
  s.toList.isEmpty

/-- Some element satisfies `p`. -/
def any (s : SortedSet α) (p : α → Bool) : Bool :=
  s.toList.any p

instance : Membership α (SortedSet α) :=
  ⟨fun s a => a ∈ s.toList⟩

variable [DecidableEq α]

instance (a : α) (s : SortedSet α) : Decidable (a ∈ s) :=
  inferInstanceAs (Decidable (a ∈ s.toList))

/-- The set has the element. -/
def contains (s : SortedSet α) (a : α) : Bool :=
  decide (a ∈ s)

variable [LT α] [DecidableLT α]

/-- The elements with `a` among them. -/
def place (a : α) : List α → List α
  | [] => [a]
  | b :: rest =>
      if a = b then b :: rest
      else if a < b then a :: b :: rest
      else b :: place a rest

/-- The set with `a` in it. -/
def insert (s : SortedSet α) (a : α) : SortedSet α :=
  ⟨place a s.toList⟩

/-- The set of the elements of a list. -/
def ofList (l : List α) : SortedSet α :=
  l.foldl insert empty

/-! ## Membership -/

theorem mem_place (a b : α) (l : List α) : b ∈ place a l ↔ b = a ∨ b ∈ l := by
  induction l with
  | nil => simp [place]
  | cons c rest ih =>
    simp only [place]
    split
    · rename_i h
      subst h
      simp
    · split
      · simp
      · simp only [List.mem_cons, ih]
        constructor
        · rintro (h | h | h)
          · exact .inr (.inl h)
          · exact .inl h
          · exact .inr (.inr h)
        · rintro (h | h | h)
          · exact .inr (.inl h)
          · exact .inl h
          · exact .inr (.inr h)

@[simp] theorem mem_insert (s : SortedSet α) (a b : α) : b ∈ s.insert a ↔ b = a ∨ b ∈ s :=
  mem_place a b s.toList

omit [DecidableEq α] [LT α] [DecidableLT α] in
@[simp] theorem not_mem_empty (a : α) : ¬ a ∈ (empty : SortedSet α) :=
  List.not_mem_nil

theorem mem_foldl_insert (l : List α) (s : SortedSet α) (a : α) :
    a ∈ l.foldl insert s ↔ a ∈ s ∨ a ∈ l := by
  induction l generalizing s with
  | nil => simp
  | cons b rest ih =>
    simp only [List.foldl_cons, ih, mem_insert, List.mem_cons]
    constructor
    · rintro ((h | h) | h)
      · exact .inr (.inl h)
      · exact .inl h
      · exact .inr (.inr h)
    · rintro (h | h | h)
      · exact .inl (.inr h)
      · exact .inl (.inl h)
      · exact .inr h

@[simp] theorem mem_ofList (l : List α) (a : α) : a ∈ ofList l ↔ a ∈ l := by
  simp [ofList, mem_foldl_insert]

end SortedSet

end ScanGraph
