/-
Tables: finite maps as lists of entries in key order.

Inserting replaces the entry of a key or puts a new one before the first
greater key, so that a table built by insertions lists its entries in strictly
ascending key order, and two such tables with the same entries are equal.
Look-up goes by equality of keys alone.

A table that was made otherwise may have entries in any order; `Ascending` says that
they are in order, and every operation here keeps it.  Look-up finds the first entry of
a key.
-/

namespace ScanGraph

/-- A finite map, as the list of its entries. -/
structure Table (κ α : Type) where
  entries : List (κ × α)
deriving Repr, DecidableEq

namespace Table

variable {κ α : Type}

/-- The table without entries. -/
def empty : Table κ α :=
  ⟨[]⟩

instance : Inhabited (Table κ α) :=
  ⟨empty⟩

instance : EmptyCollection (Table κ α) :=
  ⟨empty⟩

def keys (t : Table κ α) : List κ :=
  t.entries.map Prod.fst

/-- The values, in the order of their keys. -/
def values (t : Table κ α) : List α :=
  t.entries.map Prod.snd

/-- The number of entries. -/
def size (t : Table κ α) : Nat :=
  t.entries.length

/-- The entries whose key and value satisfy `p`. -/
def filter (p : κ → α → Bool) (t : Table κ α) : Table κ α :=
  ⟨t.entries.filter (fun e => p e.1 e.2)⟩

/-- Every value replaced by its image, which may depend on the key. -/
def map {β : Type} (f : κ → α → β) (t : Table κ α) : Table κ β :=
  ⟨t.entries.map (fun e => (e.1, f e.1 e.2))⟩

section Lookup

variable [DecidableEq κ]

/-- The value of a key in a list of entries. -/
def find? (k : κ) : List (κ × α) → Option α
  | [] => none
  | (k', v) :: rest => if k = k' then some v else find? k rest

/-- The value of a key. -/
def get? (t : Table κ α) (k : κ) : Option α :=
  find? k t.entries

/-- A key has a value. -/
def contains (t : Table κ α) (k : κ) : Bool :=
  (t.get? k).isSome

/-- The table without the entries of a key. -/
def erase (t : Table κ α) (k : κ) : Table κ α :=
  ⟨t.entries.filter (fun e => decide (e.1 ≠ k))⟩

end Lookup

section Insert

variable [DecidableEq κ] [LT κ] [DecidableLT κ]

/-- The entries with the value of `k` set to `v`. -/
def place (k : κ) (v : α) : List (κ × α) → List (κ × α)
  | [] => [(k, v)]
  | (k', v') :: rest =>
      if k = k' then (k, v) :: rest
      else if k < k' then (k, v) :: (k', v') :: rest
      else (k', v') :: place k v rest

/-- The table with the value of `k` set to `v`. -/
def insert (t : Table κ α) (k : κ) (v : α) : Table κ α :=
  ⟨place k v t.entries⟩

/-- The table with the value of `k` set to the image of its present value, if it has one. -/
def alter (t : Table κ α) (k : κ) (f : Option α → α) : Table κ α :=
  t.insert k (f (t.get? k))

/-- The table of a list of entries; of a repeated key the last value stays. -/
def ofList (l : List (κ × α)) : Table κ α :=
  l.foldl (fun t e => t.insert e.1 e.2) empty

end Insert

/-! ## Look-up after a change -/

section Laws

variable [DecidableEq κ]

@[simp] theorem get?_empty (k : κ) : (empty : Table κ α).get? k = none := rfl

theorem find?_filter_ne (k k' : κ) (l : List (κ × α)) (h : k ≠ k') :
    find? k (l.filter (fun e => decide (e.1 ≠ k'))) = find? k l := by
  induction l with
  | nil => rfl
  | cons e rest ih =>
    obtain ⟨a, v⟩ := e
    by_cases ha : a = k'
    · subst ha
      simp only [ne_eq, not_true_eq_false, decide_false, Bool.false_eq_true, not_false_eq_true,
        List.filter_cons_of_neg, find?]
      rw [if_neg h]
      simpa using ih
    · simp only [ne_eq, ha, not_false_eq_true, decide_true, List.filter_cons_of_pos, find?]
      split
      · rfl
      · simpa using ih

theorem find?_filter_self (k : κ) (l : List (κ × α)) :
    find? k (l.filter (fun e => decide (e.1 ≠ k))) = none := by
  induction l with
  | nil => rfl
  | cons e rest ih =>
    obtain ⟨a, v⟩ := e
    by_cases ha : a = k
    · subst ha
      simpa using ih
    · have hk : k ≠ a := fun h => ha h.symm
      simp only [ne_eq, ha, not_false_eq_true, decide_true, List.filter_cons_of_pos, find?]
      rw [if_neg hk]
      simpa using ih

@[simp] theorem get?_erase_self (t : Table κ α) (k : κ) : (t.erase k).get? k = none :=
  find?_filter_self k t.entries

theorem get?_erase_of_ne (t : Table κ α) {k k' : κ} (h : k ≠ k') :
    (t.erase k').get? k = t.get? k :=
  find?_filter_ne k k' t.entries h

variable [LT κ] [DecidableLT κ]

theorem find?_place_self (k : κ) (v : α) (l : List (κ × α)) :
    find? k (place k v l) = some v := by
  induction l with
  | nil => simp [place, find?]
  | cons e rest ih =>
    obtain ⟨a, w⟩ := e
    simp only [place]
    split
    · simp [find?]
    · rename_i h
      split
      · simp [find?]
      · simp [find?, h, ih]

theorem find?_place_of_ne {k k' : κ} (v : α) (l : List (κ × α)) (h : k ≠ k') :
    find? k (place k' v l) = find? k l := by
  induction l with
  | nil => simp [place, find?, h]
  | cons e rest ih =>
    obtain ⟨a, w⟩ := e
    simp only [place]
    split
    · rename_i ha
      subst ha
      simp [find?, h]
    · split
      · simp [find?, h]
      · simp [find?, ih]

@[simp] theorem get?_insert_self (t : Table κ α) (k : κ) (v : α) :
    (t.insert k v).get? k = some v :=
  find?_place_self k v t.entries

theorem get?_insert_of_ne (t : Table κ α) {k k' : κ} (v : α) (h : k ≠ k') :
    (t.insert k' v).get? k = t.get? k :=
  find?_place_of_ne v t.entries h

theorem get?_insert (t : Table κ α) (k k' : κ) (v : α) :
    (t.insert k' v).get? k = if k = k' then some v else t.get? k := by
  split
  · rename_i h
    subst h
    exact get?_insert_self t k v
  · rename_i h
    exact get?_insert_of_ne t v h

theorem length_place {k : κ} (v : α) {l : List (κ × α)} (h : find? k l = none) :
    (place k v l).length = l.length + 1 := by
  induction l with
  | nil => rfl
  | cons e rest ih =>
    obtain ⟨a, w⟩ := e
    simp only [find?] at h
    split at h
    · exact absurd h (Option.some_ne_none _)
    · rename_i hka
      simp only [place, if_neg hka]
      split
      · rfl
      · simp only [List.length_cons, ih h]

theorem size_insert_of_none {t : Table κ α} {k : κ} (v : α) (h : t.get? k = none) :
    (t.insert k v).size = t.size + 1 :=
  length_place v h

omit [LT κ] [DecidableLT κ] in
theorem find?_map {β : Type} (f : κ → α → β) (k : κ) (l : List (κ × α)) :
    find? k (l.map (fun e => (e.1, f e.1 e.2))) = (find? k l).map (f k) := by
  induction l with
  | nil => rfl
  | cons e rest ih =>
    obtain ⟨a, w⟩ := e
    simp only [List.map_cons, find?]
    split
    · rename_i hka
      subst hka
      rfl
    · exact ih

omit [LT κ] [DecidableLT κ] in
@[simp] theorem get?_map {β : Type} (f : κ → α → β) (t : Table κ α) (k : κ) :
    (t.map f).get? k = (t.get? k).map (f k) :=
  find?_map f k t.entries

omit [LT κ] [DecidableLT κ] in
theorem contains_eq_false_iff {t : Table κ α} {k : κ} :
    t.contains k = false ↔ t.get? k = none := by
  simp [contains]

end Laws

/-! ## Order of the entries -/

/-- The keys ascend strictly. -/
def Ascending [LT κ] (t : Table κ α) : Prop :=
  t.entries.Pairwise (fun a b => a.1 < b.1)

section Ascending

variable [DecidableEq κ] [LT κ] [DecidableLT κ]

omit [DecidableEq κ] [DecidableLT κ] in
theorem ascending_empty : (empty : Table κ α).Ascending :=
  List.Pairwise.nil

theorem mem_place {k : κ} {v : α} {l : List (κ × α)} {e : κ × α} (h : e ∈ place k v l) :
    e = (k, v) ∨ e ∈ l := by
  induction l with
  | nil => exact .inl (List.mem_singleton.1 h)
  | cons d rest ih =>
    obtain ⟨a, w⟩ := d
    simp only [place] at h
    split at h
    · exact (List.mem_cons.1 h).imp_right (List.mem_cons_of_mem _)
    · split at h
      · exact List.mem_cons.1 h
      · rcases List.mem_cons.1 h with rfl | h
        · exact .inr List.mem_cons_self
        · exact (ih h).imp_right (List.mem_cons_of_mem _)

theorem mem_foldl_insert {l : List (κ × α)} {t : Table κ α} {e : κ × α}
    (h : e ∈ (l.foldl (fun t e => t.insert e.1 e.2) t).entries) : e ∈ t.entries ∨ e ∈ l := by
  induction l generalizing t with
  | nil => exact .inl h
  | cons d l ih =>
    rcases ih h with h | h
    · rcases mem_place h with rfl | h
      · exact .inr List.mem_cons_self
      · exact .inl h
    · exact .inr (List.mem_cons_of_mem _ h)

/-- The values of a table come from the list that it was built of. -/
theorem mem_values_ofList {l : List (κ × α)} {v : α} (h : v ∈ (ofList l).values) :
    v ∈ l.map Prod.snd := by
  obtain ⟨e, he, rfl⟩ := List.mem_map.1 h
  exact List.mem_map_of_mem ((mem_foldl_insert he).resolve_left List.not_mem_nil)

section Insert

variable [Std.Trichotomous (fun a b : κ => a < b)]
  [Trans (fun a b : κ => a < b) (fun a b : κ => a < b) (fun a b : κ => a < b)]

theorem pairwise_place (k : κ) (v : α) {l : List (κ × α)}
    (h : l.Pairwise (fun a b => a.1 < b.1)) :
    (place k v l).Pairwise (fun a b => a.1 < b.1) := by
  induction l with
  | nil => exact List.pairwise_singleton _ _
  | cons d rest ih =>
    obtain ⟨a, w⟩ := d
    obtain ⟨hhead, hrest⟩ := List.pairwise_cons.1 h
    simp only [place]
    split
    · rename_i hka
      exact List.pairwise_cons.2 ⟨fun e he => hka ▸ hhead e he, hrest⟩
    · rename_i hka
      split
      · rename_i hlt
        refine List.pairwise_cons.2 ⟨fun e he => ?_, h⟩
        rcases List.mem_cons.1 he with rfl | he
        · exact hlt
        · exact Trans.trans hlt (hhead e he)
      · rename_i hnlt
        -- what is neither the key nor above it stands below it
        have hak : a < k := Decidable.byContradiction
          (fun hn => hka (Std.Trichotomous.trichotomous (r := fun a b : κ => a < b) k a hnlt hn))
        refine List.pairwise_cons.2 ⟨fun e he => ?_, ih hrest⟩
        rcases mem_place he with rfl | he
        · exact hak
        · exact hhead e he

theorem Ascending.insert {t : Table κ α} (h : t.Ascending) (k : κ) (v : α) :
    (t.insert k v).Ascending :=
  pairwise_place k v h

end Insert

section Membership

variable [Std.Irrefl (fun a b : κ => a < b)]

omit [DecidableLT κ] in
theorem mem_iff_find? {l : List (κ × α)} (h : l.Pairwise (fun a b => a.1 < b.1)) {k : κ} {v : α} :
    (k, v) ∈ l ↔ find? k l = some v := by
  induction l with
  | nil => exact ⟨fun h => absurd h List.not_mem_nil, fun h => absurd h (Option.some_ne_none _).symm⟩
  | cons d rest ih =>
    obtain ⟨a, w⟩ := d
    obtain ⟨hhead, hrest⟩ := List.pairwise_cons.1 h
    simp only [List.mem_cons, Prod.mk.injEq, find?]
    split
    · rename_i hka
      subst hka
      constructor
      · rintro (⟨-, rfl⟩ | hmem)
        · rfl
        · exact absurd (hhead _ hmem) (Std.Irrefl.irrefl (r := fun a b : κ => a < b) k)
      · rintro hv
        exact .inl ⟨rfl, (Option.some.inj hv).symm⟩
    · rename_i hka
      rw [← ih hrest]
      exact ⟨fun h => h.resolve_left (fun h => hka h.1), .inr⟩

omit [DecidableLT κ] in
/-- Of a key that ascending entries have only once, the entry is the value. -/
theorem Ascending.mem_entries_iff {t : Table κ α} (h : t.Ascending) {k : κ} {v : α} :
    (k, v) ∈ t.entries ↔ t.get? k = some v :=
  mem_iff_find? h

omit [DecidableLT κ] in
theorem Ascending.get?_filter {t : Table κ α} (h : t.Ascending) (p : κ → α → Bool) (k : κ) :
    (t.filter p).get? k = (t.get? k).filter (p k) := by
  have hfilter : (t.filter p).Ascending := List.Pairwise.filter _ h
  apply Option.ext
  intro v
  rw [← hfilter.mem_entries_iff, Option.filter_eq_some_iff, ← h.mem_entries_iff]
  exact List.mem_filter

end Membership

end Ascending

end Table

end ScanGraph
