/-
Lists without repetition.

`distinctBy` keeps of a list the first element of every key, in order.

What is dropped depends on the elements before it alone, so that the function goes
through a list once and carries the keys that it has seen.  The lemmas say what is kept:
a sublist, with one element for every key that occurs, and all of it if no key occurs
twice.
-/

namespace ScanGraph

/-- The elements whose key is neither in `seen` nor that of an earlier one. -/
def distinctFrom {α κ : Type} [DecidableEq κ] (key : α → κ) : List κ → List α → List α
  | _, [] => []
  | seen, a :: rest =>
      if key a ∈ seen then distinctFrom key seen rest
      else a :: distinctFrom key (key a :: seen) rest

/-- The first element of every key. -/
def distinctBy {α κ : Type} [DecidableEq κ] (key : α → κ) (l : List α) : List α :=
  distinctFrom key [] l

section Laws

variable {α κ : Type} [DecidableEq κ] (key : α → κ)

theorem distinctFrom_sublist (seen : List κ) (l : List α) :
    (distinctFrom key seen l).Sublist l := by
  induction l generalizing seen with
  | nil => exact .slnil
  | cons a rest ih =>
    simp only [distinctFrom]
    split
    · exact .cons _ (ih seen)
    · exact .cons_cons _ (ih _)

theorem distinctBy_sublist (l : List α) : (distinctBy key l).Sublist l :=
  distinctFrom_sublist key [] l

theorem key_not_mem_of_mem_distinctFrom {seen : List κ} {l : List α} {a : α}
    (h : a ∈ distinctFrom key seen l) : key a ∉ seen := by
  induction l generalizing seen with
  | nil => exact absurd h (List.not_mem_nil)
  | cons b rest ih =>
    simp only [distinctFrom] at h
    split at h
    · exact ih h
    · rename_i hb
      rcases List.mem_cons.1 h with rfl | h
      · exact hb
      · exact fun hmem => ih h (List.mem_cons_of_mem _ hmem)

theorem nodup_map_distinctFrom (seen : List κ) (l : List α) :
    ((distinctFrom key seen l).map key).Nodup := by
  induction l generalizing seen with
  | nil => exact List.nodup_nil
  | cons a rest ih =>
    simp only [distinctFrom]
    split
    · exact ih seen
    · refine List.nodup_cons.2 ⟨fun hmem => ?_, ih _⟩
      obtain ⟨b, hb, hkey⟩ := List.mem_map.1 hmem
      exact key_not_mem_of_mem_distinctFrom key hb (hkey ▸ List.mem_cons_self)

theorem nodup_map_distinctBy (l : List α) : ((distinctBy key l).map key).Nodup :=
  nodup_map_distinctFrom key [] l

theorem exists_mem_distinctFrom {seen : List κ} {l : List α} {a : α} (h : a ∈ l)
    (hseen : key a ∉ seen) : ∃ b ∈ distinctFrom key seen l, key b = key a := by
  induction l generalizing seen with
  | nil => exact absurd h (List.not_mem_nil)
  | cons c rest ih =>
    simp only [distinctFrom]
    rcases List.mem_cons.1 h with rfl | h
    · exact ⟨a, by simp [hseen], rfl⟩
    · split
      · exact ih h hseen
      · by_cases hk : key a = key c
        · exact ⟨c, List.mem_cons_self, hk.symm⟩
        · obtain ⟨b, hb, hkey⟩ := ih h (fun hmem => by
            rcases List.mem_cons.1 hmem with h | h
            · exact hk h
            · exact hseen h)
          exact ⟨b, List.mem_cons_of_mem _ hb, hkey⟩

theorem exists_mem_distinctBy {l : List α} {a : α} (h : a ∈ l) :
    ∃ b ∈ distinctBy key l, key b = key a :=
  exists_mem_distinctFrom key h (List.not_mem_nil)

theorem distinctFrom_eq_self {seen : List κ} {l : List α} (h : (l.map key).Nodup)
    (hseen : ∀ a ∈ l, key a ∉ seen) : distinctFrom key seen l = l := by
  induction l generalizing seen with
  | nil => rfl
  | cons a rest ih =>
    obtain ⟨ha, hrest⟩ := List.nodup_cons.1 h
    simp only [distinctFrom, hseen a List.mem_cons_self, if_false]
    refine congrArg (a :: ·) (ih hrest (fun b hb hmem => ?_))
    rcases List.mem_cons.1 hmem with hkey | hmem
    · exact ha (hkey ▸ List.mem_map_of_mem hb)
    · exact hseen b (List.mem_cons_of_mem _ hb) hmem

/-- A list in which no two elements have one key is kept as it is. -/
theorem distinctBy_eq_self {l : List α} (h : (l.map key).Nodup) : distinctBy key l = l :=
  distinctFrom_eq_self key h (fun _ _ => List.not_mem_nil)

/-- Where elements of one key are one element, dropping repeated keys loses no element. -/
theorem mem_distinctBy_iff {l : List α} (h : ∀ a ∈ l, ∀ b ∈ l, key a = key b → a = b) {a : α} :
    a ∈ distinctBy key l ↔ a ∈ l := by
  constructor
  · intro ha
    exact (distinctBy_sublist key l).subset ha
  · intro ha
    obtain ⟨b, hb, hkey⟩ := exists_mem_distinctBy key ha
    have hsame : b = a := h b ((distinctBy_sublist key l).subset hb) a ha hkey
    exact hsame ▸ hb

end Laws

end ScanGraph
