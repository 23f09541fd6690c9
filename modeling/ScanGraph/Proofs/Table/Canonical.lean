/-
One form for every table and every set.

A table keeps the entries that it was built of, so lists with the same keys that
give the same table are the same list, and ascending entries are already in the
form that a table gives them: `eq_of_ofList_eq`, `Ascending.ofList_entries`.  So
tables in order are equal if they answer alike: `Ascending.ext`.  Whatever the
order, what is inserted under a new key and erased again leaves no trace:
`erase_insert`, `erase_of_none`.
Two sets are equal exactly if they have the same elements, whatever the order
and the number of times in which these were listed: `SortedSet.ofList_eq_iff`.

## What is asked, and what is not

Two facts are asked for where they are needed: that the keys of a list are different,
and that entries ascend by their keys.  A table that is made from a list with repeated
keys keeps the last entry of each, and of such lists only `get?_ofList` and its like
speak.

The order of the keys must be total and tell different keys apart, which is asked as an
instance.  Nothing is said about how many steps a look-up takes: entries are a list.
-/
import Mathlib.Data.List.Sort
import ScanGraph.SortedSet
import ScanGraph.Table

namespace ScanGraph

namespace Table

variable {κ α : Type} [DecidableEq κ]

/-! ## Tables of lists without repeated keys -/

section Lists

theorem find?_eq_none_of_not_mem {k : κ} {l : List (κ × α)} (h : k ∉ l.map Prod.fst) :
    find? k l = none := by
  induction l with
  | nil => rfl
  | cons e rest ih =>
    obtain ⟨a, v⟩ := e
    simp only [find?, if_neg (List.ne_of_not_mem_cons h)]
    exact ih (List.not_mem_of_not_mem_cons h)

theorem mem_entries_of_get? {t : Table κ α} {k : κ} {v : α} (h : t.get? k = some v) :
    (k, v) ∈ t.entries := by
  obtain ⟨l⟩ := t
  change find? k l = some v at h
  induction l with
  | nil => cases h
  | cons e rest ih =>
    obtain ⟨a, w⟩ := e
    simp only [find?] at h
    split at h
    · rename_i hk
      cases h
      exact hk ▸ List.mem_cons_self
    · exact List.mem_cons_of_mem _ (ih h)

/-- Lists of the same keys in which every key has the same value. -/
theorem eq_of_find?_eq {l l' : List (κ × α)} (hnodup : (l.map Prod.fst).Nodup)
    (hkeys : l.map Prod.fst = l'.map Prod.fst) (h : ∀ k, find? k l = find? k l') : l = l' := by
  induction l generalizing l' with
  | nil => exact (List.map_eq_nil_iff.1 hkeys.symm).symm
  | cons e rest ih =>
    obtain ⟨a, v⟩ := e
    cases l' with
    | nil => cases hkeys
    | cons e' rest' =>
      obtain ⟨a', v'⟩ := e'
      obtain ⟨ha, hrest⟩ := List.nodup_cons.1 hnodup
      obtain ⟨rfl, htail⟩ : a = a' ∧ rest.map Prod.fst = rest'.map Prod.fst := by
        simpa using hkeys
      have hv : v = v' := by simpa [find?] using h a
      have hmore : rest = rest' := by
        refine ih hrest htail (fun k => ?_)
        by_cases hk : k = a
        · subst hk
          rw [find?_eq_none_of_not_mem ha, find?_eq_none_of_not_mem (htail ▸ ha)]
        · simpa [find?, hk] using h k
      rw [hv, hmore]

variable [LT κ] [DecidableLT κ]

theorem perm_place {k : κ} (v : α) {l : List (κ × α)} (h : find? k l = none) :
    (place k v l).Perm ((k, v) :: l) := by
  induction l with
  | nil => exact .refl _
  | cons e rest ih =>
    obtain ⟨a, w⟩ := e
    simp only [find?] at h
    split at h
    · cases h
    · rename_i hka
      simp only [place, if_neg hka]
      split
      · exact .refl _
      · exact ((ih h).cons (a, w)).trans (.swap _ _ _)

theorem perm_foldl_insert {l : List (κ × α)} {t : Table κ α} (hnodup : (l.map Prod.fst).Nodup)
    (hnew : ∀ e ∈ l, t.get? e.1 = none) :
    (l.foldl (fun t e => t.insert e.1 e.2) t).entries.Perm (t.entries ++ l) := by
  induction l generalizing t with
  | nil => rw [List.append_nil]; exact .refl _
  | cons e l ih =>
    obtain ⟨hhead, hnodup⟩ := List.nodup_cons.1 hnodup
    obtain ⟨he, hnew⟩ := List.forall_mem_cons.1 hnew
    have hnew' : ∀ x ∈ l, (t.insert e.1 e.2).get? x.1 = none := by
      intro x hx
      have hne : x.1 ≠ e.1 := fun heq => hhead (heq ▸ List.mem_map_of_mem hx)
      rw [get?_insert_of_ne _ _ hne, hnew x hx]
    refine (ih hnodup hnew').trans ?_
    exact ((perm_place e.2 he).append_right l).trans List.perm_middle.symm

/-- A table of a list without repeated keys has the entries of the list. -/
theorem perm_ofList {l : List (κ × α)} (h : (l.map Prod.fst).Nodup) :
    (ofList l).entries.Perm l :=
  perm_foldl_insert h (fun _ _ => rfl)

theorem get?_foldl_insert {l : List (κ × α)} (h : (l.map Prod.fst).Nodup) (t : Table κ α) (k : κ) :
    (l.foldl (fun t e => t.insert e.1 e.2) t).get? k = (find? k l).or (t.get? k) := by
  induction l generalizing t with
  | nil => rfl
  | cons e rest ih =>
    obtain ⟨a, v⟩ := e
    obtain ⟨ha, hrest⟩ := List.nodup_cons.1 h
    rw [List.foldl_cons, ih hrest, get?_insert]
    by_cases hk : k = a
    · subst hk
      simp [find?, find?_eq_none_of_not_mem ha]
    · simp [find?, hk]

theorem get?_ofList {l : List (κ × α)} (h : (l.map Prod.fst).Nodup) (k : κ) :
    (ofList l).get? k = find? k l := by
  rw [ofList, get?_foldl_insert h, get?_empty, Option.or_none]

theorem eq_of_ofList_eq {l l' : List (κ × α)} (hnodup : (l.map Prod.fst).Nodup)
    (hkeys : l.map Prod.fst = l'.map Prod.fst) (h : ofList l = ofList l') : l = l' := by
  refine eq_of_find?_eq hnodup hkeys (fun k => ?_)
  rw [← get?_ofList hnodup, ← get?_ofList (hkeys ▸ hnodup), h]

end Lists

/-! ## Erasing -/

section Erase

theorem ne_of_find?_eq_none {k : κ} {l : List (κ × α)} (h : find? k l = none) :
    ∀ e ∈ l, e.1 ≠ k := by
  induction l with
  | nil => exact fun e he => absurd he List.not_mem_nil
  | cons d rest ih =>
    obtain ⟨a, v⟩ := d
    by_cases hk : k = a
    · simp [find?, hk] at h
    · intro e he
      rcases List.mem_cons.1 he with rfl | he
      · exact fun heq => hk heq.symm
      · exact ih (by simpa [find?, hk] using h) e he

theorem erase_of_none {t : Table κ α} {k : κ} (h : t.get? k = none) : t.erase k = t := by
  obtain ⟨l⟩ := t
  refine congrArg Table.mk (List.filter_eq_self.2 (fun e he => ?_))
  exact decide_eq_true (ne_of_find?_eq_none h e he)

variable [LT κ] [DecidableLT κ]

theorem erase_insert (t : Table κ α) (k : κ) (v : α) : (t.insert k v).erase k = t.erase k := by
  obtain ⟨l⟩ := t
  have hfilter : (place k v l).filter (fun e => decide (e.1 ≠ k))
      = l.filter (fun e => decide (e.1 ≠ k)) := by
    induction l with
    | nil => simp [place]
    | cons e rest ih =>
      obtain ⟨a, w⟩ := e
      simp only [place]
      split
      · rename_i hk
        simp [hk]
      · split
        · simp
        · rename_i hk _
          have hne : a ≠ k := fun heq => hk heq.symm
          simp only [List.filter_cons, hne, ne_eq, not_false_eq_true, decide_true, if_true]
          exact congrArg (List.cons (a, w)) (by simpa using ih)
  exact congrArg Table.mk hfilter

end Erase

/-! ## Tables of ascending lists -/

section Ascending

variable [LT κ] [DecidableLT κ] [Std.Asymm (fun a b : κ => a < b)]

theorem place_of_forall_lt {k : κ} (v : α) {l : List (κ × α)} (h : ∀ e ∈ l, e.1 < k) :
    place k v l = l ++ [(k, v)] := by
  induction l with
  | nil => rfl
  | cons e rest ih =>
    obtain ⟨a, w⟩ := e
    have hlt : a < k := h (a, w) List.mem_cons_self
    have hnot : ¬ k < a := Std.Asymm.asymm (r := fun a b : κ => a < b) a k hlt
    have hne : k ≠ a := fun heq => hnot (heq ▸ hlt)
    rw [place, if_neg hne, if_neg hnot, ih (fun e he => h e (List.mem_cons_of_mem _ he)),
      List.cons_append]

theorem entries_foldl_insert {l : List (κ × α)} {t : Table κ α}
    (h : (t.entries ++ l).Pairwise (fun a b => a.1 < b.1)) :
    (l.foldl (fun t e => t.insert e.1 e.2) t).entries = t.entries ++ l := by
  induction l generalizing t with
  | nil => rw [List.append_nil]; rfl
  | cons e rest ih =>
    have hbelow : ∀ d ∈ t.entries, d.1 < e.1 := fun d hd =>
      (List.pairwise_append.1 h).2.2 d hd e List.mem_cons_self
    have hinsert : (t.insert e.1 e.2).entries = t.entries ++ [e] := place_of_forall_lt e.2 hbelow
    rw [List.append_cons, ← hinsert] at h
    rw [List.foldl_cons, ih h, hinsert, List.append_assoc, List.singleton_append]

theorem Ascending.ofList_entries {t : Table κ α} (h : t.Ascending) : ofList t.entries = t := by
  obtain ⟨l⟩ := t
  exact congrArg Table.mk (entries_foldl_insert (t := empty) h)

end Ascending

section Equality

variable [LT κ] [Std.Irrefl (fun a b : κ => a < b)]
  [Trans (fun a b : κ => a < b) (fun a b : κ => a < b) (fun a b : κ => a < b)]

/-- Tables in order in which every key has the same value are equal. -/
theorem Ascending.ext {t t' : Table κ α} (h : t.Ascending) (h' : t'.Ascending)
    (hget : ∀ k, t.get? k = t'.get? k) : t = t' := by
  have : Std.Asymm (fun a b : κ × α => a.1 < b.1) :=
    ⟨fun a b hab hba => Std.Irrefl.irrefl (r := fun a b : κ => a < b) a.1 (Trans.trans hab hba)⟩
  have hentries : t.entries = t'.entries := by
    refine List.Pairwise.eq_of_mem_iff (r := fun a b : κ × α => a.1 < b.1) h h' ?_
    rintro ⟨k, v⟩
    rw [h.mem_entries_iff, h'.mem_entries_iff, hget]
  exact congrArg Table.mk hentries

end Equality

section Order

variable [LT κ] [DecidableLT κ] [Std.Trichotomous (fun a b : κ => a < b)]
  [Trans (fun a b : κ => a < b) (fun a b : κ => a < b) (fun a b : κ => a < b)]

theorem Ascending.foldl_insert (l : List (κ × α)) {t : Table κ α} (h : t.Ascending) :
    (l.foldl (fun t e => t.insert e.1 e.2) t).Ascending := by
  induction l generalizing t with
  | nil => exact h
  | cons e rest ih => exact ih (h.insert e.1 e.2)

theorem ascending_ofList (l : List (κ × α)) : (ofList l).Ascending :=
  ascending_empty.foldl_insert l

omit [DecidableEq κ] [DecidableLT κ] [Std.Trichotomous (fun a b : κ => a < b)]
  [Trans (fun a b : κ => a < b) (fun a b : κ => a < b) (fun a b : κ => a < b)] in
theorem Ascending.nodup_keys [Std.Irrefl (fun a b : κ => a < b)] {t : Table κ α}
    (h : t.Ascending) : t.keys.Nodup := by
  refine (List.pairwise_map.2 h).imp (fun {a b} hab heq => ?_)
  subst heq
  exact Std.Irrefl.irrefl a hab

omit [Std.Trichotomous (fun a b : κ => a < b)]
  [Trans (fun a b : κ => a < b) (fun a b : κ => a < b) (fun a b : κ => a < b)] in
/-- Where values are put under keys of their own, these are the keys. -/
theorem map_key_values (key : α → κ) (l : List α) :
    (ofList (l.map (fun x => (key x, x)))).values.map key
      = (ofList (l.map (fun x => (key x, x)))).keys := by
  unfold values keys
  rw [List.map_map]
  refine List.map_congr_left (fun e he => ?_)
  obtain ⟨y, -, rfl⟩ := List.mem_map.1 ((mem_foldl_insert he).resolve_left List.not_mem_nil)
  rfl

/-- Where values are put under keys of their own, they stand under these. -/
theorem get?_key_of_mem_values [Std.Irrefl (fun a b : κ => a < b)] (key : α → κ) {l : List α}
    {v : α} (h : v ∈ (ofList (l.map (fun x => (key x, x)))).values) :
    (ofList (l.map (fun x => (key x, x)))).get? (key v) = some v := by
  obtain ⟨⟨k, x⟩, hentry, rfl⟩ := List.mem_map.1 h
  obtain ⟨y, -, hy⟩ := List.mem_map.1 ((mem_foldl_insert hentry).resolve_left List.not_mem_nil)
  obtain ⟨rfl, rfl⟩ := Prod.mk.inj hy
  exact (ascending_ofList _).mem_entries_iff.1 hentry

end Order

end Table

namespace SortedSet

variable {α : Type} [DecidableEq α] [LT α] [DecidableLT α]
  [Std.Trichotomous (fun a b : α => a < b)]
  [Trans (fun a b : α => a < b) (fun a b : α => a < b) (fun a b : α => a < b)]

theorem pairwise_place (a : α) {l : List α} (h : l.Pairwise (fun a b => a < b)) :
    (place a l).Pairwise (fun a b => a < b) := by
  induction l with
  | nil => exact List.pairwise_singleton _ _
  | cons b rest ih =>
    obtain ⟨hhead, hrest⟩ := List.pairwise_cons.1 h
    simp only [place]
    split
    · exact h
    · rename_i hne
      split
      · rename_i hlt
        refine List.pairwise_cons.2 ⟨fun c hc => ?_, h⟩
        rcases List.mem_cons.1 hc with rfl | hc
        · exact hlt
        · exact Trans.trans hlt (hhead c hc)
      · rename_i hnlt
        have hba : b < a := Decidable.byContradiction
          (fun hn => hne (Std.Trichotomous.trichotomous (r := fun a b : α => a < b) a b hnlt hn))
        refine List.pairwise_cons.2 ⟨fun c hc => ?_, ih hrest⟩
        rcases (mem_place a c rest).1 hc with rfl | hc
        · exact hba
        · exact hhead c hc

theorem pairwise_foldl_insert (l : List α) {s : SortedSet α}
    (h : s.toList.Pairwise (fun a b => a < b)) :
    (l.foldl insert s).toList.Pairwise (fun a b => a < b) := by
  induction l generalizing s with
  | nil => exact h
  | cons a rest ih => exact ih (pairwise_place a h)

theorem pairwise_ofList (l : List α) : (ofList l).toList.Pairwise (fun a b => a < b) :=
  pairwise_foldl_insert l List.Pairwise.nil

section Sets

variable [Std.Asymm (fun a b : α => a < b)]

/-- Lists give the same set exactly if they have the same elements. -/
theorem ofList_eq_iff {l l' : List α} : ofList l = ofList l' ↔ ∀ a, a ∈ l ↔ a ∈ l' := by
  constructor
  · intro h a
    rw [← mem_ofList l, h, mem_ofList]
  · intro h
    have hlist : (ofList l).toList = (ofList l').toList := by
      refine (pairwise_ofList l).eq_of_mem_iff (pairwise_ofList l') (fun a => ?_)
      exact (mem_ofList l a).trans ((h a).trans (mem_ofList l' a).symm)
    exact congrArg SortedSet.mk hlist

/-- The elements of a set that lists them in order make up that set. -/
theorem ofList_toList {s : SortedSet α} (h : s.toList.Pairwise (fun a b => a < b)) :
    ofList s.toList = s := by
  have hlist : (ofList s.toList).toList = s.toList :=
    (pairwise_ofList s.toList).eq_of_mem_iff h (mem_ofList s.toList)
  exact congrArg SortedSet.mk hlist

theorem ofList_map_eq_iff {β : Type} {f : β → α} (hf : Function.Injective f) {l l' : List β} :
    ofList (l.map f) = ofList (l'.map f) ↔ ∀ b, b ∈ l ↔ b ∈ l' := by
  rw [ofList_eq_iff]
  constructor
  · intro h b
    rw [← List.mem_map_of_injective hf, h, List.mem_map_of_injective hf]
  · intro h a
    simp only [List.mem_map, h]

end Sets

end SortedSet

end ScanGraph
