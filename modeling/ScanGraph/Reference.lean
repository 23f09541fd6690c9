/-
References: typed pointers to objects.

A reference is a type and a key; its text is the name of the type and the key,
separated by a bar.  Keys are built from tokens, and `ofTokens` allows any
tokens, while `parse` admits only a concrete type and a nonempty key.  A
reference built from no token at all has no key.

The order is that of the names of the types and then of the keys, and it is the order in
which objects are listed everywhere.  Equality is that of type and key, so that two
references with one text are the same.

Tokens are what a key is cut into at its bars.  Cutting gives back what a key was built
of only where no token has a bar, which is the subject of `Proofs.Reference.Reading`.
-/
import ScanGraph.NamingError
import ScanGraph.Text.Blank

namespace ScanGraph

/-- A typed pointer to an object. -/
structure Reference where
  type : ObjectType
  key : Option String
deriving DecidableEq, Repr, Inhabited

namespace Reference

/-- The character between the type and the tokens of a key. -/
def separator : Char := '|'

def text (r : Reference) : String :=
  match r.key with
  | some k => r.type.name ++ "|" ++ k
  | none => r.type.name

/-- The reference with the given type and tokens. -/
def ofTokens (type : ObjectType) (tokens : List String) : Reference :=
  if tokens.isEmpty then ⟨type, none⟩ else ⟨type, some (Text.join "|" tokens)⟩

@[simp] theorem ofTokens_type (type : ObjectType) (tokens : List String) :
    (ofTokens type tokens).type = type := by
  unfold ofTokens
  split <;> rfl

/-- What follows the type, or nothing. -/
def naturalKey (r : Reference) : String :=
  r.key.getD ""

/-- The pieces of the key between bars. -/
def tokens (r : Reference) : List String :=
  Text.pieces separator r.naturalKey

/-- The characters before the first bar and those after it. -/
def splitFirst : List Char → Option (List Char × List Char)
  | [] => none
  | c :: rest =>
      if c = separator then some ([], rest)
      else (splitFirst rest).map (fun (a, b) => (c :: a, b))

/-- The reference that a text denotes. -/
def parse (s : String) : Except NamingError Reference :=
  match splitFirst s.toList with
  | none => .error (.noKey s)
  | some (name, key) =>
      if key.isEmpty then .error (.noKey s)
      else
        let name := String.ofList name
        match ObjectType.ofName? name with
        | none => .error (.unknownType name)
        | some type =>
            if type.isAbstract then .error (.abstractType s type)
            else .ok ⟨type, some (String.ofList key)⟩

instance : LT Reference :=
  ⟨fun a b => a.text < b.text⟩

instance : DecidableLT Reference :=
  fun a b => inferInstanceAs (Decidable (a.text < b.text))

/-- Sorting by text: a reference stands before another or they have one text. -/
def precedes (a b : Reference) : Bool :=
  decide (a.text ≤ b.text)

/-! ## Texts that were read -/

theorem eq_append_of_splitFirst {cs name key : List Char} (h : splitFirst cs = some (name, key)) :
    cs = name ++ separator :: key := by
  induction cs generalizing name with
  | nil => cases h
  | cons c rest ih =>
    unfold splitFirst at h
    split at h
    · rename_i hc
      obtain ⟨rfl, rfl⟩ := Prod.mk.inj (Option.some.inj h)
      rw [hc, List.nil_append]
    · obtain ⟨⟨a, b⟩, hrest, hpair⟩ := Option.map_eq_some_iff.1 h
      obtain ⟨rfl, rfl⟩ := Prod.mk.inj hpair
      rw [ih hrest, List.cons_append]

theorem text_of_parse {s : String} {r : Reference} (h : parse s = .ok r) : r.text = s := by
  unfold parse at h
  split at h
  · cases h
  · rename_i name key hsplit
    split at h
    · cases h
    · dsimp only at h
      split at h
      · cases h
      · rename_i t hname
        split at h
        · cases h
        · obtain rfl := Except.ok.inj h
          apply String.toList_injective
          rw [eq_append_of_splitFirst hsplit]
          simp [text, ObjectType.name_of_ofName? hname, separator]

/-! ## The text tells references apart -/

theorem separator_not_mem_name (t : ObjectType) : separator ∉ t.name.toList := by
  cases t <;> decide

theorem splitFirst_append {name : List Char} (key : List Char) (h : separator ∉ name) :
    splitFirst (name ++ separator :: key) = some (name, key) := by
  induction name with
  | nil => simp [splitFirst]
  | cons c rest ih =>
    have hc : c ≠ separator := fun e => h (e ▸ List.mem_cons_self)
    have hrest : separator ∉ rest := fun hmem => h (List.mem_cons_of_mem _ hmem)
    simp [splitFirst, hc, ih hrest]

theorem splitFirst_eq_none {cs : List Char} (h : separator ∉ cs) : splitFirst cs = none := by
  induction cs with
  | nil => rfl
  | cons c rest ih =>
    have hc : c ≠ separator := fun e => h (e ▸ List.mem_cons_self)
    have hrest : separator ∉ rest := fun hmem => h (List.mem_cons_of_mem _ hmem)
    simp [splitFirst, hc, ih hrest]

theorem splitFirst_text (r : Reference) :
    splitFirst r.text.toList = r.key.map (fun k => (r.type.name.toList, k.toList)) := by
  obtain ⟨t, k⟩ := r
  cases k with
  | none => exact splitFirst_eq_none (separator_not_mem_name t)
  | some k =>
    have htext : (text ⟨t, some k⟩).toList = t.name.toList ++ separator :: k.toList := by
      simp [text, separator]
    rw [htext, splitFirst_append k.toList (separator_not_mem_name t)]
    rfl

theorem text_injective {a b : Reference} (h : a.text = b.text) : a = b := by
  have hsplit := splitFirst_text a
  rw [h, splitFirst_text b] at hsplit
  obtain ⟨t, k⟩ := a
  obtain ⟨u, k'⟩ := b
  cases k with
  | none =>
    cases k' with
    | none =>
      have hname : t.name = u.name := h
      rw [ObjectType.name_injective hname]
    | some k' => exact absurd hsplit (Option.some_ne_none _)
  | some k =>
    cases k' with
    | none => exact absurd hsplit.symm (Option.some_ne_none _)
    | some k' =>
      have hpair := Option.some.inj hsplit
      have hname : u.name = t.name := String.toList_inj.1 (congrArg Prod.fst hpair)
      have hkey : k' = k := String.toList_inj.1 (congrArg Prod.snd hpair)
      rw [ObjectType.name_injective hname, hkey]

instance : Std.Irrefl (fun a b : Reference => a < b) :=
  ⟨fun a => String.lt_irrefl a.text⟩

instance : Trans (fun a b : Reference => a < b) (fun a b : Reference => a < b)
    (fun a b : Reference => a < b) :=
  ⟨String.lt_trans⟩

instance : Std.Trichotomous (fun a b : Reference => a < b) :=
  ⟨fun _ _ hab hba =>
    text_injective (String.le_antisymm (String.not_lt.1 hba) (String.not_lt.1 hab))⟩

end Reference

end ScanGraph
