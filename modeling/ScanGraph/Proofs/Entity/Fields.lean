/-
Entities told apart by their JSON.

The type of an entity says which fields there are, and every field is written in
a way that tells its values apart, so entities with one text are one entity:
`render_toJson_injective`.  The free form of the JSON value, with its keys in
order, still tells them apart, as long as settings list their keys in order:
`sorted_toJson_injective`.

## What is proved

For any two entities: if their JSON is written the same, they are the same; and if what
is written is the free form, they are the same if their settings list the keys in order.
Both hold of all types at once, by the table of fields that each type has (`members`).

The fields are `Faithful` one by one: texts, numbers, addresses, references, protocols,
states, severities and tables of settings each tell their values apart, and tell a value
from a missing one.  An entity of a new type therefore asks for a new line here and for
nothing else.

That the JSON of an entity fits into a text, so that it can be read back at all, is
`fits_toJson`; reading it back is `Proofs.Entity.Rereading`.
-/
import ScanGraph.Entity.Codec
import ScanGraph.Proofs.Address.Reading
import ScanGraph.Proofs.Json.Reading
import ScanGraph.Proofs.Table.Canonical

namespace ScanGraph

namespace Json

/-! ## Scalars -/

/-- A value without parts that can be read back. -/
def isScalar : Json → Bool
  | .int n => isWord n
  | .real _ | .arr _ | .obj _ => false
  | _ => true

section Scalars

variable {α : Type} {v : Json}

@[simp] theorem isScalar_str (s : String) : (str s).isScalar = true :=
  rfl

theorem isScalar_nat {n : Nat} (h : n < 2 ^ 64) : (nat n).isScalar = true := by
  have hleast : leastWord ≤ (n : Int) := by
    unfold leastWord
    omega
  have hgreatest : (n : Int) ≤ greatestWord := by
    unfold greatestWord
    omega
  simp [Json.nat, isScalar, isWord, hleast, hgreatest]

theorem sorted_of_isScalar (h : v.isScalar = true) : v.sorted = v := by
  cases v with
  | arr items => cases h
  | obj members => cases h
  | _ => simp [sorted]

theorem fits_of_isScalar (h : v.isScalar = true) (room : Nat) : fits room v = true := by
  cases v with
  | int n => exact h
  | real text => cases h
  | arr items => cases h
  | obj members => cases h
  | _ => rfl

/-! ## Members in their free form -/

theorem sortedMembers_eq_self {members : List (String × Json)}
    (h : ∀ m ∈ members, m.2.sorted = m.2) : sortedMembers members = members := by
  induction members with
  | nil => rfl
  | cons m rest ih =>
    rw [sortedMembers, h m List.mem_cons_self, ih (fun x hx => h x (List.mem_cons_of_mem _ hx))]

theorem mem_of_mem_tableOf {members : List (String × Json)} {m : String × Json}
    (h : m ∈ tableOf members) : m ∈ members :=
  (Table.mem_foldl_insert h).resolve_left List.not_mem_nil

theorem sorted_texts {settings : Table String String} (h : settings.Ascending) :
    (obj (settings.map (fun _ v => Json.str v)).entries).sorted
      = obj (settings.map (fun _ v => Json.str v)).entries := by
  have hascending : (settings.map (fun _ v => Json.str v)).Ascending := List.pairwise_map.2 h
  have htexts : ∀ m ∈ (settings.map (fun _ v => Json.str v)).entries, m.2.sorted = m.2 := by
    intro m hm
    obtain ⟨x, -, rfl⟩ := List.mem_map.1 hm
    exact sorted_of_isScalar rfl
  rw [sorted, sortedMembers_eq_self htexts, tableOf, hascending.ofList_entries]

theorem fits_texts (settings : Table String String) (room : Nat) :
    fits (room + 1) (obj (settings.map (fun _ v => Json.str v)).entries) = true := by
  have htexts : membersFit room (settings.map (fun _ v => Json.str v)).entries = true := by
    refine membersFit_iff.2 (fun m hm => ?_)
    obtain ⟨x, -, rfl⟩ := List.mem_map.1 hm
    rfl
  simp [fits, htexts]

/-! ## Ways of writing values -/

/-- A way of writing values as scalars that tells them apart, and from a missing value. -/
structure Faithful (f : α → Json) : Prop where
  scalar : ∀ a, (f a).isScalar = true
  ne_null : ∀ a, f a ≠ .null
  injective : Function.Injective f

namespace Faithful

variable {f : α → Json}

theorem inj (hf : Faithful f) {a b : α} : f a = f b ↔ a = b :=
  hf.injective.eq_iff

theorem orNull_scalar (hf : Faithful f) (o : Option α) : (orNull f o).isScalar = true := by
  cases o with
  | none => rfl
  | some a => exact hf.scalar a

theorem orNull_inj (hf : Faithful f) {a b : Option α} : orNull f a = orNull f b ↔ a = b := by
  cases a with
  | none =>
    cases b with
    | none => exact iff_of_true rfl rfl
    | some b => exact iff_of_false (hf.ne_null b).symm nofun
  | some a =>
    cases b with
    | none => exact iff_of_false (hf.ne_null a) nofun
    | some b => exact hf.inj.trans Option.some_inj.symm

theorem str {f : α → String} (hf : Function.Injective f) : Faithful (fun a => Json.str (f a)) where
  scalar := fun _ => rfl
  ne_null := nofun
  injective := fun _ _ h => hf (Json.str.inj h)

theorem nat {f : α → Nat} (hbound : ∀ a, f a < 2 ^ 64) (hf : Function.Injective f) :
    Faithful (fun a => Json.nat (f a)) where
  scalar := fun a => isScalar_nat (hbound a)
  ne_null := nofun
  injective := fun _ _ h => hf (Int.ofNat.inj (Json.int.inj h))

end Faithful

end Scalars

end Json

/-! ## Values of fields -/

section Values

open Json

theorem faithful_text : Faithful Json.str :=
  .str Function.injective_id

theorem faithful_nat16 : Faithful Json.nat16 :=
  .nat (fun n => n.toNat_lt.trans (by decide)) (fun _ _ => UInt16.toNat_inj.1)

theorem faithful_nat32 : Faithful Json.nat32 :=
  .nat (fun n => n.toNat_lt.trans (by decide)) (fun _ _ => UInt32.toNat_inj.1)

theorem ObjectType.faithful_toJson : Faithful ObjectType.toJson :=
  .str (fun _ _ => ObjectType.name_injective)

theorem Reference.faithful_toJson : Faithful Reference.toJson :=
  .str (fun _ _ => Reference.text_injective)

theorem Address.V4.faithful_text : Faithful (fun a : Address.V4 => .str a.text) :=
  .str (fun _ _ => Address.V4.text_injective)

theorem Address.V6.faithful_text : Faithful (fun a : Address.V6 => .str a.text) :=
  .str (fun _ _ => Address.V6.text_injective)

theorem Protocol.faithful_name : Faithful (fun p : Protocol => .str p.name) :=
  .str (fun _ _ => Protocol.name_injective)

theorem PortState.faithful_name : Faithful (fun s : PortState => .str s.name) := by
  refine .str (fun a b => ?_)
  cases a <;> cases b <;> decide

theorem Severity.faithful_name : Faithful (fun s : Severity => .str s.name) := by
  refine .str (fun a b => ?_)
  cases a <;> cases b <;> decide

theorem texts_inj {a b : Table String String} :
    (a.map (fun _ v => Json.str v)).entries = (b.map (fun _ v => Json.str v)).entries ↔ a = b := by
  have hpair : Function.Injective (fun e : String × String => (e.1, Json.str e.2)) := by
    rintro ⟨k, v⟩ ⟨k', v'⟩ h
    obtain ⟨hk, hv⟩ := Prod.mk.inj h
    exact Prod.ext hk (Json.str.inj hv)
  constructor
  · intro h
    exact congrArg Table.mk (List.map_injective_iff.2 hpair h)
  · rintro rfl
    rfl

end Values

/-! ## Entities -/

namespace Entity

open Json

variable {e e' : Entity}

/-- The members of an entity: its type and its fields. -/
def members (e : Entity) : List (String × Json) :=
  ("object_type", e.type.toJson) :: e.fields

theorem toJson_eq (e : Entity) : e.toJson = .obj e.members :=
  rfl

theorem fields_injective (htype : e.type = e'.type) (h : e.fields = e'.fields) : e = e' := by
  revert h
  cases e <;> cases e' <;> cases htype <;>
    simp [fields, texts_inj,
      Reference.faithful_toJson.inj, Reference.faithful_toJson.orNull_inj,
      Address.V4.faithful_text.inj, Address.V6.faithful_text.inj,
      faithful_nat16.inj, faithful_nat16.orNull_inj, faithful_nat32.orNull_inj,
      faithful_text.orNull_inj, Protocol.faithful_name.inj, PortState.faithful_name.orNull_inj,
      Severity.faithful_name.orNull_inj]

theorem members_injective (h : e.members = e'.members) : e = e' := by
  obtain ⟨htype, hfields⟩ := List.cons.inj h
  have hname : e.type = e'.type := ObjectType.faithful_toJson.injective (Prod.mk.inj htype).2
  exact fields_injective hname hfields

/-- Every member is a scalar, except for the settings of a configuration. -/
theorem isScalar_of_mem_members {m : String × Json} (hm : m ∈ e.members) :
    m.2.isScalar = true ∨
      ∃ subject ruleId settings, e = config subject ruleId settings ∧
        m.2 = .obj (settings.map (fun _ v => Json.str v)).entries := by
  revert hm m
  cases e with
  | config subject ruleId settings =>
    simp [members, fields, ObjectType.faithful_toJson.scalar, Reference.faithful_toJson.scalar]
  | _ =>
    simp [members, fields, ObjectType.faithful_toJson.scalar,
      Reference.faithful_toJson.scalar, Reference.faithful_toJson.orNull_scalar,
      faithful_nat16.scalar, faithful_nat16.orNull_scalar, faithful_nat32.orNull_scalar,
      faithful_text.orNull_scalar, PortState.faithful_name.orNull_scalar,
      Severity.faithful_name.orNull_scalar]

theorem fits_members (e : Entity) (room : Nat) : ∀ m ∈ e.members, fits (room + 1) m.2 = true := by
  intro m hm
  rcases isScalar_of_mem_members hm with hscalar | ⟨_, _, settings, _, hsettings⟩
  · exact fits_of_isScalar hscalar (room + 1)
  · rw [hsettings]
    exact fits_texts settings room

theorem fits_toJson (e : Entity) (room : Nat) : fits (room + 2) e.toJson = true := by
  have hmembers : membersFit (room + 1) e.members = true := membersFit_iff.2 (e.fits_members room)
  simp [toJson_eq, fits, hmembers]

theorem render_toJson_injective (h : e.toJson.render = e'.toJson.render) : e = e' := by
  have hjson := render_injective (e.fits_toJson (maxDepth - 2)) (e'.fits_toJson (maxDepth - 2)) h
  exact members_injective (Json.obj.inj hjson)

/-! ## The free form of an entity -/

/-- The settings of a configuration list their keys in order. -/
def Ordered : Entity → Prop
  | config _ _ settings => settings.Ascending
  | _ => True

theorem nodup_keys_members (e : Entity) : (e.members.map Prod.fst).Nodup := by
  cases e <;> simp [members, fields]

theorem keys_members_congr (h : e.type = e'.type) :
    e.members.map Prod.fst = e'.members.map Prod.fst := by
  cases e <;> cases e' <;> cases h <;> rfl

theorem sorted_toJson (h : e.Ordered) : e.toJson.sorted = .obj (tableOf e.members) := by
  have hsorted : ∀ m ∈ e.members, m.2.sorted = m.2 := by
    intro m hm
    rcases isScalar_of_mem_members hm with hscalar | ⟨_, _, settings, rfl, hsettings⟩
    · exact sorted_of_isScalar hscalar
    · rw [hsettings]
      exact sorted_texts h
  rw [toJson_eq, sorted, sortedMembers_eq_self hsorted]

theorem fits_sorted_toJson (h : e.Ordered) (room : Nat) :
    fits (room + 2) e.toJson.sorted = true := by
  have hmembers : membersFit (room + 1) (tableOf e.members) = true :=
    membersFit_iff.2 (fun m hm => e.fits_members room m (mem_of_mem_tableOf hm))
  simp [sorted_toJson h, fits, hmembers]

theorem type_of_tableOf_members (h : tableOf e.members = tableOf e'.members) :
    e.type = e'.type := by
  have htable : Table.ofList e.members = Table.ofList e'.members := congrArg Table.mk h
  have hvalue := congrArg (fun t => t.get? "object_type") htable
  simp only [Table.get?_ofList e.nodup_keys_members, Table.get?_ofList e'.nodup_keys_members]
    at hvalue
  exact ObjectType.faithful_toJson.injective (Option.some.inj hvalue)

theorem sorted_toJson_injective (h : e.Ordered) (h' : e'.Ordered)
    (hsorted : e.toJson.sorted = e'.toJson.sorted) : e = e' := by
  rw [sorted_toJson h, sorted_toJson h'] at hsorted
  have htable := Json.obj.inj hsorted
  have hkeys := keys_members_congr (type_of_tableOf_members htable)
  exact members_injective
    (Table.eq_of_ofList_eq e.nodup_keys_members hkeys (congrArg Table.mk htable))

end Entity

end ScanGraph
