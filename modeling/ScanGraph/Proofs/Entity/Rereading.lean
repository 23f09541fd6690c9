/-
Entities that were written are read.

A record is read by name, so the order of the members does not matter
(`Rearranges`), and a record whose fields can all be read gives its value
(`Reads`).  So an entity is read from its JSON as that entity again, and so is its
free form, with its profile and the instant it was read at: `decoder_toJson`,
`decoder_sorted`.  What must hold for that is said of the references: each of them
is the one that its text denotes.

## What is proved

Entities, profiles and snapshots are read from their JSON and from its free form,
whatever the order of the members.  `decoder_obj_eq` says more, and is what refusals are
read off: for any members at all, reading the entity is reading the fields of its type.

## What is asked, and what is not

A reference must be the one that its own text denotes.  `Reference.parses_of_naturalKey`
says that those of a concrete type with a key are, and `Reference.parse_text_of_noKey`
that one with an empty key is refused.  Settings must list their keys in order, and
instants lie in the calendar.  Members that no field has are passed over by the reader;
an entity with such members is read all the same, which is not used here.
-/
import ScanGraph.Proofs.Entity.Fields
import ScanGraph.Proofs.Instant.Reading
import ScanGraph.Proofs.Uuid.Reading

namespace ScanGraph

namespace Json

/-! ## Members by their keys -/

section Members

variable {ms fields : List (String × Json)} {tag key : String} {v : Json}

theorem filter_key_of_mem (hnodup : (ms.map Prod.fst).Nodup) (h : (key, v) ∈ ms) :
    ms.filter (fun m => m.1 == key) = [(key, v)] := by
  induction ms with
  | nil => exact absurd h List.not_mem_nil
  | cons m rest ih =>
    rw [List.map_cons, List.nodup_cons] at hnodup
    rcases List.mem_cons.1 h with rfl | hrest
    · have hnone : rest.filter (fun m => m.1 == key) = [] := by
        refine List.filter_eq_nil_iff.2 (fun m hm hkey => hnodup.1 ?_)
        exact beq_iff_eq.1 hkey ▸ List.mem_map.2 ⟨m, hm, rfl⟩
      rw [List.filter_cons_of_pos (by simp), hnone]
    · have hne : m.1 ≠ key := fun heq => hnodup.1 (heq ▸ List.mem_map_of_mem hrest)
      rw [List.filter_cons_of_neg (by simpa using hne), ih hnodup.2 hrest]

theorem nodup_keys_tableOf (ms : List (String × Json)) : ((tableOf ms).map Prod.fst).Nodup :=
  (Table.ascending_ofList ms).nodup_keys

theorem mem_tableOf (hnodup : (ms.map Prod.fst).Nodup) (h : (key, v) ∈ ms) :
    (key, v) ∈ tableOf ms := by
  have hfind : Table.find? key ms = some v := by
    induction ms with
    | nil => exact absurd h List.not_mem_nil
    | cons m rest ih =>
      rw [List.map_cons, List.nodup_cons] at hnodup
      unfold Table.find?
      rcases List.mem_cons.1 h with rfl | hrest
      · exact if_pos rfl
      · have hne : key ≠ m.1 := fun heq => hnodup.1 (heq ▸ List.mem_map.2 ⟨_, hrest, rfl⟩)
        rw [if_neg hne, ih hnodup.2 hrest]
  exact Table.mem_entries_of_get? ((Table.get?_ofList hnodup key).trans hfind)

/-- Members that are, under every key, those of another list. -/
def Rearranges (ms fields : List (String × Json)) : Prop :=
  ∀ key, ms.filter (fun m => m.1 == key) = fields.filter (fun m => m.1 == key)

theorem rearranges_self (fields : List (String × Json)) : Rearranges fields fields :=
  fun _ => rfl

theorem rearranges_tableOf (hnodup : (fields.map Prod.fst).Nodup) :
    Rearranges (tableOf fields) fields := by
  intro key
  by_cases hkey : ∃ v, (key, v) ∈ fields
  · obtain ⟨v, hv⟩ := hkey
    rw [filter_key_of_mem (nodup_keys_tableOf fields) (mem_tableOf hnodup hv),
      filter_key_of_mem hnodup hv]
  · have hnone : ∀ m ∈ fields, ¬ (m.1 == key) = true :=
      fun m hm heq => hkey ⟨m.2, beq_iff_eq.1 heq ▸ hm⟩
    rw [List.filter_eq_nil_iff.2 hnone,
      List.filter_eq_nil_iff.2 (fun m hm => hnone m (mem_of_mem_tableOf hm))]

theorem Rearranges.found (h : Rearranges ms fields) (hnodup : (fields.map Prod.fst).Nodup) :
    ∀ m ∈ fields, ms.filter (fun x => x.1 == m.1) = [m] :=
  fun m hm => (h m.1).trans (filter_key_of_mem hnodup hm)

theorem Rearranges.others {t : Json} (h : Rearranges ms ((tag, t) :: fields))
    (htag : ∀ m ∈ fields, m.1 ≠ tag) :
    Rearranges (ms.filter (fun m => m.1 != tag)) fields := by
  intro key
  rw [List.filter_filter]
  by_cases hkey : key = tag
  · subst hkey
    rw [List.filter_eq_nil_iff.2 (fun m hm heq => htag m hm (beq_iff_eq.1 heq))]
    refine List.filter_eq_nil_iff.2 (fun m _ => ?_)
    simp
  · have hsame : ms.filter (fun m => m.1 == key && m.1 != tag) = ms.filter (fun m => m.1 == key) := by
      refine List.filter_congr (fun m _ => ?_)
      by_cases hm : m.1 = key
      · simp [hm, hkey]
      · simp [hm]
    rw [hsame, h key, List.filter_cons_of_neg (by simpa using fun heq => hkey heq.symm)]

end Members

end Json

namespace Record

open Json

/-! ## Records whose fields can be read -/

/-- The record has such a value by the names of some members. -/
def Reads {α : Type} (r : Record α) (ms : List (String × Json)) (a : α) : Prop :=
  r.read (.byName ms) = (⟨some a, none⟩, .byName ms)

section Reads

variable {α β : Type} {ms : List (String × Json)} {key : String} {v : Json} {a : α}

theorem Reads.seq {f : Record (α → β)} {x : Record α} {g : α → β} (hf : f.Reads ms g)
    (hx : x.Reads ms a) : (f <*> x).Reads ms (g a) := by
  unfold Reads at hf hx
  have hboth : (f <*> x).read (.byName ms)
      = (⟨(f.read (.byName ms)).1.value.bind
            (fun g => (x.read (f.read (.byName ms)).2).1.value.map g),
          firstFault (f.read (.byName ms)).1.fault (x.read (f.read (.byName ms)).2).1.fault⟩,
        (x.read (f.read (.byName ms)).2).2) :=
    rfl
  unfold Reads
  rw [hboth]
  simp only [hf, hx]
  rfl

theorem Reads.form {x : Record α} (g : α → β) (hx : x.Reads ms a) : (g <$> x).Reads ms (g a) :=
  Reads.seq (f := Record.pure g) rfl hx

theorem reads_fieldWith {d : Decoder α} {absent short : Option α}
    (h : ms.filter (fun m => m.1 == key) = [(key, v)]) (hd : d v = .ok a) :
    (fieldWith key d absent short).Reads ms a := by
  unfold Reads fieldWith reading
  simp only [h, hd]

theorem reads_fieldOr_absent {d : Decoder α} (h : ms.filter (fun m => m.1 == key) = []) :
    (fieldOr key d a).Reads ms a := by
  unfold Reads fieldOr fieldWith
  simp only [h]

theorem Reads.ofMembers_eq {r : Record α} (h : r.Reads ms a) : r.ofMembers ms = .ok a := by
  unfold ofMembers
  rw [h]
  rfl

theorem Reads.decodeWith_eq {r : Record (β → α)} {f : β → α} {b : β}
    {inner : List (String × Json) → Except DecodeError β} (h : r.Reads ms f)
    (hinner : inner ms = .ok b) : r.decodeWith inner (.obj ms) = .ok (f b) := by
  unfold decodeWith
  simp only [h.ofMembers_eq, hinner]
  rfl

end Reads

end Record

namespace Decoder

open Json

section Values

variable {α β : Type} {d : Decoder α} {f : β → Json} {v : Json} {a : α}

theorem nullable_eq (hne : v ≠ .null) (h : d v = .ok a) : nullable d v = .ok (some a) := by
  unfold nullable
  split
  · exact absurd rfl hne
  · rw [h]
    rfl

/-- An optional value that is written as null where there is none. -/
theorem nullable_orNull {f : α → Json} {o : Option α} (hne : ∀ a, f a ≠ .null)
    (h : ∀ a ∈ o, d (f a) = .ok a) : nullable d (orNull f o) = .ok o := by
  cases o with
  | none => rfl
  | some a => exact nullable_eq (hne a) (h a rfl)

theorem items_map {g : β → α} {l : List β} (h : ∀ b ∈ l, d (f b) = .ok (g b)) :
    items d (l.map f) = .ok (l.map g) := by
  induction l with
  | nil => rfl
  | cons b rest ih =>
    simp only [List.map_cons, items, h b List.mem_cons_self,
      ih (fun x hx => h x (List.mem_cons_of_mem _ hx))]

theorem list_eq {f : α → Json} {l : List α} (h : ∀ a ∈ l, d (f a) = .ok a) :
    list d (Json.list f l) = .ok l := by
  show items d (l.map f) = .ok l
  rw [items_map (g := id) h, List.map_id]

theorem members_texts (ms : List (String × String)) :
    members text (ms.map (fun m => (m.1, Json.str m.2))) = .ok ms := by
  induction ms with
  | nil => rfl
  | cons m rest ih =>
    simp only [List.map_cons, members, text, ih]

theorem table_texts {t : Table String String} (h : t.Ascending) :
    table text (.obj (t.map (fun _ v => Json.str v)).entries) = .ok t := by
  show (members text (t.entries.map (fun m => (m.1, Json.str m.2)))).map Table.ofList = .ok t
  rw [members_texts]
  exact congrArg Except.ok h.ofList_entries

/-- A value whose tag names a form is read by that form of its other members. -/
theorem tagged_eq {tag name : String} {form : String → Option (Record α)}
    {ms : List (String × Json)} {r : Record α}
    (htag : ms.filter (fun m => m.1 == tag) = [(tag, .str name)]) (hform : form name = some r) :
    tagged tag form (.obj ms) = r.ofMembers (ms.filter (fun m => m.1 != tag)) := by
  have hname : (Tagging.byName.name? [] (.str name)).bind form = some r := hform
  unfold tagged taggedBy
  simp only [htag, hname]

theorem keyed_eq {name : String} {form : String → Option (Decoder α)} (hform : form name = some d)
    (h : d v = .ok a) : keyed form (.obj [(name, v)]) = .ok a := by
  unfold keyed
  simp only [hform, h]

theorem adjacent_eq {tag content name : String} {form : String → Option (Decoder α)}
    (hne : tag ≠ content) (hform : form name = some d) (h : d v = .ok a) :
    adjacent tag content form (.obj [(tag, .str name), (content, v)]) = .ok a := by
  have hchoice : choice form (.str name) = .ok d := by
    show parsed form (.str name) = .ok d
    unfold parsed
    simp only [hform]
  have htag : [(tag, Json.str name), (content, v)].filter (fun m => m.1 == tag)
      = [(tag, .str name)] := by
    simp [hne.symm]
  have hcontent : [(tag, Json.str name), (content, v)].filter (fun m => m.1 == content)
      = [(content, v)] := by
    simp [hne]
  unfold adjacent
  simp only [htag, hcontent, hchoice, readBy, h]

end Values

end Decoder

/-! ## Values of fields -/

section Values

/-- A reference is the one that its text denotes. -/
def Reference.Parses (r : Reference) : Prop :=
  parse r.text = .ok r

instance (r : Reference) : Decidable r.Parses :=
  inferInstanceAs (Decidable (Reference.parse r.text = .ok r))

/-- These are the references of concrete types with a key that is not empty. -/
theorem Reference.parses_iff {r : Reference} :
    r.Parses ↔ r.type.isAbstract = false ∧ ∃ k, r.key = some k ∧ k ≠ "" := by
  have hempty (k : String) : k.toList.isEmpty = true ↔ k = "" := by
    rw [List.isEmpty_iff, String.toList_eq_nil_iff]
  unfold Parses parse
  rw [splitFirst_text]
  cases hkey : r.key with
  | none => simp
  | some k =>
    simp only [Option.map_some, String.ofList_toList, ObjectType.ofName?_name]
    by_cases hk : k = ""
    · simp [hk]
    · have hnonempty : k.toList.isEmpty = false :=
        Bool.eq_false_iff.2 (fun h => hk ((hempty k).1 h))
      cases habstract : r.type.isAbstract with
      | true => simp [hnonempty]
      | false =>
        have hsame : (⟨r.type, some k⟩ : Reference) = r := by rw [← hkey]
        simp [hnonempty, hk, hsame]

theorem Reference.parses_of_naturalKey {r : Reference} (htype : r.type.isAbstract = false)
    (hkey : r.naturalKey ≠ "") : r.Parses := by
  obtain ⟨type, _ | key⟩ := r
  · exact absurd rfl hkey
  · exact parses_iff.2 ⟨htype, key, rfl, hkey⟩

theorem Reference.parse_text_of_noKey {r : Reference} (h : r.naturalKey = "") :
    parse r.text = .error (.noKey r.text) := by
  unfold parse
  rw [splitFirst_text]
  obtain ⟨type, _ | key⟩ := r
  · rfl
  · obtain rfl : key = "" := h
    rfl

theorem Reference.decoder_toJson {r : Reference} (h : r.Parses) : decoder r.toJson = .ok r := by
  have hparse : parse r.text = .ok r := h
  unfold decoder toJson Decoder.named
  simp only [hparse]

theorem Instant.decoder_toJson {t : Instant} (h : t.InCalendar) : decoder t.toJson = .ok t := by
  unfold decoder toJson Decoder.parsed
  simp only [parse?_text h]

theorem Uuid.decoder_toJson (u : Uuid) : decoder u.toJson = .ok u := by
  unfold decoder toJson Decoder.parsed
  simp only [parse?_text u]

theorem Level.decoder_toJson (l : Level) : decoder l.toJson = .ok l := by
  cases l <;> rfl

theorem ObjectType.decoder_toJson (t : ObjectType) : decoder t.toJson = .ok t := by
  unfold decoder toJson Decoder.named
  simp only [ofName?_name]

namespace Decoder

theorem natUpTo_nat {n bound : Nat} (h : n ≤ bound) : natUpTo bound (Json.nat n) = .ok n := by
  have hrange : 0 ≤ (n : Int) ∧ (n : Int) ≤ bound := ⟨Int.natCast_nonneg n, Int.ofNat_le.2 h⟩
  exact (if_pos hrange).trans (congrArg Except.ok (Int.toNat_natCast n))

theorem nat16_eq (n : UInt16) : nat16 (Json.nat16 n) = .ok n := by
  unfold nat16 Json.nat16
  rw [natUpTo_nat (Nat.le_sub_one_of_lt n.toNat_lt)]
  exact congrArg Except.ok (UInt16.ofNat_toNat)

theorem nat32_eq (n : UInt32) : nat32 (Json.nat32 n) = .ok n := by
  unfold nat32 Json.nat32
  rw [natUpTo_nat (Nat.le_sub_one_of_lt n.toNat_lt)]
  exact congrArg Except.ok (UInt32.ofNat_toNat)

end Decoder

end Values

/-! ## Entities -/

namespace Entity

open Json Record

/-- The reference to an entity can be read back unless its key is empty. -/
theorem parses_reference_iff (e : Entity) : e.reference.Parses ↔ e.reference.naturalKey ≠ "" := by
  have hkey : e.reference.key = some e.reference.naturalKey := by
    cases e <;> rfl
  have hconcrete : e.type.isAbstract = false := by
    cases e <;> rfl
  rw [Reference.parses_iff, hkey]
  simp [hconcrete]

/-- The entity can be read back: its references are those that their texts denote, and its settings
list their keys in order. -/
structure Readable (e : Entity) : Prop where
  references : ∀ x ∈ e.relations, x.2.Parses
  ordered : e.Ordered

section Fields

variable {ms : List (String × Json)} {e : Entity}

theorem nullable_text (o : Option String) :
    Decoder.nullable Decoder.text (orNull .str o) = .ok o :=
  Decoder.nullable_orNull (fun _ => Json.noConfusion) (fun _ _ => rfl)

theorem nullable_nat32 (o : Option UInt32) :
    Decoder.nullable Decoder.nat32 (orNull nat32 o) = .ok o :=
  Decoder.nullable_orNull (fun _ => Json.noConfusion) (fun n _ => Decoder.nat32_eq n)

theorem reads_findingTypeRecord {form : String → Option String → Option Severity → Entity}
    {id : String} {description : Option String} {severity : Option Severity}
    (h : ∀ m ∈ [("id", Json.str id), ("description", orNull .str description),
      ("risk_severity", orNull (fun s => .str s.name) severity)],
      ms.filter (fun x => x.1 == m.1) = [m]) :
    (findingTypeRecord form).Reads ms (form id description severity) := by
  have hseverity (s : Severity) :
      Decoder.keptChoice Severity.ofName? (.str s.name) = .ok s := by
    cases s <;> rfl
  simp only [List.forall_mem_cons] at h
  obtain ⟨hid, hdescription, hrisk, -⟩ := h
  refine .seq (.seq (.form form ?_) ?_) ?_
  · exact reads_fieldWith hid rfl
  · exact reads_fieldWith hdescription (nullable_text description)
  · exact reads_fieldWith hrisk
      (Decoder.nullable_orNull (fun _ => Json.noConfusion) (fun s _ => hseverity s))

/-- The fields of what stands in a network under something of its own. -/
theorem reads_networkRecord {α : Type} {form : Reference → α → Entity} {d : Decoder α}
    {name : String} {net : Reference} {v : Json} {x : α}
    (hnet : Reference.decoder net.toJson = .ok net) (hx : d v = .ok x)
    (h : ∀ m ∈ [("network", net.toJson), (name, v)], ms.filter (fun x => x.1 == m.1) = [m]) :
    (form <$> field "network" Reference.decoder <*> field name d).Reads ms (form net x) := by
  simp only [List.forall_mem_cons] at h
  obtain ⟨hfirst, hsecond, -⟩ := h
  refine .seq (.form form ?_) ?_
  · exact reads_fieldWith hfirst hnet
  · exact reads_fieldWith hsecond hx

theorem reads_targetRecord {form : Reference → String → Reference → Option UInt32 → Entity}
    {name value : String} {host target : Reference} {ttl : Option UInt32}
    (hhost : Reference.decoder host.toJson = .ok host)
    (htarget : Reference.decoder target.toJson = .ok target)
    (h : ∀ m ∈ [("hostname", host.toJson), ("value", .str value), (name, target.toJson),
      ("ttl", orNull nat32 ttl)], ms.filter (fun x => x.1 == m.1) = [m]) :
    (form <$> field "hostname" Reference.decoder <*> field "value" .text
      <*> field name Reference.decoder <*> optionalOr "ttl" .nat32).Reads ms
        (form host value target ttl) := by
  simp only [List.forall_mem_cons] at h
  obtain ⟨hfirst, hvalue, hthird, httl, -⟩ := h
  refine .seq (.seq (.seq (.form form ?_) ?_) ?_) ?_
  · exact reads_fieldWith hfirst hhost
  · exact reads_fieldWith hvalue rfl
  · exact reads_fieldWith hthird htarget
  · exact reads_fieldWith httl (nullable_nat32 ttl)

theorem reads_fields (he : e.Readable) (h : Rearranges ms e.fields) :
    ∃ r, record? e.type = some r ∧ r.Reads ms e := by
  have href {name : String} {r : Reference} (hr : (name, r) ∈ e.relations) :
      Reference.decoder r.toJson = .ok r :=
    Reference.decoder_toJson (he.references _ hr)
  have hfound := h.found (List.nodup_cons.1 e.nodup_keys_members).2
  cases e with
  | network name =>
    simp only [fields, List.forall_mem_cons] at hfound
    exact ⟨_, rfl, .form network (reads_fieldWith hfound.1 rfl)⟩
  | hostname net name =>
    exact ⟨_, rfl, reads_networkRecord (href List.mem_cons_self) rfl hfound⟩
  | ipv4 net x =>
    have haddress : Decoder.parsed Address.V4.parse? (.str x.text) = .ok x := by
      simp [Decoder.parsed, Address.V4.parse?_text]
    exact ⟨_, rfl, reads_networkRecord (href List.mem_cons_self) haddress hfound⟩
  | ipv6 net x =>
    have haddress : Decoder.parsed Address.V6.parse? (.str x.text) = .ok x := by
      simp [Decoder.parsed, Address.V6.parse?_text]
    exact ⟨_, rfl, reads_networkRecord (href List.mem_cons_self) haddress hfound⟩
  | ipPort address protocol port state =>
    have hname : Decoder.keptChoice Protocol.ofName? (.str protocol.name) = .ok protocol := by
      cases protocol <;> rfl
    have hvalue (s : PortState) : Decoder.keptChoice PortState.ofName? (.str s.name) = .ok s := by
      cases s <;> rfl
    simp only [fields, List.forall_mem_cons] at hfound
    obtain ⟨haddress, hprotocol, hport, hstate, -⟩ := hfound
    refine ⟨_, rfl, .seq (.seq (.seq (.form ipPort ?_) ?_) ?_) ?_⟩
    · exact reads_fieldWith haddress (href List.mem_cons_self)
    · exact reads_fieldWith hprotocol hname
    · exact reads_fieldWith hport (Decoder.nat16_eq port)
    · exact reads_fieldWith hstate
        (Decoder.nullable_orNull (fun _ => Json.noConfusion) (fun s _ => hvalue s))
  | dnsA host value target | dnsAAAA host value target | dnsNS host value target =>
    have hhost := href List.mem_cons_self
    have htarget := href (List.mem_cons_of_mem _ List.mem_cons_self)
    exact ⟨_, rfl, reads_targetRecord hhost htarget hfound⟩
  | dnsMX host value mail preference ttl =>
    have hserver : Decoder.nullable Reference.decoder (orNull Reference.toJson mail)
        = .ok mail := by
      refine Decoder.nullable_orNull (fun _ => Json.noConfusion) (fun r hr => ?_)
      obtain rfl : mail = some r := hr
      exact href (List.mem_cons_of_mem _ List.mem_cons_self)
    have hown : ("hostname", host) ∈ (dnsMX host value mail preference ttl).relations := by
      cases mail <;> exact List.mem_cons_self
    simp only [fields, List.forall_mem_cons] at hfound
    obtain ⟨hhost, hvalue, hmail, hpreference, httl, -⟩ := hfound
    refine ⟨_, rfl, .seq (.seq (.seq (.seq (.form dnsMX ?_) ?_) ?_) ?_) ?_⟩
    · exact reads_fieldWith hhost (href hown)
    · exact reads_fieldWith hvalue rfl
    · exact reads_fieldWith hmail hserver
    · exact reads_fieldWith hpreference
        (Decoder.nullable_orNull (fun _ => Json.noConfusion) (fun n _ => Decoder.nat16_eq n))
    · exact reads_fieldWith httl (nullable_nat32 ttl)
  | dnsTXT host value ttl =>
    simp only [fields, List.forall_mem_cons] at hfound
    obtain ⟨hhost, hvalue, httl, -⟩ := hfound
    refine ⟨_, rfl, .seq (.seq (.form dnsTXT ?_) ?_) ?_⟩
    · exact reads_fieldWith hhost (href List.mem_cons_self)
    · exact reads_fieldWith hvalue rfl
    · exact reads_fieldWith httl (nullable_nat32 ttl)
  | resolvedHostname host address =>
    simp only [fields, List.forall_mem_cons] at hfound
    obtain ⟨hhost, haddress, -⟩ := hfound
    refine ⟨_, rfl, .seq (.form resolvedHostname ?_) ?_⟩
    · exact reads_fieldWith hhost (href List.mem_cons_self)
    · exact reads_fieldWith haddress (href (List.mem_cons_of_mem _ List.mem_cons_self))
  | katFindingType | cveFindingType | cweFindingType =>
    exact ⟨_, rfl, reads_findingTypeRecord hfound⟩
  | finding type subject proof description reproduce =>
    simp only [fields, List.forall_mem_cons] at hfound
    obtain ⟨htype, hsubject, hproof, hdescription, hreproduce, -⟩ := hfound
    refine ⟨_, rfl, .seq (.seq (.seq (.seq (.form finding ?_) ?_) ?_) ?_) ?_⟩
    · exact reads_fieldWith htype (href List.mem_cons_self)
    · exact reads_fieldWith hsubject (href (List.mem_cons_of_mem _ List.mem_cons_self))
    · exact reads_fieldWith hproof (nullable_text proof)
    · exact reads_fieldWith hdescription (nullable_text description)
    · exact reads_fieldWith hreproduce (nullable_text reproduce)
  | config subject ruleId settings =>
    simp only [fields, List.forall_mem_cons] at hfound
    obtain ⟨hsubject, hrule, hsettings, -⟩ := hfound
    refine ⟨_, rfl, .seq (.seq (.form config ?_) ?_) ?_⟩
    · exact reads_fieldWith hsubject (href List.mem_cons_self)
    · exact reads_fieldWith hrule rfl
    · exact reads_fieldWith hsettings (Decoder.table_texts he.ordered)

/-- In whatever order the members of an entity stand, the form of its type reads all but the tag. -/
theorem decoder_obj_eq (h : Rearranges ms e.members) :
    Rearranges (ms.filter (fun m => m.1 != "object_type")) e.fields ∧ ∀ r, record? e.type = some r →
      decoder (.obj ms) = r.ofMembers (ms.filter (fun m => m.1 != "object_type")) := by
  have htag : ∀ m ∈ e.fields, m.1 ≠ "object_type" := by
    cases e <;> simp [fields]
  have hfirst : ms.filter (fun m => m.1 == "object_type")
      = [("object_type", .str e.type.name)] := by
    rw [h "object_type", members, List.filter_cons_of_pos (by simp),
      List.filter_eq_nil_iff.2 (fun m hm => by simpa using htag m hm)]
    rfl
  refine ⟨h.others htag, fun r hr => Decoder.tagged_eq hfirst ?_⟩
  rw [ObjectType.ofName?_name]
  exact hr

theorem decoder_obj (he : e.Readable) (h : Rearranges ms e.members) :
    decoder (.obj ms) = .ok e := by
  obtain ⟨hfields, hform⟩ := decoder_obj_eq h
  obtain ⟨r, hr, hreads⟩ := reads_fields he hfields
  exact (hform r hr).trans hreads.ofMembers_eq

theorem decoder_toJson (he : e.Readable) : decoder e.toJson = .ok e :=
  decoder_obj he (rearranges_self _)

theorem decoder_sorted (he : e.Readable) : decoder e.toJson.sorted = .ok e := by
  rw [sorted_toJson he.ordered]
  exact decoder_obj he (rearranges_tableOf e.nodup_keys_members)

end Fields

end Entity

/-! ## Profiles and snapshots -/

open Json Record

theorem sorted_obj_ne_null (ms : List (String × Json)) : (obj ms).sorted ≠ .null := by
  rw [sorted]
  exact Json.noConfusion

namespace Profile

def members (p : Profile) : List (String × Json) :=
  [("reference", p.reference.toJson), ("level", p.level.toJson), ("kind", .str p.kind.name)]

variable {p : Profile}

theorem nodup_keys_members (p : Profile) : (p.members.map Prod.fst).Nodup := by
  simp [members]

theorem decoder_obj {ms : List (String × Json)} (hp : p.reference.Parses)
    (h : Rearranges ms p.members) : decoder (.obj ms) = .ok p := by
  have hkind : Decoder.choice ProfileKind.ofName? (.str p.kind.name) = .ok p.kind := by
    cases p.kind <;> rfl
  have hfound := h.found p.nodup_keys_members
  simp only [members, List.forall_mem_cons] at hfound
  obtain ⟨href, hlevel, hname, -⟩ := hfound
  refine Reads.ofMembers_eq (.seq (.seq (.form Profile.mk ?_) ?_) ?_)
  · exact reads_fieldWith href (Reference.decoder_toJson hp)
  · exact reads_fieldWith hlevel (Level.decoder_toJson p.level)
  · exact reads_fieldWith hname hkind

theorem decoder_toJson (hp : p.reference.Parses) : decoder p.toJson = .ok p :=
  decoder_obj hp (rearranges_self _)

theorem decoder_sorted (hp : p.reference.Parses) : decoder p.toJson.sorted = .ok p :=
  decoder_obj hp (rearranges_tableOf p.nodup_keys_members)

end Profile

namespace Snapshot

structure Readable (s : Snapshot) : Prop where
  entity : s.entity.Readable
  profile : ∀ p ∈ s.profile, p.reference.Parses
  validTime : ∀ t ∈ s.validTime, t.InCalendar

section Fields

variable {s : Snapshot} {ms : List (String × Json)}

theorem reads_present {α : Type} {key : String} {d : Decoder α} {f : α → Json} {o : Option α}
    (h : ms.filter (fun m => m.1 == key) = present key f o)
    (hd : ∀ a ∈ o, d (f a) = .ok a) (hne : ∀ a, f a ≠ .null) :
    (optionalOr key d).Reads ms o := by
  cases o with
  | none => exact reads_fieldOr_absent h
  | some a => exact reads_fieldWith h (Decoder.nullable_eq (hne a) (hd a rfl))

theorem decoder_obj {entity : Json} {profile : Profile → Json}
    (hentity : Entity.decoder entity = .ok s.entity)
    (hprofile : ∀ p ∈ s.profile, Profile.decoder (profile p) = .ok p)
    (hne : ∀ p, profile p ≠ .null) (htime : ∀ t ∈ s.validTime, t.InCalendar)
    (h : Rearranges ms (("object", entity) :: (present "scan_profile" profile s.profile
      ++ present "valid_time" Instant.toJson s.validTime))) : decoder (.obj ms) = .ok s := by
  obtain ⟨e, p, t⟩ := s
  refine Reads.ofMembers_eq (.seq (.seq (.form Snapshot.mk ?_) ?_) ?_)
  · refine reads_fieldWith ((h _).trans ?_) hentity
    cases p <;> cases t <;> simp [present]
  · refine reads_present ((h _).trans ?_) hprofile hne
    cases p <;> cases t <;> simp [present]
  · refine reads_present ((h _).trans ?_) (fun t ht => Instant.decoder_toJson (htime t ht)) nofun
    cases p <;> cases t <;> simp [present]

theorem decoder_toJson (hs : s.Readable) : decoder s.toJson = .ok s :=
  decoder_obj (Entity.decoder_toJson hs.entity) (fun p hp => Profile.decoder_toJson (hs.profile p hp))
    nofun hs.validTime (rearranges_self _)

theorem sorted_toJson (s : Snapshot) :
    s.toJson.sorted = .obj (tableOf (("object", s.entity.toJson.sorted)
      :: (present "scan_profile" (fun p => p.toJson.sorted) s.profile
        ++ present "valid_time" Instant.toJson s.validTime))) := by
  obtain ⟨e, p, t⟩ := s
  cases p <;> cases t <;> rfl

theorem decoder_sorted (hs : s.Readable) : decoder s.toJson.sorted = .ok s := by
  rw [sorted_toJson]
  refine decoder_obj (Entity.decoder_sorted hs.entity)
    (fun p hp => Profile.decoder_sorted (hs.profile p hp)) (fun _ => sorted_obj_ne_null _)
    hs.validTime (rearranges_tableOf ?_)
  obtain ⟨e, p, t⟩ := s
  cases p <;> cases t <;> simp [present]

end Fields

end Snapshot

end ScanGraph
