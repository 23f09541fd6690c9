/-
Entities that are read can be read back.

A record gives only values that its form builds of what its fields give.  So the
references in an entity that is read are those that some texts denote, and the
settings of a configuration are a table as a table is made of a list:
`Entity.readable_of_decoder`, `Snapshot.readable_of_decoder`.

## What is proved

* `Entity.readable_of_decoder` and `Snapshot.readable_of_decoder`: what was read from
  any JSON satisfies what rereading it asks, so that it is read again from its own JSON.
* `Reference.decoder_of_parse`: a text that denotes a reference is read as that one.
* `decoder_hostname_refused` and `Snapshot.decoder_sorted_refused`: a host whose
  network's reference no text denotes is refused, with the message that the reference is
  refused with.  The store can show such a host, as its network may have been read in
  parts.

`Gives` is the invariant: whatever a record is read from, its value satisfies a
property.  It is closed under the ways in which records are put together, and so is
`Refuses`, by which one field at fault is the fault of the whole.

## What is not

Which JSON is read at all is not described, nor which message is given where several
fields are at fault.
-/
import ScanGraph.Proofs.Entity.Rereading

namespace ScanGraph

/-! ## What records give -/

namespace Record

variable {α β : Type}

/-- Whatever a record is read from, its value satisfies `P`. -/
def Gives (r : Record α) (P : α → Prop) : Prop :=
  ∀ fs a, (r.read fs).1.value = some a → P a

section Gives

variable {P : β → Prop} {Q : α → Prop}

theorem Gives.seq {f : Record (α → β)} {x : Record α} (hf : f.Gives (fun g => ∀ a, Q a → P (g a)))
    (hx : x.Gives Q) : (f <*> x).Gives P := by
  intro fs b hb
  obtain ⟨g, hg, hb⟩ := Option.bind_eq_some_iff.1 hb
  obtain ⟨a, ha, rfl⟩ := Option.map_eq_some_iff.1 hb
  exact hf fs g hg a (hx _ a ha)

theorem gives_true (x : Record α) : x.Gives (fun _ => True) :=
  fun _ _ _ => trivial

theorem Gives.field {f : Record (α → β)} {x : Record α} (hf : f.Gives (fun g => ∀ a, P (g a))) :
    (f <*> x).Gives P :=
  Gives.seq (fun fs g hg a _ => hf fs g hg a) (gives_true x)

/-- A form whose values satisfy `P` if its first field satisfies `Q`. -/
theorem Gives.formOf {g : α → β} {x : Record α} (hg : ∀ a, Q a → P (g a)) (hx : x.Gives Q) :
    (g <$> x).Gives P :=
  Gives.seq (fun _ _ h => Option.some.inj h ▸ hg) hx

theorem Gives.form {g : α → β} {x : Record α} (hg : ∀ a, P (g a)) : (g <$> x).Gives P :=
  Gives.formOf (fun a _ => hg a) (gives_true x)

theorem gives_fieldWith {key : String} {d : Decoder α} {absent short : Option α}
    (habsent : ∀ a ∈ absent, Q a) (hshort : ∀ a ∈ short, Q a) (hd : ∀ v a, d v = .ok a → Q a) :
    (fieldWith key d absent short).Gives Q := by
  have hreading : ∀ key v a, (reading key d v).value = some a → Q a := by
    intro key v a ha
    unfold reading at ha
    split at ha
    · rename_i hok
      exact hd v a (Option.some.inj ha ▸ hok)
    · cases ha
  intro fs a ha
  unfold fieldWith at ha
  dsimp only at ha
  split at ha
  · split at ha
    · exact habsent a ha
    · exact hreading _ _ a ha
    · cases ha
  · exact hreading _ _ a ha
  · exact hshort a ha

theorem gives_field {key : String} {d : Decoder α} (hd : ∀ v a, d v = .ok a → Q a) :
    (field key d).Gives Q :=
  gives_fieldWith nofun nofun hd

theorem gives_fieldOr {key : String} {d : Decoder α} {default : α} (hdefault : Q default)
    (hd : ∀ v a, d v = .ok a → Q a) : (fieldOr key d default).Gives Q :=
  gives_fieldWith (fun _ h => Option.some.inj h ▸ hdefault)
    (fun _ h => Option.some.inj h ▸ hdefault) hd

theorem gives_optionalOr {key : String} {d : Decoder α} (hd : ∀ v a, d v = .ok a → Q a) :
    (optionalOr key d).Gives (fun o => ∀ a ∈ o, Q a) := by
  refine gives_fieldOr nofun (fun v o h a ha => ?_)
  obtain rfl : o = some a := ha
  unfold Decoder.nullable at h
  split at h
  · cases h
  · cases hread : d v with
    | error e =>
      rw [hread] at h
      cases h
    | ok b =>
      rw [hread] at h
      exact Option.some.inj (Except.ok.inj h) ▸ hd v b hread

variable {r : Record α}

theorem Gives.of_verdict (h : r.Gives Q) {fs : Fields} {a : α}
    (ha : verdict (r.read fs).1 = .ok a) : Q a := by
  unfold verdict at ha
  split at ha
  · cases ha
  · rename_i hvalue
    exact h fs a (Except.ok.inj ha ▸ hvalue)
  · cases ha

theorem Gives.of_ofMembers (h : r.Gives Q) {ms : List (String × Json)} {a : α}
    (ha : r.ofMembers ms = .ok a) : Q a :=
  h.of_verdict ha

theorem Gives.of_ofItems (h : r.Gives Q) {vs : List Json} {a : α} (ha : r.ofItems vs = .ok a) :
    Q a := by
  unfold ofItems at ha
  split at ha
  · rename_i reading hread
    have hverdict : verdict (r.read (.byPosition vs)).1 = .ok a := by
      rw [hread]
      exact ha
    exact h.of_verdict hverdict
  · cases ha
  · cases ha

theorem Gives.of_decode (h : r.Gives Q) {v : Json} {a : α} (ha : r.decode v = .ok a) : Q a := by
  cases v with
  | obj ms => exact h.of_ofMembers ha
  | arr vs => exact h.of_ofItems ha
  | _ => cases ha

end Gives

end Record

/-! ## What records refuse -/

namespace Record

/-- By the names of some members, one field of the record is at fault and the others are read. -/
def Refuses {α : Type} (r : Record α) (ms : List (String × Json)) (e : DecodeError) : Prop :=
  ∃ key, r.read (.byName ms) = (⟨none, some (key, e)⟩, .byName ms)

section Refuses

variable {α β : Type} {ms : List (String × Json)} {key : String} {v : Json} {e : DecodeError}
  {f : Record (α → β)} {x : Record α}

theorem Refuses.seq {a : α} (hf : f.Refuses ms e) (hx : x.Reads ms a) :
    (f <*> x).Refuses ms e := by
  obtain ⟨key, hf⟩ := hf
  unfold Reads at hx
  refine ⟨key, ?_⟩
  show (both f x).read _ = _
  unfold both
  simp only [hf, hx]
  rfl

theorem Refuses.form (g : α → β) (hx : x.Refuses ms e) : (g <$> x).Refuses ms e := by
  obtain ⟨key, hx⟩ := hx
  refine ⟨key, ?_⟩
  show (both (Record.pure g) x).read _ = _
  unfold both Record.pure
  simp only [hx]
  rfl

theorem refuses_fieldWith {d : Decoder α} {absent short : Option α}
    (h : ms.filter (fun m => m.1 == key) = [(key, v)]) (hd : d v = .error e) :
    (fieldWith key d absent short).Refuses ms e := by
  refine ⟨key, ?_⟩
  unfold fieldWith reading
  simp only [h, hd]

theorem Refuses.ofMembers_eq (h : x.Refuses ms e) : x.ofMembers ms = .error e := by
  obtain ⟨key, h⟩ := h
  unfold ofMembers
  rw [h]
  rfl

end Refuses

end Record

theorem Decoder.ascending_of_table {α : Type} {d : Decoder α} {v : Json} {t : Table String α}
    (h : Decoder.table d v = .ok t) : t.Ascending := by
  cases v with
  | obj ms =>
    change (members d ms).map Table.ofList = .ok t at h
    cases hmembers : members d ms with
    | error e =>
      rw [hmembers] at h
      cases h
    | ok l =>
      rw [hmembers] at h
      exact Except.ok.inj h ▸ Table.ascending_ofList l
  | _ => cases h

/-- A value of several forms satisfies what all of the forms give. -/
theorem Decoder.of_tagged {α : Type} {Q : α → Prop} {tag : String}
    {form : String → Option (Record α)} (hform : ∀ s r, form s = some r → r.Gives Q) {v : Json}
    {a : α} (h : Decoder.tagged tag form v = .ok a) : Q a := by
  have hrecord : ∀ t r, (Tagging.byName.name? [] t).bind form = some r → r.Gives Q := by
    intro t r hr
    obtain ⟨s, -, hs⟩ := Option.bind_eq_some_iff.1 hr
    exact hform s r hs
  unfold tagged taggedBy at h
  split at h
  · split at h
    · split at h
      · rename_i r hr
        exact (hrecord _ r hr).of_ofMembers h
      · cases h
    · cases h
  · split at h
    · rename_i r hr
      exact (hrecord _ r hr).of_ofItems h
    · cases h
  · cases h

/-! ## Entities -/

/-- A reference that a text denotes is the one that its own text denotes. -/
theorem Reference.parses_of_parse {s : String} {r : Reference} (h : parse s = .ok r) :
    r.Parses := by
  unfold Parses
  rw [text_of_parse h]
  exact h

theorem Reference.parses_of_decoder {v : Json} {r : Reference} (h : decoder v = .ok r) :
    r.Parses := by
  unfold decoder Decoder.named at h
  split at h
  · split at h
    · rename_i hparse
      exact parses_of_parse (Except.ok.inj h ▸ hparse)
    · cases h
  · cases h

theorem Reference.decoder_of_parse {r : Reference} {e : NamingError}
    (h : parse r.text = .error e) : decoder r.toJson = .error (.naming e) := by
  unfold decoder toJson Decoder.named
  simp only [h]

namespace Entity

open Record

theorem decoder_hostname_refused {network : Reference} {e : NamingError}
    (h : Reference.parse network.text = .error e) (name : String) :
    decoder (hostname network name).toJson.sorted = .error (.naming e) := by
  have hordered : (hostname network name).Ordered := trivial
  have hnodup := (hostname network name).nodup_keys_members
  obtain ⟨hfields, hform⟩ := decoder_obj_eq (Json.rearranges_tableOf hnodup)
  have hfound := hfields.found (List.nodup_cons.1 hnodup).2
  simp only [fields, List.forall_mem_cons] at hfound
  obtain ⟨hnetwork, hname, -⟩ := hfound
  rw [sorted_toJson hordered, hform _ rfl]
  refine Refuses.ofMembers_eq (.seq (a := name) (.form hostname ?_) ?_)
  · exact refuses_fieldWith hnetwork (Reference.decoder_of_parse h)
  · exact reads_fieldWith hname rfl

theorem gives_reference (key : String) :
    (field key Reference.decoder).Gives Reference.Parses :=
  gives_field (fun _ _ => Reference.parses_of_decoder)

theorem gives_findingTypeRecord {form : String → Option String → Option Severity → Entity}
    (h : ∀ id description severity, (form id description severity).Readable) :
    (findingTypeRecord form).Gives Readable :=
  (Gives.form h).field.field

theorem gives_record? {t : ObjectType} {r : Record Entity} (h : record? t = some r) :
    r.Gives Readable := by
  -- an entity without settings is readable if its references are
  have hreadable {e : Entity} (hordered : e.Ordered) (h : ∀ x ∈ e.relations, x.2.Parses) :
      e.Readable := ⟨h, hordered⟩
  cases t <;> cases h
  case network => exact .form (fun _ => hreadable trivial nofun)
  case hostname | ipv4 | ipv6 =>
    exact .field (.formOf (fun _ hnet _ => hreadable trivial (by simpa [relations]))
      (gives_reference _))
  case ipPort =>
    exact .field (.field (.field (.formOf (fun _ haddress _ _ _ =>
      hreadable trivial (by simpa [relations])) (gives_reference _))))
  case dnsA | dnsAAAA | dnsNS =>
    exact .field (.seq (.field (.formOf (fun _ hhost _ _ hother _ =>
      hreadable trivial (by simp [relations, hhost, hother])) (gives_reference _)))
      (gives_reference _))
  case dnsMX =>
    refine .field (.field (.seq (.field (.formOf (fun host hhost value mail hmail preference ttl =>
      hreadable trivial ?_) (gives_reference _)))
      (gives_optionalOr (fun _ _ => Reference.parses_of_decoder))))
    cases mail with
    | none => simp [relations, hhost]
    | some r => simp [relations, hhost, hmail r rfl]
  case dnsTXT =>
    exact .field (.field (.formOf (fun _ hhost _ _ => hreadable trivial (by simpa [relations]))
      (gives_reference _)))
  case resolvedHostname =>
    exact .seq (.formOf (fun _ hhost _ haddress =>
      hreadable trivial (by simp [relations, hhost, haddress])) (gives_reference _))
      (gives_reference _)
  case katFindingType | cveFindingType | cweFindingType =>
    exact gives_findingTypeRecord (fun _ _ _ => hreadable trivial nofun)
  case finding =>
    exact .field (.field (.field (.seq (.formOf (fun _ htype _ hsubject _ _ _ =>
      hreadable trivial (by simp [relations, htype, hsubject])) (gives_reference _))
      (gives_reference _))))
  case config =>
    -- the settings have to be in order as well
    have hsettings : (fieldOr "config" (.table .text) .empty).Gives Table.Ascending :=
      gives_fieldOr Table.ascending_empty (fun _ _ => Decoder.ascending_of_table)
    exact .seq (.field (.formOf (fun _ hsubject _ _ hsettings =>
      hreadable hsettings (by simpa [relations])) (gives_reference _))) hsettings

theorem readable_of_decoder {v : Json} {e : Entity} (h : decoder v = .ok e) : e.Readable := by
  refine Decoder.of_tagged (fun s r hr => ?_) h
  obtain ⟨t, -, ht⟩ := Option.bind_eq_some_iff.1 hr
  exact gives_record? ht

end Entity

/-! ## Snapshots -/

open Record

theorem Profile.parses_of_decoder {v : Json} {p : Profile} (h : decoder v = .ok p) :
    p.reference.Parses := by
  have hrecord : (Profile.mk <$> field "reference" Reference.decoder <*> field "level" Level.decoder
      <*> field "kind" (.choice ProfileKind.ofName?)).Gives (fun p => p.reference.Parses) :=
    .field (.field (.formOf (fun _ href _ _ => href) (Entity.gives_reference _)))
  exact hrecord.of_decode h

theorem Snapshot.decoder_sorted_refused {s : Snapshot} {e : DecodeError}
    (hentity : Entity.decoder s.entity.toJson.sorted = .error e)
    (hprofile : ∀ p ∈ s.profile, p.reference.Parses) (htime : ∀ t ∈ s.validTime, t.InCalendar) :
    decoder s.toJson.sorted = .error e := by
  obtain ⟨entity, profile, time⟩ := s
  let members : List (String × Json) := ("object", entity.toJson.sorted)
    :: (Json.present "scan_profile" (fun p => p.toJson.sorted) profile
      ++ Json.present "valid_time" Instant.toJson time)
  have hnodup : (members.map Prod.fst).Nodup := by
    cases profile <;> cases time <;> simp [members, Json.present]
  have harranged := Json.rearranges_tableOf hnodup
  rw [sorted_toJson]
  refine Refuses.ofMembers_eq (.seq (a := time) (.seq (a := profile) (.form Snapshot.mk ?_) ?_) ?_)
  · refine refuses_fieldWith ((harranged _).trans ?_) hentity
    cases profile <;> cases time <;> simp [members, Json.present]
  · refine reads_present ((harranged _).trans ?_) (fun p hp => Profile.decoder_sorted (hprofile p hp))
      (fun _ => sorted_obj_ne_null _)
    cases profile <;> cases time <;> simp [members, Json.present]
  · refine reads_present ((harranged _).trans ?_) (fun t ht => Instant.decoder_toJson (htime t ht))
      (fun _ h => by cases h)
    cases profile <;> cases time <;> simp [members, Json.present]

/-- The references in a snapshot that is read are those that some texts denote. -/
theorem Snapshot.readable_of_decoder {v : Json} {s : Snapshot} (h : decoder v = .ok s) :
    s.entity.Readable ∧ ∀ p ∈ s.profile, p.reference.Parses := by
  have hentity : (field "object" Entity.decoder).Gives Entity.Readable :=
    gives_field (fun _ _ => Entity.readable_of_decoder)
  have hprofile : (optionalOr "scan_profile" Profile.decoder).Gives
      (fun o => ∀ p ∈ o, p.reference.Parses) :=
    gives_optionalOr (fun _ _ => Profile.parses_of_decoder)
  have hrecord : (Snapshot.mk <$> field "object" Entity.decoder
      <*> optionalOr "scan_profile" Profile.decoder
      <*> optionalOr "valid_time" Instant.decoder).Gives
        (fun s => s.entity.Readable ∧ ∀ p ∈ s.profile, p.reference.Parses) :=
    .field (.seq (.formOf (fun _ he _ hp _ => ⟨he, hp⟩) hentity) hprofile)
  exact hrecord.of_decode h

end ScanGraph
