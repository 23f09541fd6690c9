/-
Natural keys tell objects apart.

A key is one text: its tokens are joined at bars, and the token of a field that
points at another object has bars of its own.  The type of an object still says
how many bars every token but the first has, so that two keys of one type are
cut at the same places.  What a token does not say is the type of the object
pointed at.  Addresses show theirs by how they are written, while types of
findings do not, so that keys identify objects up to the kind of type that a
finding has.  Main statement: `reference_eq_iff`.

## What is asked

An object is `Keyed` if the texts of its own key have no bar and the references in its
key are those of keyed objects again, of the types that the schema has for them.  Both
are needed: a bar in a name moves a boundary between tokens, and a reference to an
object of some other type brings a key of another shape.  The subject of a finding is
exempt, since it comes first and may have any number of bars.

## What is proved

The reference of a keyed object determines its type and the fields of its key, except
that of the type of a finding it only determines the key.  `one_reference_two_findings`
shows that the exception cannot be dropped: a finding whose type is of one kind and a
finding whose type is of another have the same reference if the two types have one key.
Fields that are not in a key are not determined by anything.
-/
import ScanGraph.Entity
import ScanGraph.Proofs.Address.Reading

namespace ScanGraph

/-! ## Tokens joined at bars -/

namespace Reference

def bars (s : String) : Nat :=
  s.toList.count separator

theorem bars_eq_zero {s : String} (h : separator ∉ s.toList) : bars s = 0 :=
  List.count_eq_zero_of_not_mem h

section Joined

variable {x x' y : String} {l l' : List String}

theorem toList_join_cons (x y : String) (l : List String) :
    (Text.join "|" (x :: y :: l)).toList
      = x.toList ++ separator :: (Text.join "|" (y :: l)).toList := by
  simp [Text.join, separator, String.toList_intercalate, List.intercalate]

theorem join_singleton (x : String) : Text.join "|" [x] = x := by
  simp [Text.join]

theorem bars_join_cons (x y : String) (l : List String) :
    bars (Text.join "|" (x :: y :: l)) = bars x + 1 + bars (Text.join "|" (y :: l)) := by
  unfold bars
  rw [toList_join_cons, List.count_append, List.count_cons_self]
  omega

theorem append_separator_inj {a a' b b' : List Char} (hcount : b.count separator = b'.count separator)
    (h : a ++ separator :: b = a' ++ separator :: b') : a = a' ∧ b = b' := by
  induction a generalizing a' with
  | nil =>
    cases a' with
    | nil => exact ⟨rfl, (List.cons.inj h).2⟩
    | cons c a' =>
      have hb : b = a' ++ separator :: b' := (List.cons.inj h).2
      rw [hb, List.count_append, List.count_cons_self] at hcount
      omega
  | cons c a ih =>
    cases a' with
    | nil =>
      have hb : a ++ separator :: b = b' := (List.cons.inj h).2
      rw [← hb, List.count_append, List.count_cons_self] at hcount
      omega
    | cons c' a' =>
      obtain ⟨rfl, hrest⟩ := List.cons.inj h
      obtain ⟨rfl, rfl⟩ := ih hrest
      exact ⟨rfl, rfl⟩

theorem bars_join_congr (hl : l.map bars = l'.map bars) (hx : bars x = bars x') :
    bars (Text.join "|" (x :: l)) = bars (Text.join "|" (x' :: l')) := by
  induction l generalizing x x' l' with
  | nil =>
    obtain rfl : l' = [] := List.map_eq_nil_iff.1 hl.symm
    rw [join_singleton, join_singleton, hx]
  | cons y l ih =>
    cases l' with
    | nil => cases hl
    | cons y' l' =>
      obtain ⟨hy, hl⟩ := List.cons.inj hl
      rw [bars_join_cons, bars_join_cons, hx, ih hl hy]

/-- Joined tokens are told apart where those after the first have equally many bars. -/
theorem join_inj (hl : l.map bars = l'.map bars)
    (h : Text.join "|" (x :: l) = Text.join "|" (x' :: l')) : x = x' ∧ l = l' := by
  induction l generalizing x x' l' with
  | nil =>
    obtain rfl : l' = [] := List.map_eq_nil_iff.1 hl.symm
    rw [join_singleton, join_singleton] at h
    exact ⟨h, rfl⟩
  | cons y l ih =>
    cases l' with
    | nil => cases hl
    | cons y' l' =>
      obtain ⟨hy, hl⟩ := List.cons.inj hl
      have hchars := congrArg String.toList h
      rw [toList_join_cons, toList_join_cons] at hchars
      obtain ⟨hx, hrest⟩ := append_separator_inj (bars_join_congr hl hy) hchars
      obtain ⟨rfl, rfl⟩ := ih hl (String.toList_inj.1 hrest)
      exact ⟨String.toList_inj.1 hx, rfl⟩

end Joined

end Reference

/-! ## The fields of a key -/

/-- A field of a natural key: a value of its own, or a reference by name, which contributes the key
of the object that it points at or stands in the key as a whole. -/
inductive KeyField where
  | text (s : String)
  | v4 (x : Address.V4)
  | v6 (x : Address.V6)
  | protocol (p : Protocol)
  | port (n : UInt16)
  | inlined (name : String) (r : Reference)
  | whole (name : String) (r : Reference)
deriving DecidableEq, Repr

namespace KeyField

/-- What a field contributes to the key. -/
def token : KeyField → String
  | text s => s
  | v4 x => x.text
  | v6 x => x.text
  | protocol p => p.name
  | port n => Text.decimalText n.toNat
  | inlined _ r => r.naturalKey
  | whole _ r => r.text

/-- The text of a field, if that is its value. -/
def text? : KeyField → Option String
  | text s => some s
  | _ => none

/-- The reference of a field and its name, if it has one. -/
def link? : KeyField → Option (String × Reference)
  | inlined name r => some (name, r)
  | whole name r => some (name, r)
  | _ => none

/-- Fields agree if they are the same, or if they are types of findings with the same key. -/
def Agrees (f f' : KeyField) : Prop :=
  f = f' ∨ ∃ r r', f = inlined "finding_type" r ∧ f' = inlined "finding_type" r' ∧
    r.type.isA .findingType = true ∧ r'.type.isA .findingType = true ∧ r.key = r'.key

end KeyField

namespace Entity

def keyFields : Entity → List KeyField
  | network name => [.text name]
  | hostname net name => [.inlined "network" net, .text name]
  | ipv4 net address => [.inlined "network" net, .v4 address]
  | ipv6 net address => [.inlined "network" net, .v6 address]
  | ipPort address protocol port _ =>
      [.inlined "address" address, .protocol protocol, .port port]
  | dnsA host value .. => [.inlined "hostname" host, .text value]
  | dnsAAAA host value .. => [.inlined "hostname" host, .text value]
  | dnsMX host value .. => [.inlined "hostname" host, .text value]
  | dnsNS host value .. => [.inlined "hostname" host, .text value]
  | dnsTXT host value .. => [.inlined "hostname" host, .text value]
  | resolvedHostname host address => [.inlined "hostname" host, .inlined "address" address]
  | katFindingType id .. => [.text id]
  | cveFindingType id .. => [.text id]
  | cweFindingType id .. => [.text id]
  | finding type subject .. => [.whole "ooi" subject, .inlined "finding_type" type]
  | config subject ruleId _ => [.whole "ooi" subject, .text ruleId]

/-- The texts of the key that are the object's own. -/
def keyTexts (e : Entity) : List String :=
  e.keyFields.filterMap KeyField.text?

/-- The references in the key, by name. -/
def keyLinks (e : Entity) : List (String × Reference) :=
  e.keyFields.filterMap KeyField.link?

theorem keyTokens_eq (e : Entity) : e.keyTokens = e.keyFields.map KeyField.token := by
  cases e <;> rfl

/-- The own texts of the key have no bar, and each reference in it is that of such an object again,
of the type that the schema has for the field or a subtype. -/
inductive Keyed : Entity → Prop
  | intro {e : Entity} (target : Reference → Entity)
      (texts : ∀ s ∈ e.keyTexts, Reference.separator ∉ s.toList)
      (references : ∀ x ∈ e.keyLinks, (target x.2).reference = x.2)
      (allowed : ∀ x ∈ e.keyLinks, ∀ rel ∈ Relation.find? e.type x.1,
        (target x.2).type.isA rel.target = true)
      (keyed : ∀ x ∈ e.keyLinks, Keyed (target x.2)) : Keyed e

end Entity

/-! ## References to keyed objects -/

theorem ObjectType.eq_of_isA {t u : ObjectType} (hu : u = .network ∨ u = .hostname)
    (h : t.isA u = true) : t = u := by
  revert h
  rcases hu with rfl | rfl <;> cases t <;> decide

namespace Relation

theorem target_network {t : ObjectType} (ht : t = .hostname ∨ t = .ipv4 ∨ t = .ipv6) :
    (find? t "network").map target = some .network := by
  rcases ht with rfl | rfl | rfl <;> decide +kernel

theorem target_hostname {t : ObjectType} (ht : t = .resolvedHostname ∨ t.isA .dnsRecord = true) :
    (find? t "hostname").map target = some .hostname := by
  revert t
  have hall : ∀ t ∈ ObjectType.all, t = .resolvedHostname ∨ t.isA .dnsRecord = true →
      (find? t "hostname").map target = some .hostname := by decide +kernel
  exact fun {t} ht => hall t (ObjectType.mem_all t) ht

theorem target_address {t : ObjectType} (ht : t = .ipPort ∨ t = .resolvedHostname) :
    (find? t "address").map target = some .ipAddress := by
  rcases ht with rfl | rfl <;> decide +kernel

theorem target_findingType : (find? .finding "finding_type").map target = some .findingType := by
  decide +kernel

end Relation

/-- The reference of a keyed object that is of a type or its subtypes. -/
def Reference.Keyed (t : ObjectType) (r : Reference) : Prop :=
  ∃ e : Entity, e.Keyed ∧ e.type.isA t = true ∧ e.reference = r

namespace Entity

variable {e : Entity}

theorem naturalKey_reference (e : Entity) :
    e.reference.naturalKey = Text.join "|" e.keyTokens := by
  cases e <;> rfl

theorem key_reference (e : Entity) : e.reference.key = some e.reference.naturalKey := by
  cases e <;> rfl

theorem Keyed.bars_text (h : e.Keyed) {s : String} (hs : s ∈ e.keyTexts) :
    Reference.bars s = 0 := by
  cases h with
  | intro target texts references allowed keyed => exact Reference.bars_eq_zero (texts s hs)

theorem Keyed.link (h : e.Keyed) {name : String} {r : Reference} {t : ObjectType}
    (hlink : (name, r) ∈ e.keyLinks) (ht : (Relation.find? e.type name).map Relation.target = some t) :
    r.Keyed t := by
  cases h with
  | intro target texts references allowed keyed =>
    obtain ⟨rel, hrel, rfl⟩ := Option.map_eq_some_iff.1 ht
    exact ⟨target r, keyed _ hlink, allowed _ hlink rel hrel, references _ hlink⟩

end Entity

namespace Reference

open Entity

variable {r r' : Reference} {t t' : ObjectType}

theorem Keyed.isA (h : r.Keyed t) : r.type.isA t = true := by
  obtain ⟨e, -, hisA, rfl⟩ := h
  exact e.reference_type ▸ hisA

theorem Keyed.key_eq (h : r.Keyed t) : r.key = some r.naturalKey := by
  obtain ⟨e, -, -, rfl⟩ := h
  exact e.key_reference

theorem Keyed.eq_of_naturalKey (h : r.Keyed t) (h' : r'.Keyed t') (htype : r.type = r'.type)
    (hkey : r.naturalKey = r'.naturalKey) : r = r' := by
  have hkeys : r.key = r'.key := by rw [h.key_eq, h'.key_eq, hkey]
  cases r
  cases r'
  cases htype
  cases hkeys
  rfl

theorem Keyed.bars_network (h : r.Keyed .network) : bars r.naturalKey = 0 := by
  obtain ⟨e, he, hisA, rfl⟩ := h
  cases e with
  | network name =>
    rw [naturalKey_reference, keyTokens, join_singleton]
    exact he.bars_text List.mem_cons_self
  | _ => cases hisA

theorem Keyed.bars_findingType (h : r.Keyed .findingType) : bars r.naturalKey = 0 := by
  obtain ⟨e, he, hisA, rfl⟩ := h
  cases e with
  | katFindingType id | cveFindingType id | cweFindingType id =>
    rw [naturalKey_reference, keyTokens, join_singleton]
    exact he.bars_text List.mem_cons_self
  | _ => cases hisA

theorem Keyed.bars_hostname (h : r.Keyed .hostname) : bars r.naturalKey = 1 := by
  obtain ⟨e, he, hisA, rfl⟩ := h
  cases e with
  | hostname net name =>
    have hnet : net.Keyed .network :=
      he.link List.mem_cons_self (Relation.target_network (.inl rfl))
    have hname : bars name = 0 := he.bars_text List.mem_cons_self
    rw [naturalKey_reference, keyTokens, bars_join_cons, join_singleton, hnet.bars_network, hname]
  | _ => cases hisA

/-- The key of an address is a network and the text of an address of its version. -/
theorem Keyed.exists_address (h : r.Keyed .ipAddress) :
    ∃ net, bars net = 0 ∧
      ((r.type = .ipv4 ∧ ∃ x : Address.V4, r.naturalKey = Text.join "|" [net, x.text]) ∨
        (r.type = .ipv6 ∧ ∃ x : Address.V6, r.naturalKey = Text.join "|" [net, x.text])) := by
  obtain ⟨e, he, hisA, rfl⟩ := h
  cases e with
  | ipv4 net x =>
    have hnet : net.Keyed .network :=
      he.link List.mem_cons_self (Relation.target_network (.inr (.inl rfl)))
    exact ⟨net.naturalKey, hnet.bars_network, .inl ⟨rfl, x, rfl⟩⟩
  | ipv6 net x =>
    have hnet : net.Keyed .network :=
      he.link List.mem_cons_self (Relation.target_network (.inr (.inr rfl)))
    exact ⟨net.naturalKey, hnet.bars_network, .inr ⟨rfl, x, rfl⟩⟩
  | _ => cases hisA

theorem bars_v4 (x : Address.V4) : bars x.text = 0 := by
  refine bars_eq_zero ?_
  rw [Address.V4.text, String.toList_ofList]
  exact Address.V4.not_mem_chars (by decide) (by decide) x

theorem bars_v6 (x : Address.V6) : bars x.text = 0 := by
  refine bars_eq_zero ?_
  rw [Address.V6.text, String.toList_ofList]
  exact Address.V6.not_mem_chars (by decide) (by decide) (by decide) (by decide) x

theorem Keyed.bars_address (h : r.Keyed .ipAddress) : bars r.naturalKey = 1 := by
  obtain ⟨net, hnet, ⟨-, x, hkey⟩ | ⟨-, x, hkey⟩⟩ := h.exists_address
  · rw [hkey, bars_join_cons, join_singleton, hnet, bars_v4]
  · rw [hkey, bars_join_cons, join_singleton, hnet, bars_v6]

theorem Keyed.type_eq_of_address (h : r.Keyed .ipAddress) (h' : r'.Keyed .ipAddress)
    (hkey : r.naturalKey = r'.naturalKey) : r.type = r'.type := by
  obtain ⟨net, -, ⟨ht, x, hx⟩ | ⟨ht, x, hx⟩⟩ := h.exists_address <;>
    obtain ⟨net', -, ⟨ht', y, hy⟩ | ⟨ht', y, hy⟩⟩ := h'.exists_address
  · rw [ht, ht']
  · rw [hx, hy] at hkey
    have htext := (join_inj (by simp [bars_v4, bars_v6]) hkey).2
    exact absurd (List.cons.inj htext).1 (Address.V4.text_ne_text x y)
  · rw [hx, hy] at hkey
    have htext := (join_inj (by simp [bars_v4, bars_v6]) hkey).2
    exact absurd (List.cons.inj htext).1.symm (Address.V4.text_ne_text y x)
  · rw [ht, ht']

end Reference

/-! ## The shape of a key -/

inductive KeySlot where
  | text
  | v4
  | v6
  | protocol
  | port
  | network
  | hostname
  | address
  | findingType
  | subject
deriving DecidableEq, Repr

namespace KeySlot

open Reference

/-- A field stands at its place: an own text has no bar, and a reference is that of a keyed object
of the type for the place. -/
def Holds : KeySlot → KeyField → Prop
  | text, f => ∃ s, f = .text s ∧ bars s = 0
  | v4, f => ∃ x, f = .v4 x
  | v6, f => ∃ x, f = .v6 x
  | protocol, f => ∃ p, f = .protocol p
  | port, f => ∃ n, f = .port n
  | network, f => ∃ r : Reference, f = .inlined "network" r ∧ r.Keyed .network
  | hostname, f => ∃ r : Reference, f = .inlined "hostname" r ∧ r.Keyed .hostname
  | address, f => ∃ r : Reference, f = .inlined "address" r ∧ r.Keyed .ipAddress
  | findingType, f => ∃ r : Reference, f = .inlined "finding_type" r ∧ r.Keyed .findingType
  | subject, f => ∃ r, f = .whole "ooi" r

/-- The number of bars in the token at a place, other than that of the subject, which has any
number. -/
def bars : KeySlot → Nat
  | hostname | address => 1
  | _ => 0

def ofType : ObjectType → List KeySlot
  | .network | .katFindingType | .cveFindingType | .cweFindingType => [text]
  | .hostname => [network, text]
  | .ipv4 => [network, v4]
  | .ipv6 => [network, v6]
  | .ipPort => [address, protocol, port]
  | .dnsA | .dnsAAAA | .dnsMX | .dnsNS | .dnsTXT => [hostname, text]
  | .resolvedHostname => [hostname, address]
  | .finding => [subject, findingType]
  | .config => [subject, text]
  | .object | .ipAddress | .dnsRecord | .findingType => []

theorem subject_not_mem_tail (t : ObjectType) : subject ∉ (ofType t).tail := by
  cases t <;> decide

section Holds

variable {slot : KeySlot} {slots : List KeySlot} {f f' : KeyField} {fs fs' : List KeyField}

theorem Holds.bars_token (h : slot.Holds f) (hslot : slot ≠ subject) :
    Reference.bars f.token = slot.bars := by
  cases slot with
  | text => obtain ⟨s, rfl, hs⟩ := h; exact hs
  | v4 => obtain ⟨x, rfl⟩ := h; exact bars_v4 x
  | v6 => obtain ⟨x, rfl⟩ := h; exact bars_v6 x
  | protocol => obtain ⟨p, rfl⟩ := h; cases p <;> decide
  | port =>
    obtain ⟨n, rfl⟩ := h
    refine bars_eq_zero (fun hbar => ?_)
    rw [KeyField.token, Text.decimalText, String.toList_ofList] at hbar
    exact absurd (Text.isDigit_of_mem_decimal hbar) (by decide)
  | network => obtain ⟨r, rfl, hr⟩ := h; exact hr.bars_network
  | hostname => obtain ⟨r, rfl, hr⟩ := h; exact hr.bars_hostname
  | address => obtain ⟨r, rfl, hr⟩ := h; exact hr.bars_address
  | findingType => obtain ⟨r, rfl, hr⟩ := h; exact hr.bars_findingType
  | subject => exact absurd rfl hslot

theorem Holds.agrees (h : slot.Holds f) (h' : slot.Holds f') (htoken : f.token = f'.token) :
    f.Agrees f' := by
  cases slot with
  | text =>
    obtain ⟨s, rfl, -⟩ := h
    obtain ⟨s', rfl, -⟩ := h'
    exact .inl (congrArg KeyField.text htoken)
  | v4 =>
    obtain ⟨x, rfl⟩ := h
    obtain ⟨x', rfl⟩ := h'
    exact .inl (congrArg KeyField.v4 (Address.V4.text_injective htoken))
  | v6 =>
    obtain ⟨x, rfl⟩ := h
    obtain ⟨x', rfl⟩ := h'
    exact .inl (congrArg KeyField.v6 (Address.V6.text_injective htoken))
  | protocol =>
    obtain ⟨p, rfl⟩ := h
    obtain ⟨p', rfl⟩ := h'
    exact .inl (congrArg KeyField.protocol (Protocol.name_injective htoken))
  | port =>
    obtain ⟨n, rfl⟩ := h
    obtain ⟨n', rfl⟩ := h'
    exact .inl (congrArg KeyField.port (UInt16.toNat_inj.1 (Text.decimalText_injective htoken)))
  | network =>
    obtain ⟨r, rfl, hr⟩ := h
    obtain ⟨r', rfl, hr'⟩ := h'
    have htype : r.type = r'.type :=
      (ObjectType.eq_of_isA (.inl rfl) hr.isA).trans (ObjectType.eq_of_isA (.inl rfl) hr'.isA).symm
    exact .inl (congrArg _ (hr.eq_of_naturalKey hr' htype htoken))
  | hostname =>
    obtain ⟨r, rfl, hr⟩ := h
    obtain ⟨r', rfl, hr'⟩ := h'
    have htype : r.type = r'.type :=
      (ObjectType.eq_of_isA (.inr rfl) hr.isA).trans (ObjectType.eq_of_isA (.inr rfl) hr'.isA).symm
    exact .inl (congrArg _ (hr.eq_of_naturalKey hr' htype htoken))
  | address =>
    obtain ⟨r, rfl, hr⟩ := h
    obtain ⟨r', rfl, hr'⟩ := h'
    exact .inl (congrArg _ (hr.eq_of_naturalKey hr' (hr.type_eq_of_address hr' htoken) htoken))
  | findingType =>
    obtain ⟨r, rfl, hr⟩ := h
    obtain ⟨r', rfl, hr'⟩ := h'
    have hkey : r.naturalKey = r'.naturalKey := htoken
    exact .inr ⟨r, r', rfl, rfl, hr.isA, hr'.isA, by rw [hr.key_eq, hr'.key_eq, hkey]⟩
  | subject =>
    obtain ⟨r, rfl⟩ := h
    obtain ⟨r', rfl⟩ := h'
    exact .inl (congrArg _ (Reference.text_injective htoken))

theorem map_bars_of_holds (h : List.Forall₂ Holds slots fs) (hslots : subject ∉ slots) :
    (fs.map KeyField.token).map Reference.bars = slots.map bars := by
  induction h with
  | nil => rfl
  | cons hslot _ ih =>
    rw [List.map_cons, List.map_cons, List.map_cons,
      hslot.bars_token (fun heq => hslots (heq ▸ List.mem_cons_self)),
      ih (fun hmem => hslots (List.mem_cons_of_mem _ hmem))]

theorem tokens_eq_of_holds (hslots : subject ∉ slots.tail) (h : List.Forall₂ Holds slots fs)
    (h' : List.Forall₂ Holds slots fs')
    (hkey : Text.join "|" (fs.map KeyField.token) = Text.join "|" (fs'.map KeyField.token)) :
    fs.map KeyField.token = fs'.map KeyField.token := by
  cases h with
  | nil =>
    cases h'
    rfl
  | @cons slot f slots fs _ hrest =>
    cases h' with
    | @cons _ f' _ fs' _ hrest' =>
      have hbars := (map_bars_of_holds hrest hslots).trans (map_bars_of_holds hrest' hslots).symm
      obtain ⟨hfirst, hmore⟩ := join_inj hbars hkey
      rw [List.map_cons, List.map_cons, hfirst, hmore]

theorem forall₂_agrees (h : List.Forall₂ Holds slots fs) (h' : List.Forall₂ Holds slots fs')
    (htokens : fs.map KeyField.token = fs'.map KeyField.token) :
    List.Forall₂ KeyField.Agrees fs fs' := by
  induction h generalizing fs' with
  | nil =>
    cases h'
    exact .nil
  | cons hslot _ ih =>
    cases h' with
    | cons hslot' hrest' =>
      obtain ⟨htoken, hrest⟩ := List.cons.inj htokens
      exact .cons (hslot.agrees hslot' htoken) (ih hrest' hrest)

end Holds

end KeySlot

namespace Entity

open KeySlot

variable {a b e : Entity}

theorem Keyed.holds_text (h : e.Keyed) {s : String} (hs : s ∈ e.keyTexts) :
    Holds .text (.text s) :=
  ⟨s, rfl, h.bars_text hs⟩

theorem Keyed.holds_record (h : e.Keyed) {host : Reference} {value : String}
    (hfields : e.keyFields = [.inlined "hostname" host, .text value])
    (ht : e.type.isA .dnsRecord = true) :
    List.Forall₂ Holds [.hostname, .text] e.keyFields := by
  have hlink : ("hostname", host) ∈ e.keyLinks := by simp [keyLinks, hfields, KeyField.link?]
  have htext : value ∈ e.keyTexts := by simp [keyTexts, hfields, KeyField.text?]
  rw [hfields]
  exact .cons ⟨host, rfl, h.link hlink (Relation.target_hostname (.inr ht))⟩
    (.cons (h.holds_text htext) .nil)

/-- The fields of a keyed object stand at the places for its type. -/
theorem Keyed.holds (h : e.Keyed) : List.Forall₂ Holds (ofType e.type) e.keyFields := by
  cases e with
  | network | katFindingType | cveFindingType | cweFindingType =>
    exact .cons (h.holds_text List.mem_cons_self) .nil
  | hostname net name =>
    exact .cons ⟨net, rfl, h.link List.mem_cons_self (Relation.target_network (.inl rfl))⟩
      (.cons (h.holds_text List.mem_cons_self) .nil)
  | ipv4 net x =>
    exact .cons ⟨net, rfl, h.link List.mem_cons_self (Relation.target_network (.inr (.inl rfl)))⟩
      (.cons ⟨x, rfl⟩ .nil)
  | ipv6 net x =>
    exact .cons ⟨net, rfl, h.link List.mem_cons_self (Relation.target_network (.inr (.inr rfl)))⟩
      (.cons ⟨x, rfl⟩ .nil)
  | ipPort address protocol port state =>
    exact .cons ⟨address, rfl, h.link List.mem_cons_self (Relation.target_address (.inl rfl))⟩
      (.cons ⟨protocol, rfl⟩ (.cons ⟨port, rfl⟩ .nil))
  | dnsA | dnsAAAA | dnsMX | dnsNS | dnsTXT => exact h.holds_record rfl rfl
  | resolvedHostname host address =>
    exact .cons ⟨host, rfl, h.link List.mem_cons_self (Relation.target_hostname (.inl rfl))⟩
      (.cons ⟨address, rfl, h.link (List.mem_cons_of_mem _ List.mem_cons_self)
        (Relation.target_address (.inr rfl))⟩ .nil)
  | finding type subject =>
    exact .cons ⟨subject, rfl⟩
      (.cons ⟨type, rfl, h.link (List.mem_cons_of_mem _ List.mem_cons_self)
        Relation.target_findingType⟩ .nil)
  | config subject ruleId settings =>
    exact .cons ⟨subject, rfl⟩ (.cons (h.holds_text List.mem_cons_self) .nil)

theorem map_token_of_agrees {fs fs' : List KeyField} (h : List.Forall₂ KeyField.Agrees fs fs') :
    fs.map KeyField.token = fs'.map KeyField.token := by
  induction h with
  | nil => rfl
  | cons hagrees _ ih =>
    rw [List.map_cons, List.map_cons, ih]
    rcases hagrees with rfl | ⟨r, r', rfl, rfl, -, -, hkey⟩
    · rfl
    · simp [KeyField.token, Reference.naturalKey, hkey]

theorem type_eq_of_reference (h : a.reference = b.reference) : a.type = b.type := by
  rw [← a.reference_type, h, b.reference_type]

/-- The fields of the keys of keyed objects agree if the objects have one reference. -/
theorem Keyed.agrees (ha : a.Keyed) (hb : b.Keyed) (h : a.reference = b.reference) :
    List.Forall₂ KeyField.Agrees a.keyFields b.keyFields := by
  have hkey : Text.join "|" (a.keyFields.map KeyField.token)
      = Text.join "|" (b.keyFields.map KeyField.token) := by
    rw [← keyTokens_eq, ← keyTokens_eq, ← naturalKey_reference, h, naturalKey_reference]
  have hholds : List.Forall₂ Holds (ofType a.type) b.keyFields :=
    type_eq_of_reference h ▸ hb.holds
  have htokens := tokens_eq_of_holds (subject_not_mem_tail a.type) ha.holds hholds hkey
  exact forall₂_agrees ha.holds hholds htokens

/-- Keyed objects have one reference exactly if they are of one type and the fields of their keys
are the same, except that the types of two findings need only have the same key. -/
theorem reference_eq_iff (ha : a.Keyed) (hb : b.Keyed) :
    a.reference = b.reference ↔
      a.type = b.type ∧ List.Forall₂ KeyField.Agrees a.keyFields b.keyFields := by
  constructor
  · intro h
    exact ⟨type_eq_of_reference h, ha.agrees hb h⟩
  · rintro ⟨htype, hagree⟩
    have htokens : a.keyTokens = b.keyTokens := by
      rw [keyTokens_eq, keyTokens_eq, map_token_of_agrees hagree]
    rw [reference, reference, htype, htokens]

/-! ## Two findings under one reference

Types of findings of different kinds can have the same identifier, and then findings of these types
on one object have the same key. -/

namespace Homonym

def network : Entity :=
  .network "internet"

def kat : Entity :=
  .katFindingType "KAT-X" none none

/-- A type of another kind with the same identifier. -/
def cve : Entity :=
  .cveFindingType "KAT-X" none none

def found (type : Entity) : Entity :=
  .finding type.reference network.reference none none none

/-- Without references, no bar in the texts of the key is enough. -/
theorem keyed_of_no_links {e : Entity} (hlinks : e.keyLinks = [])
    (htexts : ∀ s ∈ e.keyTexts, Reference.separator ∉ s.toList) : e.Keyed := by
  have hnone : ∀ x, x ∉ e.keyLinks := by
    intro x hx
    rw [hlinks] at hx
    cases hx
  exact .intro (fun _ => e) htexts (fun x hx => absurd hx (hnone x))
    (fun x hx => absurd hx (hnone x)) (fun x hx => absurd hx (hnone x))

theorem keyed_network : network.Keyed :=
  keyed_of_no_links rfl (by decide +kernel)

theorem keyed_kat : (found kat).Keyed := by
  refine .intro (fun r => if r.type = .network then network else kat) (by decide +kernel)
    (by decide +kernel) (by decide +kernel) ?_
  exact List.forall_mem_cons.2 ⟨keyed_network, List.forall_mem_singleton.2
    (keyed_of_no_links rfl (by decide +kernel))⟩

theorem keyed_cve : (found cve).Keyed := by
  refine .intro (fun r => if r.type = .network then network else cve) (by decide +kernel)
    (by decide +kernel) (by decide +kernel) ?_
  exact List.forall_mem_cons.2 ⟨keyed_network, List.forall_mem_singleton.2
    (keyed_of_no_links rfl (by decide +kernel))⟩

theorem reference_eq_iff_homonym :
    (found kat).Keyed ∧ (found cve).Keyed ∧ (found kat).type = (found cve).type ∧
      List.Forall₂ KeyField.Agrees (found kat).keyFields (found cve).keyFields := by
  have hreference : (found kat).reference = (found cve).reference := by decide +kernel
  obtain ⟨htype, hagree⟩ := (reference_eq_iff keyed_kat keyed_cve).1 hreference
  exact ⟨keyed_kat, keyed_cve, htype, hagree⟩

/-- Two findings whose keys have different fields can have the same reference. -/
theorem one_reference_two_findings :
    (found kat).Keyed ∧ (found cve).Keyed ∧ (found kat).reference = (found cve).reference ∧
      (found kat).keyFields ≠ (found cve).keyFields :=
  ⟨keyed_kat, keyed_cve, by decide +kernel, by decide +kernel⟩

end Homonym

end Entity

end ScanGraph
