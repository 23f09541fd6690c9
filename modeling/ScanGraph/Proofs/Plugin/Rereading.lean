/-
Declarations of rules, read back.

A path stands in the declaration of a rule as its text.  What is read of a text
is read of its own text again, so a declaration whose paths were read is read
from its JSON as it was, alone and as that of a plugin of the kind of rules.
Main statement: `parsed_paths_reread`, together with what holds of such paths.

## What is proved

For every text that is read as a path, what `Path.Rereading` says of it; and for every
declaration of a rule whose paths were read, that it is read from its JSON again, alone
and in whatever way a declaration names its kind.

## What is asked, and what is not

The types that a rule declares are in order, and its number is one of 64 bits.
Declarations of scanners and normalizers have no paths, and are not treated here.
Whether the declaration makes sense, so that a registry can be built with it, is
`Proofs.Registry.Consistency`.
-/
import ScanGraph.Plugin.Codec
import ScanGraph.Proofs.Job.Rereading
import ScanGraph.Proofs.Path.Rereading

namespace ScanGraph

open Json Record

/-! ## Sets of types -/

namespace ObjectType

theorem getElem?_ctorIdx (t : ObjectType) : all[t.ctorIdx]? = some t := by
  cases t <;> rfl

theorem eq_of_ctorIdx {t u : ObjectType} (h : t.ctorIdx = u.ctorIdx) : t = u :=
  Option.some.inj (by rw [← getElem?_ctorIdx t, h, getElem?_ctorIdx u])

instance : Trans (fun t u : ObjectType => t < u) (fun t u : ObjectType => t < u)
    (fun t u : ObjectType => t < u) :=
  ⟨fun htu huv => Nat.lt_trans htu huv⟩

instance : Std.Asymm (fun t u : ObjectType => t < u) :=
  ⟨fun _ _ htu hut => Nat.lt_asymm htu hut⟩

instance : Std.Trichotomous (fun t u : ObjectType => t < u) :=
  ⟨fun _ _ htu hut => eq_of_ctorIdx (Nat.le_antisymm (Nat.le_of_not_lt hut) (Nat.le_of_not_lt htu))⟩

end ObjectType

theorem Decoder.set_types {s : SortedSet ObjectType} (h : s.toList.Pairwise (fun a b => a < b)) :
    Decoder.set ObjectType.decoder s.typesJson = .ok s := by
  have hlist : Decoder.list ObjectType.decoder s.typesJson = .ok s.toList :=
    Decoder.list_eq (fun t _ => ObjectType.decoder_toJson t)
  unfold Decoder.set
  rw [hlist]
  exact congrArg Except.ok (SortedSet.ofList_toList h)

theorem SortedSet.fits_typesJson (s : SortedSet ObjectType) (room : Nat) :
    fits (room + 1) s.typesJson = true :=
  fits_list (fun t _ => fits_objectType t)

/-! ## Paths and levels -/

theorem Path.decoder_toJson {p : Path} {s : String} (h : parse s = .ok p) :
    decoder p.toJson = .ok p := by
  have hparse : parse p.text = .ok p := parse_text h
  unfold decoder toJson Decoder.named
  simp only [hparse]

@[simp] theorem Path.fits_toJson (p : Path) (room : Nat) : fits room p.toJson = true :=
  rfl

@[simp] theorem Level.fits_toJson (l : Level) (room : Nat) : fits room l.toJson = true := by
  cases l <;> rfl

/-! ## Rules -/

namespace RuleParameter

variable {p : RuleParameter}

theorem decoder_toJson {s : String} (h : Path.parse s = .ok p.path) : decoder p.toJson = .ok p := by
  have hfound := (rearranges_self [("name", Json.str p.name), ("object_type", p.type.toJson),
    ("relation_path", p.path.toJson), ("optional", .bool p.optional),
    ("min_scan_level", p.minLevel.toJson)]).found (by simp)
  simp only [List.forall_mem_cons] at hfound
  obtain ⟨hname, htype, hpath, hoptional, hlevel, -⟩ := hfound
  refine Reads.ofMembers_eq (.seq (.seq (.seq (.seq (.form RuleParameter.mk ?_) ?_) ?_) ?_) ?_)
  · exact reads_fieldWith hname rfl
  · exact reads_fieldWith htype (ObjectType.decoder_toJson p.type)
  · exact reads_fieldWith hpath (Path.decoder_toJson h)
  · exact reads_fieldWith hoptional rfl
  · exact reads_fieldWith hlevel (Level.decoder_toJson p.minLevel)

theorem fits_toJson (p : RuleParameter) (room : Nat) : fits (room + 1) p.toJson = true :=
  fits_obj (by simp)

end RuleParameter

namespace RuleDefinition

/-- The declaration can be read back: its paths were read, its types are in order, and its number
is one of 64 bits. -/
structure Readable (d : RuleDefinition) : Prop where
  paths : ∀ p ∈ d.parameters, ∃ s, Path.parse s = .ok p.path
  configPath : ∀ p ∈ d.configPath, ∃ s, Path.parse s = .ok p
  produces : d.produces.toList.Pairwise (fun a b => a < b)
  cacheSeconds : ∀ n ∈ d.cacheSeconds, n < 2 ^ 64

section Reading

variable {d : RuleDefinition} {ms : List (String × Json)}

theorem nodup_keys_members (d : RuleDefinition) : (d.members.map Prod.fst).Nodup := by
  simp [members]

theorem Readable.reads_record (h : d.Readable)
    (hfound : ∀ m ∈ d.members, ms.filter (fun x => x.1 == m.1) = [m]) : record.Reads ms d := by
  have hparameters : Decoder.list RuleParameter.decoder (list RuleParameter.toJson d.parameters)
      = .ok d.parameters := by
    refine Decoder.list_eq (fun p hp => ?_)
    obtain ⟨s, hs⟩ := h.paths p hp
    exact RuleParameter.decoder_toJson hs
  have hcache : Decoder.nullable Decoder.nat64 (orNull nat d.cacheSeconds) = .ok d.cacheSeconds :=
    Decoder.nullable_orNull (fun _ => Json.noConfusion)
      (fun n hn => Decoder.natUpTo_nat (Nat.le_sub_one_of_lt (h.cacheSeconds n hn)))
  have hconfig : Decoder.nullable Path.decoder (orNull Path.toJson d.configPath)
      = .ok d.configPath := by
    refine Decoder.nullable_orNull (fun _ => Json.noConfusion) (fun p hp => ?_)
    obtain ⟨s, hs⟩ := h.configPath p hp
    exact Path.decoder_toJson hs
  simp only [members, List.forall_mem_cons] at hfound
  obtain ⟨hid, hconsumes, hps, hproduces, hlevel, henabled, hcached, hpath, -⟩ := hfound
  refine .seq (.seq (.seq (.seq (.seq (.seq (.seq (.form RuleDefinition.mk ?_) ?_) ?_) ?_) ?_) ?_)
    ?_) ?_
  · exact reads_fieldWith hid rfl
  · exact reads_fieldWith hconsumes (ObjectType.decoder_toJson d.consumes)
  · exact reads_fieldWith hps hparameters
  · exact reads_fieldWith hproduces (Decoder.set_types h.produces)
  · exact reads_fieldWith hlevel (Level.decoder_toJson d.minLevel)
  · exact reads_fieldWith henabled rfl
  · exact reads_fieldWith hcached hcache
  · exact reads_fieldWith hpath hconfig

theorem Readable.fits_members (h : d.Readable) (room : Nat) :
    ∀ m ∈ d.members, fits (room + 2) m.2 = true := by
  have hparameters : fits (room + 2) (list RuleParameter.toJson d.parameters) = true :=
    fits_list (fun p _ => p.fits_toJson room)
  have hcache : fits (room + 2) (orNull nat d.cacheSeconds) = true := by
    cases hseconds : d.cacheSeconds with
    | none => rfl
    | some n => exact fits_nat (h.cacheSeconds n hseconds)
  have hconfig : fits (room + 2) (orNull Path.toJson d.configPath) = true :=
    fits_orNull (fun p => p.fits_toJson _) d.configPath
  have hproduces : fits (room + 2) d.produces.typesJson = true :=
    d.produces.fits_typesJson (room + 1)
  simp [members, hparameters, hcache, hconfig, hproduces]

theorem Readable.ofText?_render (h : d.Readable) :
    record.decode.ofText? (Json.obj d.members).render = some d := by
  have hfits : fits maxDepth (.obj d.members) = true :=
    fits_obj (h.fits_members (maxDepth - 3))
  have hfound := (rearranges_self d.members).found d.nodup_keys_members
  exact Decoder.ofText?_render hfits (h.reads_record hfound).ofMembers_eq

end Reading

end RuleDefinition

/-! ## Plugins -/

namespace PluginDefinition

variable {d : RuleDefinition}

theorem decoder_toJson_rule (h : d.Readable) (tagging : Tagging) :
    decoder tagging (rule d).toJson = .ok (rule d) := by
  have hform : (tagging.name? PluginKind.names (.str PluginKind.rule.name)).bind record?
      = some (rule <$> RuleDefinition.record) := by
    cases tagging <;> rfl
  have hkind : ∀ m ∈ d.members, m.1 ≠ "kind" := by
    simp [RuleDefinition.members]
  have hrearranged := rearranges_self (("kind", Json.str PluginKind.rule.name) :: d.members)
  have htag := hrearranged.found
    (List.nodup_cons.2 ⟨by simp [RuleDefinition.members], d.nodup_keys_members⟩) _
    List.mem_cons_self
  have hfound := (hrearranged.others hkind).found d.nodup_keys_members
  unfold decoder Decoder.taggedBy toJson
  simp only [kind, members, htag, hform]
  exact Reads.ofMembers_eq (.form rule (h.reads_record hfound))

/-- A rule is read from its text as a plugin, whatever the tags of plugins are. -/
theorem ofText?_render_rule (h : d.Readable) (tagging : Tagging) :
    (decoder tagging).ofText? (rule d).toJson.render = some (rule d) := by
  have hfits : fits maxDepth (rule d).toJson = true :=
    fits_obj (List.forall_mem_cons.2 ⟨rfl, h.fits_members (maxDepth - 3)⟩)
  exact Decoder.ofText?_render hfits (decoder_toJson_rule h tagging)

end PluginDefinition

/-- A text that is read as a path is the text of that path but for the blanks around its parts, and
the path is read from its own text again.  Its steps follow one another from the root on; reversing
it swaps its two ends, keeps its bound, and is undone by reversing it once more.  A rule whose paths
were read is read from its text as it was. -/
theorem parsed_paths_reread :
    (∀ s p, Path.parse s = .ok p →
      p.text = Text.join "." ((Text.pieces '.' s).map Text.trim) ∧
      Path.parse p.text = .ok p ∧
      (∀ step ∈ p.steps.head?, step.near = p.root) ∧
      p.steps.IsChain (fun a b => a.far = b.near) ∧
      p.reversed.reversed = p ∧
      p.reversed.root = p.endType ∧ p.reversed.endType = p.root ∧
      p.reversed.firewallBound = p.firewallBound) ∧
    ∀ d : RuleDefinition, d.Readable →
      RuleDefinition.record.decode.ofText? (Json.obj d.members).render = some d ∧
      ∀ tagging, (PluginDefinition.decoder tagging).ofText? (PluginDefinition.rule d).toJson.render
        = some (.rule d) := by
  refine ⟨fun s p h => ?_, fun d h => ⟨h.ofText?_render, PluginDefinition.ofText?_render_rule h⟩⟩
  have hleads := Path.leads_of_parse h
  exact ⟨Path.text_of_parse h, Path.parse_text h, fun step hstep => hleads.near_head hstep,
    hleads.isChain, Path.reversed_reversed hleads, rfl, Path.endType_reversed hleads,
    Path.firewallBound_reversed p⟩

/-! ## A text with blanks -/

namespace Spaced

/-- A path written with blanks around its parts. -/
def text : String :=
  " Hostname .\t<hostname[is DNSARecord]. address"

/-- From a name to its records, and from them to their addresses. -/
def path : Path :=
  ⟨.hostname,
    [⟨.incoming, ⟨.dnsRecord, "hostname", .hostname, some .l0, some .l2⟩, .hostname, .dnsA⟩,
      ⟨.outgoing, ⟨.dnsA, "address", .ipv4, none, none⟩, .dnsA, .ipv4⟩]⟩

theorem parse_eq : Path.parse text = .ok path := by
  decide +kernel

/-- A rule with that path for a parameter and for its settings. -/
def definition : RuleDefinition :=
  ⟨"addresses", .hostname, [⟨"addresses", .ipv4, path, true, .l1⟩], ⟨[.katFindingType, .finding]⟩,
    .l2, false, some 60, some path⟩

theorem readable : definition.Readable where
  paths := fun _ hp => ⟨text, by rw [List.mem_singleton.1 hp]; exact parse_eq⟩
  configPath := fun _ hp => ⟨text, Option.some.inj hp ▸ parse_eq⟩
  produces := by decide
  cacheSeconds := fun _ hn => Option.some.inj hn ▸ by decide

/-- The path loses its blanks, the rule loses nothing. -/
theorem parsed_paths_reread_spaced :
    path.text = "Hostname.<hostname[is DNSARecord].address" ∧ Path.parse path.text = .ok path ∧
      path.reversed.root = .ipv4 ∧ path.reversed.reversed = path ∧
      path.reversed.firewallBound = some .l0 ∧
      (PluginDefinition.decoder .byName).ofText? (PluginDefinition.rule definition).toJson.render
        = some (.rule definition) := by
  obtain ⟨htext, hparse, -, -, hreversed, hroot, -, hbound⟩ :=
    parsed_paths_reread.1 text path parse_eq
  obtain ⟨-, hplugin⟩ := parsed_paths_reread.2 definition readable
  exact ⟨htext.trans (by decide +kernel), hparse, hroot.trans rfl, hreversed, hbound.trans rfl,
    hplugin .byName⟩

end Spaced

end ScanGraph
