/-
What the normalizer returns refers to nothing that is missing.

A line of an answer says what is wrong with it: it has too few words, or the words
of its value are not those of its type.  `Malformed` states this of a line as it
stands in the text, and reading stops at the first such line, which takes all
objects with it: `ofLines_of_malformed`.

A record brings the objects that it refers to, each before it, so that whatever
the text of an answer is, the objects of its records refer only to the network
and to each other.  Dropping the input, repeated references and undeclared types
keeps that, up to the input itself.  Main statement: `normalized_closed`.

## What is proved

For every evidence whatsoever of a host on a network: the objects that are kept have
references of their own, none of them that of the input; each field of theirs is one
that the schema has, and points at the network, at the input or at another object that
is kept.  And where the evidence is an answer with a line that is no record, the job is
completed with an error that quotes such a line, and no object is kept.

## What is asked, and what is not

The job's normalizer is the one at hand, its object can be read and is a host, and the
host's network is a reference to a network.  Evidence that is no answer at all is a
fault of another kind, which `Normalizing.Kept` covers for all normalizers alike.  That
the objects say what the answer said is proved for answers that list addresses only, in
`Dns.Answered`.
-/
import Mathlib.Data.List.Basic
import ScanGraph.Builtin
import ScanGraph.Dns.ResourceRecord
import ScanGraph.Normalizing
import ScanGraph.Proofs.Dns.Reading

namespace ScanGraph.Dns

/-! ## Lines that are no records -/

/-- Why a value, as a text and as words, is none of a record of the type with the given name. -/
inductive FaultyValue (type value : String) (words : List (List Char)) : LineFault → Prop
  | badV4 : type = "A" → Address.V4.parse? value = none → FaultyValue type value words .badV4
  | badV6 : type = "AAAA" → Address.V6.parse? value = none → FaultyValue type value words .badV6
  | badExchange : type = "MX" → words.length ≠ 2 → FaultyValue type value words .badExchange
  | badPreference {preference exchange : List Char} : type = "MX" →
      words = [preference, exchange] → preference? preference = none →
      FaultyValue type value words .badPreference

inductive Faulty : List (List Char) → LineFault → Prop
  | tooShort {words : List (List Char)} : words.length < 4 → Faulty words .tooShort
  | noValue {words : List (List Char)} : words.length = 4 → Faulty words .noValue
  | value {name ttl kind type : List Char} {value : List (List Char)} {fault : LineFault} :
      value ≠ [] → FaultyValue (Text.upperAscii (String.ofList type))
        (Text.join " " (value.map String.ofList)) value fault →
      Faulty (name :: ttl :: kind :: type :: value) fault

/-- A line of an answer that is neither empty nor a comment, nor a record. -/
structure Malformed (line : List Char) (fault : LineFault) : Prop where
  nonempty : Text.trimWhere Text.isBlank line ≠ []
  comment : (Text.trimWhere Text.isBlank line).head? ≠ some ';'
  faulty : Faulty (Text.words (Text.trimWhere Text.isBlank line)) fault

section Lines

variable {type value : String} {words : List (List Char)} {line : List Char} {fault : LineFault}

theorem data?_eq_error_iff :
    data? type value words = .error fault ↔ FaultyValue type value words fault := by
  constructor
  · fun_cases data? type value words with
    | case2 _ htype hparse =>
      rintro ⟨⟩
      exact .badV4 htype hparse
    | case4 _ _ htype hparse =>
      rintro ⟨⟩
      exact .badV6 htype hparse
    | case7 _ _ _ htype preference exchange hpreference =>
      rintro ⟨⟩
      exact .badPreference htype rfl hpreference
    | case8 _ _ _ _ htype hwords =>
      rintro ⟨⟩
      refine .badExchange htype (fun hlength => ?_)
      obtain ⟨preference, exchange, rfl⟩ := List.length_eq_two.1 hlength
      exact hwords _ _ rfl
    | _ => rintro ⟨⟩
  · intro h
    unfold data?
    cases h with
    | badV4 htype hparse => simp [htype, hparse]
    | badV6 htype hparse => simp [htype, hparse]
    | badExchange htype hlength =>
      rw [if_neg (by simp [htype]), if_neg (by simp [htype]), if_neg (by simp [htype]),
        if_pos htype]
      split
      · exact absurd rfl hlength
      · rfl
    | badPreference htype hwords hpreference => simp [htype, hwords, hpreference]

theorem exists_of_four_le_length (h : 4 ≤ words.length) :
    ∃ name ttl kind type rest, words = name :: ttl :: kind :: type :: rest := by
  match words, h with
  | name :: ttl :: kind :: type :: rest, _ => exact ⟨name, ttl, kind, type, rest, rfl⟩

theorem ofWords_eq_error_iff : ofWords words = .error fault ↔ Faulty words fault := by
  constructor
  · intro h
    unfold ofWords at h
    split at h
    · rename_i name ttl kind type rest
      split at h
      · rename_i hempty
        cases h
        rw [List.isEmpty_iff.1 hempty]
        exact .noValue rfl
      · rename_i hrest
        dsimp only at h
        split at h
        · cases h
        · cases h
        · rename_i e hdata
          cases h
          exact .value (fun hnil => hrest (List.isEmpty_iff.2 hnil)) (data?_eq_error_iff.1 hdata)
    · rename_i hshort
      cases h
      refine .tooShort (Nat.lt_of_not_le (fun hlength => ?_))
      obtain ⟨name, ttl, kind, type, rest, rfl⟩ := exists_of_four_le_length hlength
      exact hshort _ _ _ _ _ rfl
  · intro h
    cases h with
    | tooShort hlength =>
      unfold ofWords
      split
      · simp only [List.length_cons] at hlength
        omega
      · rfl
    | noValue hlength =>
      obtain ⟨name, ttl, kind, type, rest, rfl⟩ :=
        exists_of_four_le_length (Nat.le_of_eq hlength.symm)
      obtain rfl : rest = [] := List.eq_nil_of_length_eq_zero (by simpa using hlength)
      rfl
    | value hrest hvalue =>
      unfold ofWords
      simp only [List.isEmpty_iff, if_neg hrest, data?_eq_error_iff.2 hvalue]

theorem ofLine_eq_error_iff :
    ofLine (Text.trimWhere Text.isBlank line) = .error fault ↔ Malformed line fault := by
  constructor
  · intro h
    unfold ofLine at h
    split at h
    · cases h
    · cases h
    · rename_i hnil hcomment
      refine ⟨hnil, fun hhead => ?_, ofWords_eq_error_iff.1 h⟩
      obtain ⟨rest, hrest⟩ := List.head?_eq_some_iff.1 hhead
      exact hcomment rest hrest
  · intro h
    unfold ofLine
    split
    · exact absurd ‹_› h.nonempty
    · rename_i rest hline
      exact absurd (congrArg List.head? hline) h.comment
    · exact ofWords_eq_error_iff.2 h.faulty

/-- The first line that is no record is reported, and no record is read. -/
theorem ofLines_of_malformed {lines : List (List Char)}
    (h : ∃ line ∈ lines, ∃ fault, Malformed line fault) :
    ∃ line ∈ lines, ∃ fault, Malformed line fault ∧
      ofLines lines = .error (fault, String.ofList (Text.trimWhere Text.isBlank line)) := by
  induction lines with
  | nil =>
    obtain ⟨line, hline, -⟩ := h
    exact absurd hline List.not_mem_nil
  | cons first rest ih =>
    cases hfirst : ofLine (Text.trimWhere Text.isBlank first) with
    | error fault =>
      refine ⟨first, List.mem_cons_self, fault, ofLine_eq_error_iff.1 hfirst, ?_⟩
      simp only [ofLines, hfirst]
    | ok record =>
      obtain ⟨line, hline, hmalformed⟩ : ∃ line ∈ rest, ∃ fault, Malformed line fault := by
        obtain ⟨line, hline, fault, hmalformed⟩ := h
        rcases List.mem_cons.1 hline with rfl | hline
        · rw [ofLine_eq_error_iff.2 hmalformed] at hfirst
          cases hfirst
        · exact ⟨line, hline, fault, hmalformed⟩
      obtain ⟨line, hline, fault, hmalformed, herror⟩ := ih ⟨line, hline, hmalformed⟩
      refine ⟨line, List.mem_cons_of_mem _ hline, fault, hmalformed, ?_⟩
      simp only [ofLines, hfirst, herror]

end Lines

end ScanGraph.Dns

namespace ScanGraph

/-! ## Objects that refer to each other -/

/-- Every field of an entity is one of the schema and points at an object of its type. -/
def Entity.Fits (e : Entity) : Prop :=
  ∀ m ∈ e.relations, ∃ rel, Relation.find? e.type m.1 = some rel ∧ m.2.type.isA rel.target = true

/-- Objects with references of their own, other than that of the input, whose fields point at the
network, at the input or at each other, as the schema says. -/
structure Closed (network input : Reference) (objects : List Snapshot) : Prop where
  refers : ∀ o ∈ objects, ∀ m ∈ o.entity.relations,
    m.2 = network ∨ m.2 = input ∨ ∃ p ∈ objects, p.reference = m.2
  fits : ∀ o ∈ objects, o.entity.Fits
  fresh : ∀ o ∈ objects, o.reference ≠ input
  distinct : (objects.map Snapshot.reference).Nodup

/-- An entity of a declared type whose fields point at known references, as the schema says. -/
structure Entity.Rests (d : NormalizerDefinition) (known : List Reference) (e : Entity) : Prop where
  refers : ∀ m ∈ e.relations, m.2 ∈ known
  fits : e.Fits
  covered : d.produces.covers e.type = true

/-- Entities that need nothing but the network and each other. -/
def SelfContained (d : NormalizerDefinition) (network : Reference) (es : List Entity) : Prop :=
  ∀ e ∈ es, e.Rests d (network :: es.map Entity.reference)

section SelfContained

variable {d : NormalizerDefinition} {network : Reference} {e : Entity} {es es' : List Entity}

theorem Entity.Rests.mono {known known' : List Reference} (h : e.Rests d known)
    (hsubset : known ⊆ known') : e.Rests d known' :=
  { h with refers := fun m hm => hsubset (h.refers m hm) }

theorem Entity.Rests.among (h : e.Rests d (network :: es.map Entity.reference))
    (hsubset : es ⊆ es') : e.Rests d (network :: es'.map Entity.reference) :=
  h.mono (List.cons_subset_cons _ (List.map_subset _ hsubset))

/-- Whether a field fits depends on its name and on the type that it points at. -/
def fieldFits (type : ObjectType) (m : String × ObjectType) : Bool :=
  (Relation.find? type m.1).any (fun rel => m.2.isA rel.target)

/-- Fields of some names that point, one by one, at the known references of some types. -/
theorem Entity.rests_of_zip (names : List String) {known : List Reference} {types : List ObjectType}
    (htypes : known.map Reference.type = types) (hrelations : e.relations = names.zip known)
    (hfits : (names.zip types).all (fieldFits e.type) = true)
    (hcovered : d.produces.covers e.type = true) : e.Rests d known where
  refers := by
    intro m hm
    rw [hrelations] at hm
    exact (List.of_mem_zip hm).2
  fits := by
    intro m hm
    rw [← htypes, List.zip_map_right, List.all_map, ← hrelations] at hfits
    have hfield := List.all_eq_true.1 hfits m hm
    simp only [Function.comp_apply, fieldFits, Prod.map_fst, Prod.map_snd, id_eq] at hfield
    cases hfind : Relation.find? e.type m.1 with
    | none => simp [hfind] at hfield
    | some rel => exact ⟨rel, rfl, by simpa [hfind] using hfield⟩
  covered := hcovered

theorem selfContained_nil : SelfContained d network [] :=
  fun _ h => absurd h List.not_mem_nil

theorem SelfContained.append (h : SelfContained d network es) (h' : SelfContained d network es') :
    SelfContained d network (es ++ es') := by
  intro e he
  rcases List.mem_append.1 he with he | he
  · exact (h e he).among (List.subset_append_left _ _)
  · exact (h' e he).among (List.subset_append_right _ _)

theorem SelfContained.flatMap {α : Type} {f : α → List Entity} {l : List α}
    (h : ∀ a ∈ l, SelfContained d network (f a)) : SelfContained d network (l.flatMap f) := by
  induction l with
  | nil => exact selfContained_nil
  | cons a l ih =>
    rw [List.flatMap_cons]
    exact (h a List.mem_cons_self).append (ih (fun b hb => h b (List.mem_cons_of_mem _ hb)))

/-- An entity that lies on the network and refers to nothing else. -/
theorem selfContained_singleton (hnetwork : network.type = .network)
    (hrelations : e.relations = [("network", network)])
    (hfits : fieldFits e.type ("network", .network) = true)
    (hcovered : d.produces.covers e.type = true) : SelfContained d network [e] := by
  have htypes : [network].map Reference.type = [.network] := by rw [List.map_singleton, hnetwork]
  have hrests : e.Rests d [network] :=
    Entity.rests_of_zip ["network"] htypes hrelations (by simpa using hfits) hcovered
  refine List.forall_mem_singleton.2 (hrests.mono ?_)
  exact List.cons_subset_cons _ (List.nil_subset _)

/-- An entity that refers, by fields of some names, to each of the entities before it. -/
theorem SelfContained.concat (h : SelfContained d network es) (names : List String)
    (hrelations : e.relations = names.zip (es.map Entity.reference))
    (hfits : (names.zip (es.map Entity.type)).all (fieldFits e.type) = true)
    (hcovered : d.produces.covers e.type = true) : SelfContained d network (es ++ [e]) := by
  have htypes : (es.map Entity.reference).map Reference.type = es.map Entity.type := by
    rw [List.map_map]
    exact List.map_congr_left (fun e _ => e.reference_type)
  have hrests := Entity.rests_of_zip names htypes hrelations hfits hcovered
  intro e' he'
  rcases List.mem_append.1 he' with he' | he'
  · exact (h e' he').among (List.subset_append_left _ _)
  · rw [List.mem_singleton.1 he']
    refine hrests.mono (List.Subset.trans (List.map_subset _ ?_) (List.subset_cons_self _ _))
    exact List.subset_append_left _ _

theorem SelfContained.closed_keep (h : SelfContained d network es) (input : Reference) :
    Closed network input (d.keep input (es.map Snapshot.ofEntity)) := by
  have hmem : ∀ o ∈ d.keep input (es.map Snapshot.ofEntity),
      o.entity ∈ es ∧ o.reference ≠ input := by
    intro o ho
    obtain ⟨hout, hkeep⟩ := List.mem_filter.1 ((distinctBy_sublist _ _).subset ho)
    obtain ⟨e, he, rfl⟩ := List.mem_map.1 hout
    exact ⟨he, of_decide_eq_true (Bool.and_eq_true_iff.1 hkeep).1⟩
  -- what is dropped is the input, or its reference is kept
  have hkept : ∀ e ∈ es, e.reference ≠ input →
      ∃ p ∈ d.keep input (es.map Snapshot.ofEntity), p.reference = e.reference := by
    intro e he hne
    refine exists_mem_distinctBy Snapshot.reference (a := Snapshot.ofEntity e)
      (List.mem_filter.2 ⟨List.mem_map_of_mem he, ?_⟩)
    exact Bool.and_eq_true_iff.2 ⟨decide_eq_true hne, (h e he).covered⟩
  refine ⟨fun o ho m hm => ?_, fun o ho => (h _ (hmem o ho).1).fits,
    fun o ho => (hmem o ho).2, nodup_map_distinctBy _ _⟩
  rcases List.mem_cons.1 ((h _ (hmem o ho).1).refers m hm) with hnetwork | htarget
  · exact .inl hnetwork
  · obtain ⟨e, he, hreference⟩ := List.mem_map.1 htarget
    by_cases hinput : e.reference = input
    · exact .inr (.inl (hreference.symm.trans hinput))
    · obtain ⟨p, hp, hsame⟩ := hkept e he hinput
      exact .inr (.inr ⟨p, hp, hsame.trans hreference⟩)

end SelfContained

/-! ## Objects of records -/

namespace Dns

open Builtin

section Records

variable {network : Reference}

/-- Whatever a record says, the objects that it stands for are self-contained. -/
theorem selfContained_entities (hnetwork : network.type = .network) (r : ResourceRecord) :
    SelfContained dnsNormalizerDefinition network (r.entities network) := by
  have hhost : ∀ name, SelfContained dnsNormalizerDefinition network [host network name] :=
    fun name => selfContained_singleton hnetwork rfl rfl rfl
  unfold ResourceRecord.entities
  cases hdata : r.data with
  | a x =>
    have hip : SelfContained dnsNormalizerDefinition network [.ipv4 network x] :=
      selfContained_singleton hnetwork rfl rfl rfl
    exact ((hhost r.name).append hip).concat ["hostname", "address"] rfl rfl rfl
  | aaaa x =>
    have hip : SelfContained dnsNormalizerDefinition network [.ipv6 network x] :=
      selfContained_singleton hnetwork rfl rfl rfl
    exact ((hhost r.name).append hip).concat ["hostname", "address"] rfl rfl rfl
  | ns =>
    exact ((hhost r.name).append (hhost r.value)).concat ["hostname", "name_server_hostname"]
      rfl rfl rfl
  | mx preference exchange =>
    dsimp only
    split
    · exact (hhost r.name).concat ["hostname"] rfl rfl rfl
    · exact ((hhost r.name).append (hhost exchange)).concat ["hostname", "mail_hostname"]
        rfl rfl rfl
  | txt => exact (hhost r.name).concat ["hostname"] rfl rfl rfl

end Records

/-! ## Runs of the normalizer -/

section Runs

variable {network : Reference} {name : String} {evidence : List UInt8}

theorem selfContained_dnsObjects (hnetwork : network.type = .network) {es : List Entity}
    (h : dnsObjects network name evidence = .ok es) :
    SelfContained dnsNormalizerDefinition network es := by
  unfold dnsObjects at h
  split at h
  · cases h
    exact selfContained_nil
  · split at h
    · cases h
    · split at h
      · cases h
      · rename_i records hrecords
        cases h
        have hinput : SelfContained dnsNormalizerDefinition network [.hostname network name] :=
          selfContained_singleton hnetwork rfl rfl rfl
        exact hinput.append (.flatMap (fun r _ => selfContained_entities hnetwork r))

theorem dnsObjects_of_malformed (network : Reference) (name : String) {answer : Answer}
    (hanswer : Answer.ofOctets? evidence = some answer)
    (h : ∃ line ∈ answer.records.toList.splitOn '\n', ∃ fault, Malformed line fault) :
    ∃ line ∈ answer.records.toList.splitOn '\n', ∃ fault, Malformed line fault ∧
      dnsObjects network name evidence = .error (.malformedInput (fault.message ++ ": "
        ++ Text.quoted (String.ofList (Text.trimWhere Text.isBlank line)))) := by
  obtain ⟨line, hline, fault, hmalformed, herror⟩ := ofLines_of_malformed h
  refine ⟨line, hline, fault, hmalformed, ?_⟩
  have hname : ¬ Text.trimWhere Text.isAsciiBlank evidence = noSuchName := by
    intro hname
    rw [Answer.ofOctets?_noSuchName hname] at hanswer
    cases hanswer
  unfold dnsObjects ofText
  rw [if_neg hname, hanswer]
  simp only [herror]

variable {j : NormalizeJob} {r : Registry} {input : Snapshot}

/-- A run of the normalizer on a host comes to what the evidence stands for. -/
theorem run_eq_conclude (hplugin : r.normalizers.get? j.normalizer.id
      = some ⟨dnsNormalizerDefinition, dnsNormalize⟩)
    (hsnapshot : j.scan.snapshot = .ok input) (hinput : input.entity = .hostname network name)
    (evidence : List UInt8) (started ended : Instant) :
    j.run r evidence started ended
      = { j with life := j.life.start started }.conclude dnsNormalizerDefinition input.reference
          ended (match dnsObjects network name evidence with
            | .ok es => .returned (es.map Snapshot.ofEntity)
            | .error e => .failed e) := by
  unfold NormalizeJob.run
  simp only [hplugin, hsnapshot]
  unfold dnsNormalize
  cases hobjects : dnsObjects network name evidence with
  | error e => simp only [hinput, hobjects]
  | ok es => simp only [hinput, hobjects]

/-- Whatever the evidence of a host on a network is, the objects that the normalizer returns are
closed.  One line that is no record leaves no objects, and completes the job with an error that
quotes such a line. -/
theorem normalized_closed (hplugin : r.normalizers.get? j.normalizer.id
      = some ⟨dnsNormalizerDefinition, dnsNormalize⟩)
    (hsnapshot : j.scan.snapshot = .ok input) (hinput : input.entity = .hostname network name)
    (hnetwork : network.type = .network) (evidence : List UInt8) (started ended : Instant) :
    (∀ objects, (j.run r evidence started ended).2 = .ok objects →
      Closed network input.reference objects) ∧
    ∀ answer, Answer.ofOctets? evidence = some answer →
      (∃ line ∈ answer.records.toList.splitOn '\n', ∃ fault, Malformed line fault) →
      ∃ line ∈ answer.records.toList.splitOn '\n', ∃ fault, Malformed line fault ∧
        (j.run r evidence started ended).1.life
          = ⟨.completed, some started, some ended, some (fault.message ++ ": "
              ++ Text.quoted (String.ofList (Text.trimWhere Text.isBlank line)))⟩ ∧
        (j.run r evidence started ended).2 = .ok [] := by
  rw [run_eq_conclude hplugin hsnapshot hinput]
  refine ⟨fun objects hobjects => ?_, fun answer hanswer hmalformed => ?_⟩
  · cases hes : dnsObjects network name evidence with
    | ok es =>
      rw [hes] at hobjects
      cases hobjects
      exact (selfContained_dnsObjects hnetwork hes).closed_keep input.reference
    | error e =>
      rw [hes] at hobjects
      cases e with
      | malformedInput m =>
        cases hobjects
        exact selfContained_nil.closed_keep (d := dnsNormalizerDefinition) input.reference
      | _ => cases hobjects
  · obtain ⟨line, hline, fault, hfault, herror⟩ :=
      dnsObjects_of_malformed network name hanswer hmalformed
    refine ⟨line, hline, fault, hfault, ?_⟩
    rw [herror]
    exact ⟨rfl, rfl⟩

/-! ## Records of several types -/

namespace Zone

def host : Snapshot :=
  .ofEntity (.hostname (Entity.network "internet").reference "a.example")

theorem entity_host :
    host.entity = .hostname (Entity.network "internet").reference "a.example" :=
  rfl

/-- A job that reads what a scan of the host found. -/
def job : NormalizeJob :=
  .ofScan default (.ofSnapshot default ⟨dnsRecords, none⟩ host "acme") ⟨dnsNormalizer, none⟩

theorem snapshot_job : job.scan.snapshot = .ok host :=
  rfl

/-- The plugins at hand, with no names to look up. -/
def registry : Registry :=
  (addAll (fun _ => .error .unknownName) .empty).registry

/-- A comment, records of the host and of its mail server, and a null record. -/
def lines : List String :=
  ["; a zone", "a.example 60 IN MX 10 b.example.", "b.example 60 IN A 192.0.2.1",
    "a.example 60 IN MX 0 ."]

def spoiled : String :=
  "a.example 60 IN A 192.0"

theorem malformed_spoiled : Malformed spoiled.toList .badV4 :=
  ofLine_eq_error_iff.1 (by decide +kernel)

/-- The run of the job on an answer of some lines. -/
def result (lines : List String) : NormalizeJob × Except PipelineError (List Snapshot) :=
  job.run registry (Answer.mk (Text.join "\n" lines)).octets default default

theorem length_result : (result lines).2.toOption.map List.length = some 5 := by
  have hrun := run_eq_conclude (r := registry) (j := job) rfl snapshot_job entity_host
    (Answer.mk (Text.join "\n" lines)).octets default default
  unfold result
  rw [hrun, dnsObjects_octets]
  decide +kernel

/-- The lines give five objects, and with one more that is no record they give none. -/
theorem normalized_closed_zone :
    (∃ objects, (result lines).2 = .ok objects ∧ objects.length = 5 ∧
      Closed (Entity.network "internet").reference host.reference objects) ∧
    ∃ message, (result (lines ++ [spoiled])).1.life
        = ⟨.completed, some default, some default, some message⟩ ∧
      (result (lines ++ [spoiled])).2 = .ok [] := by
  have hclosed (lines : List String) := normalized_closed (r := registry) (j := job) rfl
    snapshot_job entity_host rfl (Answer.mk (Text.join "\n" lines)).octets default default
  constructor
  · cases hresult : (result lines).2 with
    | error e =>
      have hlength := length_result
      rw [hresult] at hlength
      cases hlength
    | ok objects =>
      have hlength := length_result
      rw [hresult] at hlength
      exact ⟨objects, rfl, Option.some.inj hlength, (hclosed lines).1 objects hresult⟩
  · have hspoiled : spoiled.toList
        ∈ (Text.join "\n" (lines ++ [spoiled])).toList.splitOn '\n' := by
      decide +kernel
    obtain ⟨line, -, fault, -, hlife, hnone⟩ := (hclosed (lines ++ [spoiled])).2 _
      (Answer.ofOctets?_octets _) ⟨_, hspoiled, _, malformed_spoiled⟩
    exact ⟨_, hlife, hnone⟩

end Zone

end Runs

end Dns

end ScanGraph
