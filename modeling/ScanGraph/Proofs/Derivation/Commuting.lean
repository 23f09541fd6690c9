/-
Conclusions of the rules at hand, in either order.

Nothing says in which order the conclusions of two rules, or of one rule about
two roots, are saved.  It does not matter: `conclusions_commute`.  A rule at hand
states links and reports.  A link has no field but those of its key, and what a
report says of an object is fixed by the root and by the class that its finding
type names.

The keys of links have to tell them apart, and the address of a port has to be
one.  A report on an address that takes the place of those on its ports names one
of these, so that for several ports there is a last word: `conclusions_collide`.

## What is asked

`Proper` and `Concordant` are what the three runs of `conclusions_collide` show to be
necessary: the references of a link are told apart by its key, the address of a port is
an address, and no two ports of one address are reported on that address.  The first
holds where names have no bar, the second where fields point at what the schema says;
the third depends on the settings of a rule, and fails for every address with two such
ports.

## What is proved and what is not

Both orders are taken by the store, and every reference that is visible after one of
them is visible after the other with the same object and the same profile
(`Store.Commute`).  The conclusions are those of the rules at hand: for a rule that
somebody else registers nothing is said, and it may well depend on the order.  Nor is
anything said about what the second rule would conclude from what the first one saved;
both conclusions are drawn before either is saved.
-/
import ScanGraph.Proofs.Clearance.Implied
import ScanGraph.Proofs.Derivation.Resolving
import ScanGraph.Proofs.Entity.Identity
import ScanGraph.Proofs.Store.Commuting

namespace ScanGraph

/-! ## Links and reports by their references -/

/-- References under one name agree only if they are the same, unless they are to types of
findings. -/
theorem KeyField.Agrees.eq_of_inlined {name : String} {r r' : Reference}
    (h : KeyField.Agrees (.inlined name r) (.inlined name r')) (hname : name ≠ "finding_type") :
    r = r' := by
  rcases h with h | ⟨_, _, h, -⟩
  · exact (KeyField.inlined.inj h).2
  · exact absurd (KeyField.inlined.inj h).1 hname

theorem Entity.Keyed.eq_of_link {host host' address address' : Reference}
    (h : (resolvedHostname host address).Keyed) (h' : (resolvedHostname host' address').Keyed)
    (href : (resolvedHostname host address).reference
      = (resolvedHostname host' address').reference) :
    resolvedHostname host address = resolvedHostname host' address' := by
  cases h.agrees h' href with
  | cons hhost hrest =>
    cases hrest with
    | cons haddress _ =>
      rw [hhost.eq_of_inlined (by decide), haddress.eq_of_inlined (by decide)]

/-- A profile that a source implies is none, or inherited above the lowest level. -/
theorem ClearanceGraph.weak_implied (levels : Levels) (r : Reference) :
    (implied levels r).Weak := by
  unfold implied
  split
  · split
    · rename_i hl
      exact .inr ⟨rfl, hl⟩
    · exact .inl rfl
  · exact .inl rfl

namespace Builtin

def found (id : String) (subject : Reference) (description : String) : Entity :=
  .finding (findingType id).reference subject none (some description) none

section Found

variable {id id' description description' : String} {subject subject' : Reference}

theorem naturalKey_findingType (id : String) : (findingType id).reference.naturalKey = id := by
  rw [Entity.naturalKey_reference]
  exact Reference.join_singleton id

theorem eq_of_found_reference (hid : Reference.bars id = Reference.bars id')
    (h : (found id subject description).reference = (found id' subject' description').reference) :
    id = id' ∧ subject = subject' := by
  have hkey : Text.join "|" [subject.text, id] = Text.join "|" [subject'.text, id'] := by
    have hnatural := congrArg Reference.naturalKey h
    rw [Entity.naturalKey_reference, Entity.naturalKey_reference] at hnatural
    simpa [found, Entity.keyTokens, naturalKey_findingType] using hnatural
  obtain ⟨hsubject, hrest⟩ := Reference.join_inj (by simp [hid]) hkey
  exact ⟨List.singleton_inj.1 hrest, Reference.text_injective hsubject⟩

theorem PortClass.eq_of_findingId {a b : PortClass} (h : a.findingId = b.findingId) : a = b := by
  revert h
  cases a <;> cases b <;> decide

end Found

/-! ## Conclusions -/

structure Conclusion where
  rule : RegisteredRule
  root : Snapshot
  context : RuleContext
  settings : RuleSettings
  output : List Snapshot

namespace Conclusion

variable {s : Store} {t : Instant} {c d : Conclusion}

/-- A rule at hand makes this of a root that is visible at `t`. -/
structure Drawn (s : Store) (t : Instant) (c : Conclusion) : Prop where
  rule : c.rule ∈ rules
  root : s.read? c.root.reference t = some c.root
  output : c.rule.body c.root c.context c.settings = .returned c.output

/-- A port is reported on its address. -/
structure Aggregated (c : Conclusion) (address : Reference) (number : UInt16) : Prop where
  rule : c.rule.id = portClassification
  settings : aggregates c.settings = true
  output : c.output ≠ []
  root : ∃ protocol state, c.root.entity = .ipPort address protocol number state

/-- Links are told apart by their keys, and a port is one of an address. -/
structure Proper (c : Conclusion) : Prop where
  links : ∀ o ∈ c.output, o.type = .resolvedHostname → o.entity.Keyed
  address : ∀ {address protocol number state},
    c.root.entity = .ipPort address protocol number state → address.type.isA .ipAddress = true

/-- No two ports of one address are reported on it. -/
def Concordant (c d : Conclusion) : Prop :=
  ∀ address number number', c.Aggregated address number → d.Aggregated address number' →
    number = number'

/-- What a conclusion says of an object under the id of a finding type. -/
inductive Reports (c : Conclusion) : String → Reference → String → Prop
  | nameserver : c.Reports "KAT-NAMESERVER-NO-IPV6" c.root.reference
      "This nameserver has no IPv6 address."
  | port {address protocol number state} (k : PortClass)
      (root : c.root.entity = .ipPort address protocol number state) :
      c.Reports k.findingId c.root.reference
        ("Port " ++ Text.decimalText number.toNat ++ "/" ++ protocol.name ++ k.verdict)
  | address {address number} (aggregated : c.Aggregated address number) :
      c.Reports PortClass.uncommon.findingId address
        ("Ports " ++ Text.decimalText number.toNat
          ++ " are not common ports and should possibly not be open.")

/-- The objects of a conclusion: links, and the types and findings of reports. -/
inductive States (c : Conclusion) : Entity → Prop
  | link {address} (mem : .ofEntity (.resolvedHostname c.root.reference address) ∈ c.output) :
      c.States (.resolvedHostname c.root.reference address)
  | type {id subject description} (reports : c.Reports id subject description) :
      c.States (findingType id)
  | finding {id subject description} (reports : c.Reports id subject description) :
      c.States (found id subject description)

/-! ### What the rules at hand state -/

section Output

theorem states_of_report {id description : String} {subject : Reference}
    (hreports : c.Reports id subject description) {o : Snapshot}
    (ho : o ∈ report id subject description) : ∃ e, o = .ofEntity e ∧ c.States e := by
  rcases List.mem_cons.1 ho with rfl | ho
  · exact ⟨_, rfl, .type hreports⟩
  · exact ⟨_, List.mem_singleton.1 ho, .finding hreports⟩

theorem states_of_resolving (h : resolving c.root c.context c.settings = .returned c.output)
    {o : Snapshot} (ho : o ∈ c.output) : ∃ e, o = .ofEntity e ∧ c.States e := by
  unfold resolving at h
  split at h
  · have houtput := (Outcome.returned.inj h).symm
    obtain ⟨address, -, rfl⟩ := List.mem_map.1 (houtput ▸ ho)
    exact ⟨_, rfl, .link ho⟩
  · cases h

theorem states_of_nameserver
    (h : nameserverIpv6 c.root c.context c.settings = .returned c.output) {o : Snapshot}
    (ho : o ∈ c.output) : ∃ e, o = .ofEntity e ∧ c.States e := by
  unfold nameserverIpv6 at h
  split at h <;> rw [← Outcome.returned.inj h] at ho
  · cases ho
  · exact states_of_report .nameserver ho

theorem states_of_port (hrule : c.rule.id = portClassification)
    (h : classifyPort c.root c.context c.settings = .returned c.output) {o : Snapshot}
    (ho : o ∈ c.output) : ∃ e, o = .ofEntity e ∧ c.States e := by
  unfold classifyPort at h
  split at h
  · rename_i address protocol number state hroot
    split at h
    · rw [← Outcome.returned.inj h] at ho
      cases ho
    · split at h
      · cases h
      · split at h
        · rw [← Outcome.returned.inj h] at ho
          cases ho
        · rename_i k _
          have hreport := ho
          rw [← Outcome.returned.inj h, portReport] at hreport
          split at hreport
          · rename_i hsettings
            exact states_of_report (.address ⟨hrule, hsettings, List.ne_nil_of_mem ho,
              protocol, state, hroot⟩) hreport
          · exact states_of_report (.port k hroot) hreport
  · cases h

theorem Drawn.states (hc : c.Drawn s t) {o : Snapshot} (ho : o ∈ c.output) :
    ∃ e, o = .ofEntity e ∧ c.States e := by
  have hrule := hc.rule
  have houtput := hc.output
  simp only [rules, List.mem_cons, List.not_mem_nil, or_false] at hrule
  rcases hrule with hrule | hrule | hrule <;> rw [hrule] at houtput
  · exact states_of_resolving houtput ho
  · exact states_of_nameserver houtput ho
  · exact states_of_port (by rw [hrule]; rfl) houtput ho

end Output

/-! ### What two conclusions say of one object -/

section Agree

variable {id id' description description' : String} {subject subject' : Reference}

theorem Reports.bars (h : c.Reports id subject description) : Reference.bars id = 0 := by
  cases h with
  | nameserver => decide
  | port k => cases k <;> decide
  | address => decide

theorem Drawn.root_eq (hc : c.Drawn s t) (hd : d.Drawn s t)
    (h : c.root.reference = d.root.reference) : c.root = d.root := by
  have hread := hc.root
  rw [h, hd.root] at hread
  exact (Option.some.inj hread).symm

theorem Aggregated.ne_reference {address : Reference} {number : UInt16}
    (h : d.Aggregated address number) (hd : d.Proper) {o : Snapshot} (ho : o.type = .ipPort) :
    o.reference ≠ address := by
  obtain ⟨_, _, hroot⟩ := h.root
  have haddress := hd.address hroot
  rintro rfl
  rw [Snapshot.reference, Entity.reference_type, ← Snapshot.type, ho] at haddress
  exact absurd haddress (by decide)

theorem Reports.description_eq (hc : c.Drawn s t) (hd : d.Drawn s t) (hcp : c.Proper)
    (hdp : d.Proper) (hnumbers : c.Concordant d) (h : c.Reports id subject description)
    (h' : d.Reports id' subject' description') (hid : id = id') (hsubject : subject = subject') :
    description = description' := by
  cases h with
  | nameserver =>
    cases h' with
    | nameserver => rfl
    | port k => cases k <;> exact absurd hid (by decide)
    | address => exact absurd hid (by decide)
  | port k hroot =>
    cases h' with
    | nameserver => cases k <;> exact absurd hid (by decide)
    | port k' hroot' =>
      rw [← hc.root_eq hd hsubject, hroot] at hroot'
      cases hroot'
      rw [PortClass.eq_of_findingId hid]
    | address haggregated =>
      have htype : c.root.type = .ipPort := by
        rw [Snapshot.type, hroot]
        rfl
      exact absurd hsubject (haggregated.ne_reference hdp htype)
  | address haggregated =>
    cases h' with
    | nameserver => exact absurd hid (by decide)
    | port k' hroot' =>
      have htype : d.root.type = .ipPort := by
        rw [Snapshot.type, hroot']
        rfl
      exact absurd hsubject.symm (haggregated.ne_reference hcp htype)
    | address haggregated' =>
      subst hsubject
      rw [hnumbers _ _ _ haggregated haggregated']

/-- Objects of two conclusions that have one reference are the same. -/
theorem States.entity_eq (hc : c.Drawn s t) (hd : d.Drawn s t) (hcp : c.Proper) (hdp : d.Proper)
    (hnumbers : c.Concordant d) {e e' : Entity} (h : c.States e) (h' : d.States e')
    (href : e.reference = e'.reference) : e = e' := by
  have htype : e.type = e'.type := Entity.type_eq_of_reference href
  cases h with
  | link hmem =>
    cases h' with
    | link hmem' => exact (hcp.links _ hmem rfl).eq_of_link (hdp.links _ hmem' rfl) href
    | type => cases htype
    | finding => cases htype
  | @type id =>
    cases h' with
    | link => cases htype
    | @type id' =>
      have hid : id = id' := by
        rw [← naturalKey_findingType id, href, naturalKey_findingType]
      rw [hid]
    | finding => cases htype
  | finding hreports =>
    cases h' with
    | link => cases htype
    | type => cases htype
    | finding hreports' =>
      obtain ⟨hid, hsubject⟩ :=
        eq_of_found_reference (hreports.bars.trans hreports'.bars.symm) href
      have hdescription :=
        hreports.description_eq hc hd hcp hdp hnumbers hreports' hid hsubject
      rw [hid, hsubject, hdescription]

theorem agree (hc : c.Drawn s t) (hd : d.Drawn s t) (hcp : c.Proper) (hdp : d.Proper)
    (hnumbers : c.Concordant d) : Snapshot.Agree c.output d.output := by
  intro o ho o' ho' href
  obtain ⟨e, rfl, he⟩ := hc.states ho
  obtain ⟨e', rfl, he'⟩ := hd.states ho'
  exact he.entity_eq hc hd hcp hdp hnumbers he' href

theorem concordant_self (c : Conclusion) : c.Concordant c := by
  intro address number number' h h'
  obtain ⟨_, _, hroot⟩ := h.root
  obtain ⟨_, _, hroot'⟩ := h'.root
  rw [hroot] at hroot'
  cases hroot'
  rfl

end Agree

/-! ### Saving conclusions -/

/-- An observation of a conclusion on its root, as it is or with the clearance that the root
implies. -/
structure SavedAs (t : Instant) (c : Conclusion) (o : Observation) : Prop where
  source : o.source = c.root.reference
  validTime : o.validTime = t
  result : o.result = c.output ∨ o.result = c.root.imply c.output

section Saved

variable {a b o : Observation} {x : Snapshot}

/-- What is saved are the objects of the conclusion, with weak profiles. -/
theorem SavedAs.exists_output (h : c.SavedAs t o) (hc : c.Drawn s t) (hx : x ∈ o.result) :
    (∃ x' ∈ c.output, x.entity = x'.entity) ∧ (x.profile.getD (.empty x.reference)).Weak := by
  have hplain : ∀ x ∈ c.output, (x.profile.getD (.empty x.reference)).Weak := by
    intro x hx
    obtain ⟨e, rfl, -⟩ := hc.states hx
    exact Profile.weak_empty _
  rcases h.result with hresult | hresult <;> rw [hresult] at hx
  · exact ⟨⟨x, hx, rfl⟩, hplain x hx⟩
  · obtain ⟨x', hx', hentity, hown, hother⟩ := Snapshot.mem_imply hx
    refine ⟨⟨x', hx', hentity⟩, ?_⟩
    by_cases hr : x'.reference = c.root.reference
    · exact hown hr ▸ hplain x' hx'
    · rw [hother hr]
      exact ClearanceGraph.weak_implied _ _

theorem SavedAs.agree (ha : c.SavedAs t a) (hb : d.SavedAs t b) (hc : c.Drawn s t)
    (hd : d.Drawn s t) (h : Snapshot.Agree c.output d.output) :
    Snapshot.Agree a.result b.result := by
  intro x hx y hy href
  obtain ⟨⟨x', hx', hxe⟩, -⟩ := ha.exists_output hc hx
  obtain ⟨⟨y', hy', hye⟩, -⟩ := hb.exists_output hd hy
  rw [Snapshot.reference, Snapshot.reference, hxe, hye] at href
  rw [hxe, hye, h x' hx' y' hy' href]

theorem SavedAs.known (h : c.SavedAs t o) (hc : c.Drawn s t) : s.Known o.validTime o.source := by
  obtain ⟨e, he, -⟩ := Option.map_eq_some_iff.1 hc.root
  rw [h.source, h.validTime]
  exact ⟨e, he⟩

/-- Conclusions of the rules at hand about visible roots can be saved in either order, and in the
end the same is visible. -/
theorem conclusions_commute (hs : s.Reachable) (honline : s.offline = false) (hc : c.Drawn s t)
    (hd : d.Drawn s t) (hcp : c.Proper) (hdp : d.Proper) (hnumbers : c.Concordant d)
    (ha : c.SavedAs t a) (hb : d.SavedAs t b) : s.Commute a b := by
  refine Store.observations_commute hs.wellFormed honline
    (ha.validTime.trans hb.validTime.symm) (ha.known hc) (hb.known hd) ?_ ?_
  · have hcc := ha.agree ha hc hc (agree hc hc hcp hcp c.concordant_self)
    have hcd := ha.agree hb hc hd (agree hc hd hcp hdp hnumbers)
    have hdd := hb.agree hb hd hd (agree hd hd hdp hdp d.concordant_self)
    exact hcc.append hcd hdd
  · intro x hx
    rcases List.mem_append.1 hx with hx | hx
    · exact (ha.exists_output hc hx).2
    · exact (hb.exists_output hd hx).2

namespace Colliding

def time : Instant :=
  .ofSecond 100

/-- What a rule makes of a root in the context that the store gives it. -/
def concluded (s : Store) (rule : RegisteredRule) (root : Entity) (settings : RuleSettings) :
    Conclusion :=
  let root := s.snapshot time root.reference root
  let context :=
    match resolveContext s root.reference time rule.definition.parameters with
    | .ok (.ready context) => context
    | _ => []
  { rule, root, context, settings
    output :=
      match rule.body root context settings with
      | .returned output => output
      | _ => [] }

def observed (c : Conclusion) : Observation :=
  ⟨c.rule.id, c.root.reference, none, time, c.output⟩

/-- Conclusions, drawn in the contexts that the store gives, that do not commute. -/
structure Collide (s : Store) (c d : Conclusion) : Prop where
  reachable : s.Reachable
  online : s.offline = false
  drawn : c.Drawn s time ∧ d.Drawn s time
  resolved : ∀ x ∈ [c, d],
    resolveContext s x.root.reference time x.rule.definition.parameters = .ok (.ready x.context)
  saved : c.SavedAs time (observed c) ∧ d.SavedAs time (observed d)
  apart : ¬ s.Commute (observed c) (observed d)

def address (network : Entity) : Entity :=
  .ipv4 network.reference ⟨192, 0, 2, 1⟩

def host (network : Entity) (name : String) : Entity :=
  .hostname network.reference name

/-- The record of a host and an address. -/
def record (host address : Entity) : Entity :=
  .dnsA host.reference "192.0.2.1" address.reference none

def port (holder : Entity) (number : UInt16) : Entity :=
  .ipPort holder.reference .tcp number none

def internet : Entity :=
  .network "internet"

/-- The settings under which ports are reported on their addresses. -/
def together : RuleSettings :=
  Table.empty.insert "aggregate_findings" "true"

theorem mem_resolvingRule : resolvingRule ∈ rules :=
  List.mem_cons_self

theorem mem_portRule : portRule ∈ rules :=
  List.mem_cons_of_mem _ (List.mem_cons_of_mem _ List.mem_cons_self)

theorem savedAs_observed (c : Conclusion) : c.SavedAs time (observed c) :=
  ⟨rfl, rfl, .inl rfl⟩

/-- Conclusions collide if they end with different objects of one reference. -/
theorem collide_of_last {es : List Entity} (e e' : Entity)
    (hc : c.Drawn (.holding es time) time) (hd : d.Drawn (.holding es time) time)
    (hresolved : ∀ x ∈ [c, d], resolveContext (.holding es time) x.root.reference time
      x.rule.definition.parameters = .ok (.ready x.context))
    (ha : (Store.entitiesOf e.reference c.output).getLast? = some e)
    (hb : (Store.entitiesOf e.reference d.output).getLast? = some e') (hne : e ≠ e') :
    Collide (.holding es time) c d :=
  { reachable := Store.reachable_holding es time
    online := Store.online_holding es time
    drawn := ⟨hc, hd⟩
    resolved := hresolved
    saved := ⟨savedAs_observed c, savedAs_observed d⟩
    apart := by
      intro h
      exact hne (h.last_eq (Store.reachable_holding es time).ordered rfl ha hb) }

def ports : Store :=
  .holding [internet, address internet, port (address internet) 2222,
    port (address internet) 3333] time

/-- The report on the address because of one of its ports. -/
def onAddress (number : UInt16) : Conclusion :=
  concluded ports portRule (port (address internet) number) together

/-- Of the ports of an address the report names the one that comes last. -/
theorem collide_ports : Collide ports (onAddress 2222) (onAddress 3333) := by
  refine collide_of_last
    (found PortClass.uncommon.findingId (address internet).reference
      "Ports 2222 are not common ports and should possibly not be open.")
    (found PortClass.uncommon.findingId (address internet).reference
      "Ports 3333 are not common ports and should possibly not be open.")
    ⟨mem_portRule, ?_, rfl⟩ ⟨mem_portRule, ?_, rfl⟩ ?_ ?_ ?_ ?_ <;> decide +kernel

/-- The address of the host "x" is in a network whose name begins with the last part of the name of
the other host. -/
def hosts : Store :=
  .holding [internet, .network "p|q", address (.network "p|q"), host internet "x",
    record (host internet "x") (address (.network "p|q")), .network "q", address (.network "q"),
    host internet "x|p", record (host internet "x|p") (address (.network "q"))] time

def linked (name : String) : Conclusion :=
  concluded hosts resolvingRule (host internet name) .empty

theorem collide_hosts : Collide hosts (linked "x") (linked "x|p") := by
  refine collide_of_last
    (.resolvedHostname (host internet "x").reference (address (.network "p|q")).reference)
    (.resolvedHostname (host internet "x|p").reference (address (.network "q")).reference)
    ⟨mem_resolvingRule, ?_, ?_⟩ ⟨mem_resolvingRule, ?_, ?_⟩ ?_ ?_ ?_ ?_ 
  case refine_2 => rfl
  case refine_4 => rfl
  all_goals decide +kernel

/-- A port, and one that has it in the place of an address. -/
def nested : Store :=
  .holding [internet, address internet, port (address internet) 2222,
    port (port (address internet) 2222) 3333] time

/-- A report on a port and one on what stands in the place of an address can be on the same. -/
theorem collide_nested :
    Collide nested (concluded nested portRule (port (address internet) 2222) .empty)
      (concluded nested portRule (port (port (address internet) 2222) 3333) together) := by
  refine collide_of_last
    (found PortClass.uncommon.findingId (port (address internet) 2222).reference
      "Port 2222/tcp is not a common port and should possibly not be open.")
    (found PortClass.uncommon.findingId (port (address internet) 2222).reference
      "Ports 3333 are not common ports and should possibly not be open.")
    ⟨mem_portRule, ?_, rfl⟩ ⟨mem_portRule, ?_, rfl⟩ ?_ ?_ ?_ ?_ <;> decide +kernel

/-- Where reports on an address stand for several ports, where keys do not tell links apart, and
where the address of a port is none, what was saved last stays. -/
theorem conclusions_collide :
    Collide ports (onAddress 2222) (onAddress 3333) ∧
      Collide hosts (linked "x") (linked "x|p") ∧
      Collide nested (concluded nested portRule (port (address internet) 2222) .empty)
        (concluded nested portRule (port (port (address internet) 2222) 3333) together) :=
  ⟨collide_ports, collide_hosts, collide_nested⟩

/-! ### Two conclusions that commute -/

/-- A host with its address, and a port of that. -/
def plain : Store :=
  .holding [internet, address internet, host internet "example.com",
    record (host internet "example.com") (address internet), port (address internet) 2222] time

def resolved : Conclusion :=
  concluded plain resolvingRule (host internet "example.com") .empty

/-- The report on the address because of its port. -/
def reported : Conclusion :=
  concluded plain portRule (port (address internet) 2222) together

/-- The observation of a conclusion, with the clearance that the root implies. -/
def implied (c : Conclusion) : Observation :=
  { observed c with result := c.root.imply c.output }

/-- Objects of the network are keyed if their own texts have no bar. -/
theorem keyed_of_internet {e : Entity} (hlinks : e.keyLinks = [("network", internet.reference)])
    (htexts : ∀ s ∈ e.keyTexts, Reference.separator ∉ s.toList)
    (hallowed : ∀ rel ∈ Relation.find? e.type "network", rel.target = .network) : e.Keyed := by
  refine .intro (fun _ => internet) htexts ?_ ?_ ?_ <;> rw [hlinks, List.forall_mem_singleton]
  · intro rel hrel
    rw [hallowed rel hrel]
    rfl
  · exact Entity.Homonym.keyed_of_no_links rfl (by decide +kernel)

theorem keyed_link :
    (Entity.resolvedHostname (host internet "example.com").reference
      (address internet).reference).Keyed := by
  have hhost : (host internet "example.com").Keyed :=
    keyed_of_internet rfl (by decide +kernel) (by decide +kernel)
  have haddress : (address internet).Keyed :=
    keyed_of_internet rfl (by decide +kernel) (by decide +kernel)
  exact .intro (fun r => if r.type = .hostname then host internet "example.com"
    else address internet) (by decide +kernel) (by decide +kernel) (by decide +kernel)
    (List.forall_mem_cons.2 ⟨hhost, List.forall_mem_singleton.2 haddress⟩)

theorem conclusions_commute_plain :
    plain.Reachable ∧ resolved.Drawn plain time ∧ reported.Drawn plain time ∧ resolved.Proper ∧
      reported.Proper ∧ resolved.Concordant reported ∧
      plain.Commute (observed resolved) (implied reported) := by
  have hlink : resolved.Drawn plain time := ⟨mem_resolvingRule, by decide +kernel, rfl⟩
  have hreport : reported.Drawn plain time := ⟨mem_portRule, by decide +kernel, rfl⟩
  have hlinkProper : resolved.Proper := by
    refine ⟨?_, nofun⟩
    have houtput : resolved.output = [.ofEntity (.resolvedHostname
        (host internet "example.com").reference (address internet).reference)] := by
      decide +kernel
    rw [houtput, List.forall_mem_singleton]
    intro _
    exact keyed_link
  have hreportProper : reported.Proper := by
    have hnone : ∀ o ∈ reported.output, o.type ≠ .resolvedHostname := by decide +kernel
    constructor
    · intro o ho htype
      exact absurd htype (hnone o ho)
    · intro _ _ _ _ h
      cases h
      rfl
  have hconcordant : resolved.Concordant reported := by
    intro _ _ _ h
    exact absurd h.rule (by decide)
  exact ⟨Store.reachable_holding _ _, hlink, hreport, hlinkProper, hreportProper, hconcordant,
    conclusions_commute (Store.reachable_holding _ _) (Store.online_holding _ _) hlink hreport
      hlinkProper hreportProper hconcordant (savedAs_observed resolved) ⟨rfl, rfl, .inr rfl⟩⟩

end Colliding

end Saved

end Conclusion

end Builtin

end ScanGraph
