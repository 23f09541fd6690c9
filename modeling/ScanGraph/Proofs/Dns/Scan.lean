/-
A scan of a host for its addresses, from the submission to the last job.

The scan and the normalizer each take one round.  Of the derive jobs for the
addresses and their records, the first one for a record commits the links, which
leads to one more derive job each; the others commit nothing.  So a host with `n`
addresses takes `2 + 3n` rounds: `scan_settles`.

## What is proved

A pipeline is `Prepared` if nothing but the host is stored, every service works, the
plugins are those at hand and its backend answers with the addresses.  A scan of the
host is then submitted without fail, and what the drain comes to depends on one thing:

* if the network of the host has a key, `2 + 3n` jobs are settled and none fails; the
  store holds the host, and for each address its object, its record and the link to it,
  the last two with the clearance that comes from the host (`Leaving`);
* if the key is empty, the one job fails, as no text denotes the reference of such a
  network, so that the object of the job cannot be read (`refusal`); nothing is stored,
  and the queue keeps what went wrong.

`scan_fails_unnamed` is a run of the second kind.  `Prepared` does not exclude it: a
network without a name is read, stored and declared like any other.

## What is asked, and what is not

The host's name is one that a line can begin with, no scans are scheduled automatically,
and rules may follow upon each other at least once.  Any budget that is large enough
leads to the same.  Which ids the jobs get and when each of them ends is left open, but
for the end of the scan, from which on the objects are there.
-/
import ScanGraph.Proofs.Dns.Jobs
import ScanGraph.Proofs.Entity.Decoding

namespace ScanGraph

namespace Survey

open ScanGraph.Action Dns Builtin Pipeline

/-! ## All rounds -/

section Rounds

variable {v : Survey} {r : Request} {j : ScanJob} {n : NormalizeJob} {p : Pipeline}

/-- The jobs for what the normalizer found concern no rule, or they lead to the links. -/
theorem idle_or_linking {correlation : Option Uuid} {new : List Request}
    (h : List.Forall₂ (IsDerive none correlation)
      (v.kept.map (fun o => .of .created o.reference v.scanned)) new) :
    ∀ r ∈ new, Idle r ∨ v.Linking r := by
  intro r hr
  obtain ⟨c, hc, id, t, rfl⟩ := exists_of_forall₂ h r hr
  obtain ⟨o, ho, rfl⟩ := List.mem_map.1 hc
  obtain ⟨x, hx, rfl | rfl⟩ := mem_kept_iff.1 ho
  · refine .inl ⟨_, rfl, ?_⟩
    rcases type_addressEntity v.network x with htype | htype
    · exact .inl ((Entity.reference_type _).trans htype)
    · exact .inr (.inl ((Entity.reference_type _).trans htype))
  · exact .inr ⟨_, x, rfl, hx, rfl, rfl, rfl⟩

theorem length_kept (v : Survey) : v.kept.length = 2 * v.addresses.length := by
  unfold kept
  induction v.addresses with
  | nil => rfl
  | cons x xs ih =>
    rw [List.flatMap_cons, List.length_append, ih, List.length_cons, List.length_cons,
      List.length_cons, List.length_nil]
    omega

theorem At.finishes_normalize (h : v.At [v.start] .normalize [r] p) (hv : v.Sound)
    (hjob : r.job = .normalize n) (hn : v.Reading n p.archive) (k : JobKind) :
    Finishes k p (1 + 3 * v.addresses.length) (v.At v.after .derive []) := by
  obtain ⟨queue, hdequeue, hp'⟩ := h.dequeue
  obtain ⟨q, new, hdispatch, hq, hnew⟩ := hp'.dispatch_normalize hv hjob hn
  have hlength : new.length = 2 * v.addresses.length := by
    rw [← hnew.length_eq, List.length_map, length_kept]
  rw [Nat.add_comm]
  refine .round h.ready hdequeue hdispatch (fun q' hdesk => ?_)
  have hq' : v.At v.before .derive new q' := hq.of_desk q.archive hdesk
  rcases haddresses : v.addresses with _ | ⟨x, xs⟩
  · rw [haddresses] at hlength
    obtain rfl := List.eq_nil_of_length_eq_zero hlength
    have hafter : v.after = v.before := by
      unfold after links
      rw [haddresses]
      exact List.append_nil _
    rw [hafter]
    exact finishes_idle (hq'.ready.trans (only_nil _)) hq'
  · have hx : x ∈ v.addresses := haddresses ▸ List.mem_cons_self
    have hcommit : Commit.of .created (v.recordOf x).reference v.scanned
        ∈ v.kept.map (fun o => .of .created o.reference v.scanned) :=
      List.mem_map_of_mem (mem_kept_iff.2 ⟨x, hx, .inr rfl⟩)
    obtain ⟨r', hr', id, t, rfl⟩ := exists_of_forall₂ hnew.flip _ hcommit
    have hlinking : v.Linking ⟨.derive (.ofCommit id _), t, r.correlation⟩ :=
      ⟨_, x, rfl, hx, rfl, rfl, rfl⟩
    have hrounds : new.length + v.addresses.length = 3 * (x :: xs).length := by
      rw [hlength, ← haddresses]
      omega
    exact hrounds ▸ At.finishes_before hv (idle_or_linking hnew) ⟨_, hr', hlinking⟩ hq' _

theorem At.finishes_scan (h : v.At [v.start] .scan [r] p) (hv : v.Sound) (hjob : r.job = .scan j)
    (hj : v.Scanning j) (hclock : instantOf (p.clock + tick) = v.scanned) {octets : List UInt8}
    (hbackend : ∀ job input, p.backend job input = some (.returned (.ofOctets octets)))
    (hobjects : dnsObjects v.network v.name octets = .ok v.reported) :
    Finishes .scan p (2 + 3 * v.addresses.length) (v.At v.after .derive []) := by
  obtain ⟨queue, hdequeue, hp'⟩ := h.dequeue
  obtain ⟨q, r', n, hdispatch, hq, hjob', hn⟩ :=
    hp'.dispatch_scan hjob hj hclock hbackend hobjects
  have hrounds : 2 + 3 * v.addresses.length = 1 + 3 * v.addresses.length + 1 := by omega
  rw [hrounds]
  refine .round h.ready hdequeue hdispatch (fun q' hdesk => ?_)
  have harchive : q'.archive = q.archive := congrArg (fun x => x.2.2.2.2.2.2.1) hdesk
  exact (hq.of_desk q.archive hdesk).finishes_normalize hv hjob'
    (harchive ▸ hn) _

end Rounds

/-! ## The job that is submitted -/

theorem parses_hostname (network : Reference) (name : String) :
    (Entity.hostname network name).reference.Parses := by
  refine (Entity.parses_reference_iff _).2 (fun hempty => ?_)
  have htokens : [network.naturalKey, name] = [] ∨ [network.naturalKey, name] = [""] :=
    (Text.join_eq_empty_iff (by decide)).1 hempty
  simp at htokens

/-- A job that scans the host as the store shows it at a time. -/
def Asks (v : Survey) (t : Instant) (j : ScanJob) : Prop :=
  ∃ id scanner organization, scanner.id = dnsRecords ∧
    j = .ofSnapshot id scanner (v.start.readAt t) organization

section Asks

variable {v : Survey} {t : Instant} {j : ScanJob}

theorem Asks.scanning (h : v.Asks t j) (ht : t.InCalendar) (hnetwork : v.network.Parses) :
    v.Scanning j := by
  obtain ⟨id, scanner, organization, hscanner, rfl⟩ := h
  refine ⟨hscanner, rfl, v.start.readAt t, Snapshot.decoder_sorted ⟨⟨?_, trivial⟩, ?_, ?_⟩, rfl⟩
  · exact List.forall_mem_singleton.2 hnetwork
  · rintro p ⟨⟩
    exact parses_hostname v.network v.name
  · rintro t' ⟨⟩
    exact ht

/-- The object of the job is refused for the network if that has none. -/
theorem Asks.refused (h : v.Asks t j) (ht : t.InCalendar) (hnetwork : v.network.naturalKey = "") :
    j.snapshot = .error (.naming (.noKey v.network.text)) := by
  obtain ⟨id, scanner, organization, -, rfl⟩ := h
  refine Snapshot.decoder_sorted_refused ?_ ?_ ?_
  · exact Entity.decoder_hostname_refused (Reference.parse_text_of_noKey hnetwork) v.name
  · rintro p ⟨⟩
    exact parses_hostname v.network v.name
  · rintro t' ⟨⟩
    exact ht

end Asks

/-! ## The submission -/

/-- A pipeline with the plugins at hand, in whose store is nothing but a host that was declared, and
whose backend answers with these addresses.  No scans are scheduled automatically, rules may follow
upon each other, and no rule is disabled. -/
structure Prepared (network : Reference) (name : String) (level : Level) (declared : Instant)
    (addresses : List Address) (p : Pipeline) : Prop where
  onNetwork : network.type = .network
  isName : IsName name
  cleared : .l1 ≤ level
  registry : AtHand p.registry
  quiet : p.policy.autoSchedule = false
  deep : 1 ≤ p.policy.derivation.maxDepth
  enabled : p.policy.derivation.disabled = .empty
  outages : p.outages = .none
  backend : ∀ job input, p.backend job input
    = some (.returned (.ofOctets (Answer.ofAddresses name addresses).octets))
  store : p.store
    = (Store.empty.put ((Snapshot.ofEntity (.hostname network name)).declare level) declared).1
  memory : p.memory = .empty
  queue : p.queue = .empty
  past : declared.upTo (instantOf p.clock) = true
  calendar : Instant.isSecond (instantOf p.clock).second = true

/-- When a scan that is submitted now ends, if nothing else is done meanwhile. -/
def scanEnd (p : Pipeline) : Instant :=
  instantOf (p.clock + 4 * tick)

section Submission

variable {network : Reference} {name : String} {level : Level} {declared : Instant}
  {addresses : List Address} {p : Pipeline}

/-- The survey that a submission begins. -/
def ofPrepared (network : Reference) (name : String) (level : Level) (declared : Instant)
    (addresses : List Address) (p : Pipeline) : Survey :=
  ⟨network, name, level, declared, scanEnd p, (SortedSet.ofList addresses).toList⟩

theorem upTo_instantOf {a b : Nat} (h : a ≤ b) : (instantOf a).upTo (instantOf b) = true := by
  refine decide_eq_true ?_
  simp only [instantOf, Instant.perSecond]
  omega

theorem Prepared.sound (h : Prepared network name level declared addresses p) :
    (ofPrepared network name level declared addresses p).Sound where
  network := h.onNetwork
  times := Instant.upTo_trans h.past (upTo_instantOf (Nat.le_add_right _ _))
  nodup := Address.nodup_ofList addresses

theorem Prepared.inCalendar (h : Prepared network name level declared addresses p) :
    (instantOf p.clock).InCalendar :=
  ⟨h.calendar, .inl (Nat.mod_lt _ (by decide))⟩

theorem Prepared.online (h : Prepared network name level declared addresses p) :
    p.store.offline = false := by
  rw [h.store, Store.put_offline]
  rfl

theorem Prepared.holds (h : Prepared network name level declared addresses p) :
    p.store.Holds [(ofPrepared network name level declared addresses p).start] :=
  h.store ▸ holds_start (ofPrepared network name level declared addresses p)

/-- What a submission leads to: one job waits, which scans the host, and nothing else is changed. -/
structure Submitted (v : Survey) (p : Pipeline) (r : Request) (j : ScanJob) (p₁ : Pipeline) :
    Prop where
  waits : v.At [v.start] .scan [r] p₁
  job : r.job = .scan j
  asks : v.Asks (instantOf p.clock) j
  backend : p₁.backend = p.backend
  store : p₁.store = p.store
  clock : instantOf (p₁.clock + tick) = scanEnd p

/-- The request for a scan that a submission makes. -/
def requestOf (d : ScannerDefinition) (input : Snapshot) (p : Pipeline) : Request :=
  ⟨.scan (.ofSnapshot (.ofNat (p.nextId + 1)) ⟨d.id, d.version⟩ input p.policy.organization),
    instantOf (p.clock + tick), some (.ofNat p.nextId)⟩

/-- The pipeline once the request was queued and before it is announced. -/
def queued (r : Request) (p : Pipeline) : Pipeline :=
  { p with
    nextId := p.nextId + 1 + 1
    clock := p.clock + tick + tick
    queue := p.queue.enqueueAll [r] }

/-- A scan of a visible object by a scanner that may scan it is queued and announced. -/
theorem submitScan_eq {scanner : RegisteredScanner} {id : String} {r : Reference}
    {input : Snapshot} (h : p.Working) (hscanner : p.registry.scanners.get? id = some scanner)
    (hread : p.store.read? r (instantOf p.clock) = some input)
    (hcovers : scanner.definition.consumes.covers input.type = true)
    (hlevel : ¬ input.level < scanner.definition.level) :
    submitScan id r p = (.ok (Queue.handleOf (requestOf scanner.definition input p)),
      (publish (some (.ofNat p.nextId)) (.jobEnqueued (.ofNat (p.nextId + 1)) .scan)
        (queued (requestOf scanner.definition input p) p)).2) := by
  let p₀ : Pipeline := { p with nextId := p.nextId + 1, clock := p.clock + tick }
  let p₁ : Pipeline := { p₀ with nextId := p₀.nextId + 1, clock := p₀.clock + tick }
  have hlook : lookUp r (instantOf p.clock) p₀ = (.ok (some input), p₀) := by
    have hworking : p₀.Working := ⟨h.outages, h.online⟩
    rw [hworking.lookUp]
    exact congrArg (fun o => (Except.ok o, p₀)) hread
  have hrequest : scanRequest scanner.definition input (some (.ofNat p.nextId)) p₀
      = (.ok (requestOf scanner.definition input p), p₁) := rfl
  have henqueue : enqueueAnnounced [requestOf scanner.definition input p] p₁
      = (.ok (), (publish (some (.ofNat p.nextId)) (.jobEnqueued (.ofNat (p.nextId + 1)) .scan)
          (queued (requestOf scanner.definition input p) p)).2) := by
    have hworking : p₁.Working := ⟨h.outages, h.online⟩
    unfold enqueueAnnounced
    rw [bind_of_ok (hworking.enqueueAll [requestOf scanner.definition input p])]
    rfl
  unfold submitScan
  simp only [freshId_bind, get_bind, hscanner, now_bind]
  refine (bind_of_ok hlook).trans ?_
  dsimp only
  rw [hcovers, Bool.not_true, if_neg Bool.false_ne_true, if_neg hlevel]
  exact (bind_of_ok hrequest).trans (bind_of_ok henqueue)

/-- Where the request of a survey was queued, a drain begins. -/
theorem Prepared.at_queued (h : Prepared network name level declared addresses p)
    (d : ScannerDefinition) (input : Snapshot) :
    (ofPrepared network name level declared addresses p).At
      [(ofPrepared network name level declared addresses p).start] .scan [requestOf d input p]
      (queued (requestOf d input p) p) where
  working := ⟨h.outages, h.online⟩
  registry := h.registry
  quiet := h.quiet
  deep := h.deep
  enabled := by
    show (!p.policy.derivation.disabled.contains dnsResolving && _) = true
    rw [h.enabled]
    rfl
  caches k entry hentry := by
    have hentry' : p.memory.cache.Holds dnsResolving k entry := hentry
    rw [h.memory] at hentry'
    exact absurd hentry' Cache.not_holds_empty
  holds := h.holds
  ready := by
    show (p.queue.enqueueAll [requestOf d input p]).ready = _
    rw [h.queue]
    rfl

theorem Prepared.submit (h : Prepared network name level declared addresses p) :
    ∃ p₁ r j,
      submitScan dnsRecords (Entity.hostname network name).reference p
        = (.ok (Queue.handleOf r), p₁) ∧
      (ofPrepared network name level declared addresses p).Submitted p r j p₁ := by
  let v := ofPrepared network name level declared addresses p
  let input : Snapshot := v.start.readAt (instantOf p.clock)
  have hread : p.store.read? v.host.reference (instantOf p.clock) = some input :=
    Store.Has.read? (h.holds.has _ List.mem_cons_self) (fun t ht => Option.some.inj ht ▸ h.past)
  have hlevel : ¬ input.level < dnsRecordsDefinition.level := Nat.not_lt.2 h.cleared
  obtain ⟨body, hscanner⟩ := h.registry.get?_scanners
  refine ⟨_, _, _, submitScan_eq ⟨h.outages, h.online⟩ hscanner hread rfl hlevel,
    (h.at_queued _ _).of_desk _ (steady_desk.publish _ _ _), rfl, ⟨_, _, _, rfl, rfl⟩, rfl, rfl,
    congrArg instantOf ?_⟩
  show p.clock + tick + tick + tick + tick = p.clock + 4 * tick
  omega

end Submission

/-! ## What is left -/

/-- The host, or what is found for one of its addresses: the address, a record and a link. -/
def Leaves (network : Reference) (name : String) (addresses : List Address) (e : Entity) : Prop :=
  e = .hostname network name ∨ ∃ x ∈ addresses, e = addressEntity network x ∨
    e = recordEntity network name x ∨ e = linkEntity network name x

/-- The store holds the host and, from `t` on, what was found for its addresses, with clearance that
comes from the host. -/
structure Leaving (network : Reference) (name : String) (level : Level) (addresses : List Address)
    (t : Instant) (s : Store) : Prop where
  nothingElse : ∀ r e t', s.visible? r t' = some e →
    r = e.reference ∧ Leaves network name addresses e
  present : ∀ e, Leaves network name addresses e → ∀ t', t.upTo t' = true →
    s.visible? e.reference t' = some e
  host : s.profileOf (Entity.hostname network name).reference
    = .declared (Entity.hostname network name).reference level
  record : ∀ x ∈ addresses,
    (s.profileOf (recordEntity network name x).reference).level = level.lower .l2
  link : ∀ x ∈ addresses, (s.profileOf (linkEntity network name x).reference).level = level

section Leaving

variable {v : Survey} {s : Store}

theorem exists_mem_after {e : Entity} (h : Leaves v.network v.name v.addresses e) :
    ∃ o ∈ v.after, o.entity = e ∧ ∀ t, o.validTime = some t → t = v.declared ∨ t = v.scanned := by
  have hread : ∀ os : List Snapshot, ∀ o ∈ os,
      ∃ o' ∈ (v.seen.imply os).map (·.readAt v.scanned), o'.entity = o.entity ∧
        ∀ t, o'.validTime = some t → t = v.declared ∨ t = v.scanned := by
    intro os o ho
    obtain ⟨o', ho', hentity⟩ := Snapshot.exists_mem_imply (s := v.seen) ho
    exact ⟨_, List.mem_map_of_mem ho', hentity, fun t ht => .inr (Option.some.inj ht).symm⟩
  have hkept : ∀ o ∈ v.kept, ∃ o' ∈ v.after, o'.entity = o.entity ∧
      ∀ t, o'.validTime = some t → t = v.declared ∨ t = v.scanned := by
    intro o ho
    obtain ⟨o', ho', hrest⟩ := hread _ o ho
    exact ⟨o', List.mem_append_left _ (List.mem_cons_of_mem _ ho'), hrest⟩
  rcases h with rfl | ⟨x, hx, rfl | rfl | rfl⟩
  · exact ⟨v.start, List.mem_append_left _ List.mem_cons_self, rfl,
      fun t ht => .inl (Option.some.inj ht).symm⟩
  · exact hkept _ (mem_kept_iff.2 ⟨x, hx, .inl rfl⟩)
  · exact hkept _ (mem_kept_iff.2 ⟨x, hx, .inr rfl⟩)
  · obtain ⟨o', ho', hrest⟩ := hread _ _ (mem_links_iff.2 ⟨x, hx, rfl⟩)
    exact ⟨o', List.mem_append_right _ ho', hrest⟩

/-- An object that a source implies a profile for has the level that it implies. -/
theorem level_of_imply {source o : Snapshot} {os : List Snapshot}
    (hsource : source.reference ∉ os.map Snapshot.reference) (ho : o ∈ os)
    (hhas : ∀ o' ∈ source.imply os, s.Has (o'.readAt v.scanned)) :
    (s.profileOf o.reference).level = source.impliedLevel os o.reference := by
  obtain ⟨o', ho', hentity⟩ := Snapshot.exists_mem_imply (s := source) ho
  have hp : o'.profile = some (ClearanceGraph.implied (source.impliedLevels os) o'.reference) :=
    Snapshot.profile_of_mem_imply hsource ho'
  have hprofile := (hhas o' ho').profileOf hp
  have hreference : o'.reference = o.reference := congrArg Entity.reference hentity
  rw [show (o'.readAt v.scanned).reference = o.reference from hreference, hreference] at hprofile
  rw [hprofile, ClearanceGraph.implied_level]
  rfl

theorem leaving_of_holds (hv : v.Sound) (h : s.Holds v.after) :
    Leaving v.network v.name v.level v.addresses v.scanned s where
  nothingElse r e t' he := by
    obtain ⟨o, ho, rfl, rfl⟩ := h.exists_of_visible? he
    exact ⟨rfl, entity_of_mem_after ho⟩
  present e he t' ht' := by
    obtain ⟨o, ho, rfl, htimes⟩ := exists_mem_after he
    refine (h.has o ho).visible? (fun t ht => ?_)
    rcases htimes t ht with rfl | rfl
    · exact Instant.upTo_trans hv.times ht'
    · exact ht'
  host := (h.has v.start (List.mem_append_left _ List.mem_cons_self)).profileOf rfl
  record x hx := by
    have hmem : v.recordOf x ∈ v.kept := mem_kept_iff.2 ⟨x, hx, .inr rfl⟩
    refine (level_of_imply (v := v) host_not_mem_kept hmem (fun o ho => ?_)).trans
      (level_recordOf hv hx)
    exact h.has _ (List.mem_append_left _ (List.mem_cons_of_mem _ (List.mem_map_of_mem ho)))
  link x hx := by
    have hmem : v.linkOf x ∈ v.links := mem_links_iff.2 ⟨x, hx, rfl⟩
    refine (level_of_imply (v := v) host_not_mem_links hmem (fun o ho => ?_)).trans
      (level_linkOf hx)
    exact h.has _ (List.mem_append_right _ (List.mem_map_of_mem ho))

end Leaving

/-! ## The outcome -/

section Outcome

variable {network : Reference} {name : String} {level : Level} {declared : Instant}
  {addresses : List Address} {p p₁ : Pipeline} {r : Request} {j : ScanJob}

/-- On a network with a key, the scan leads to all that is found for the addresses. -/
theorem Prepared.drain_of_key (h : Prepared network name level declared addresses p)
    (hsubmitted : (ofPrepared network name level declared addresses p).Submitted p r j p₁)
    (hnetwork : network.naturalKey ≠ "") :
    ∃ q, (∀ budget, 2 + 3 * addresses.toFinset.card ≤ budget →
        p₁.drain budget = (q, ⟨2 + 3 * addresses.toFinset.card, 0⟩)) ∧
      q.queue.ready = .all [] ∧ Leaving network name level addresses (scanEnd p) q.store := by
  have hv := h.sound
  have hparses : network.Parses :=
    Reference.parses_of_naturalKey (by rw [h.onNetwork]; rfl) hnetwork
  have hj := hsubmitted.asks.scanning h.inCalendar hparses
  have hobjects := h.isName.dnsObjects_octets network addresses
  have hfinishes := hsubmitted.waits.finishes_scan hv hsubmitted.job hj hsubmitted.clock
    (hsubmitted.backend ▸ h.backend) hobjects
  obtain ⟨q, hq, hdrain⟩ := hfinishes.drain_eq
  have hleaving := leaving_of_holds hv hq.holds
  have hmem : ∀ x, x ∈ (SortedSet.ofList addresses).toList ↔ x ∈ addresses :=
    SortedSet.mem_ofList addresses
  have hlength : (ofPrepared network name level declared addresses p).addresses.length
      = addresses.toFinset.card := Address.length_ofList addresses
  rw [hlength] at hdrain
  refine ⟨q, hdrain, hq.ready.trans (only_nil _), ?_⟩
  have hleaves : ∀ e, Leaves network name (SortedSet.ofList addresses).toList e ↔
      Leaves network name addresses e := by
    intro e
    unfold Leaves
    simp only [hmem]
  exact {
    nothingElse := fun r e t' he =>
      (hleaving.nothingElse r e t' he).imp_right (hleaves e).1
    present := fun e he => hleaving.present e ((hleaves e).2 he)
    host := hleaving.host
    record := fun x hx => hleaving.record x ((hmem x).2 hx)
    link := fun x hx => hleaving.link x ((hmem x).2 hx) }

/-- What is said of a scan whose object names a network without a key. -/
def refusal (network : Reference) : PipelineError :=
  .serialization (.naming (.noKey network.text))

/-- On a network without a key, the scan fails, and it leads to nothing. -/
theorem Prepared.drain_of_no_key (h : Prepared network name level declared addresses p)
    (hsubmitted : (ofPrepared network name level declared addresses p).Submitted p r j p₁)
    (hnetwork : network.naturalKey = "") :
    ∃ q, (∀ budget, 1 ≤ budget → p₁.drain budget = (q, ⟨0, 1⟩)) ∧ q.queue.ready = .all [] ∧
      q.queue.failures.get? r.job.id = some (refusal network).message ∧ q.store = p.store := by
  have hsnapshot := hsubmitted.asks.refused h.inCalendar hnetwork
  obtain ⟨queue, hdequeue, hp'⟩ := hsubmitted.waits.dequeue
  obtain ⟨s, hdispatch, hs, hstore⟩ := hp'.dispatch_refused hsubmitted.job hsnapshot
  have hidle : s.queue.ready = .all [] := hs.ready.trans (only_nil _)
  obtain ⟨q, hdesk, hfailures, hdrain⟩ :=
    drain_of_failed hsubmitted.waits.ready hdequeue hdispatch hidle
  have hready : q.queue.ready = s.queue.ready := congrArg (fun d => d.2.2.2.2.2.1) hdesk
  have hkept : q.store = s.store := congrArg (fun d => d.2.2.2.1) hdesk
  exact ⟨q, hdrain, hready.trans hidle, hfailures,
    hkept.trans (hstore.trans hsubmitted.store)⟩

/-- A scan of a host whose name has `n` addresses is submitted and drained.  If the network of the
host has a key, `2 + 3n` jobs are settled, none of them fails, and what is left is the host and for
each address the address itself, a record and a link, the record at the level of the host but at
most at the second, and the link at the level of the host.  If it has none, the one job fails, for
the reference to the network cannot be read back, and nothing is stored. -/
theorem scan_settles (h : Prepared network name level declared addresses p) :
    ∃ handle p₁,
      submitScan dnsRecords (Entity.hostname network name).reference p = (.ok handle, p₁) ∧
      (network.naturalKey ≠ "" → ∃ q,
        (∀ budget, 2 + 3 * addresses.toFinset.card ≤ budget →
          p₁.drain budget = (q, ⟨2 + 3 * addresses.toFinset.card, 0⟩)) ∧
        q.queue.ready = .all [] ∧ Leaving network name level addresses (scanEnd p) q.store) ∧
      (network.naturalKey = "" → ∃ q,
        (∀ budget, 1 ≤ budget → p₁.drain budget = (q, ⟨0, 1⟩)) ∧ q.queue.ready = .all [] ∧
        q.queue.failures.get? handle.id = some (refusal network).message ∧
        q.store = p.store) := by
  obtain ⟨p₁, r, j, hsubmit, hsubmitted⟩ := h.submit
  exact ⟨_, p₁, hsubmit, h.drain_of_key hsubmitted, h.drain_of_no_key hsubmitted⟩

end Outcome

namespace Lookup

/-- The addresses that a resolver lists, of both families and one of them twice. -/
def addresses : List Address :=
  [.v6 ⟨#v[0, 0, 0, 0, 0, 0, 0, 1]⟩, .v4 ⟨127, 0, 0, 1⟩, .v6 ⟨#v[0, 0, 0, 0, 0, 0, 0, 1]⟩]

/-- The pipeline in whose store is the host, on a network of this name. -/
def start (network : String) : Pipeline :=
  { ofStore (Store.empty.put
      ((Snapshot.ofEntity (.hostname (Entity.network network).reference "a.example")).declare .l3)
        (.ofSecond 0)).1 with
    registry := plugins (fun _ => .ok [])
    backend := fun _ _ =>
      some (.returned (.ofOctets (Answer.ofAddresses "a.example" addresses).octets)) }

theorem prepared (network : String) :
    Prepared (Entity.network network).reference "a.example" .l3 (.ofSecond 0) addresses
      (start network) where
  onNetwork := rfl
  isName := ⟨(Text.isWord_of_any (by decide) rfl).2, by decide, by decide⟩
  cleared := by decide
  registry := atHand_plugins _
  quiet := rfl
  deep := show 1 ≤ (ofStore .empty).policy.derivation.maxDepth by decide
  enabled := rfl
  outages := rfl
  backend _ _ := rfl
  store := rfl
  memory := rfl
  queue := rfl
  past := show Instant.upTo _ (instantOf (ofStore .empty).clock) = true by decide
  calendar := show Instant.isSecond (instantOf (ofStore .empty).clock).second = true by decide

theorem scan_settles_both_families :
    Prepared (Entity.network "internet").reference "a.example" .l3 (.ofSecond 0) addresses
        (start "internet") ∧
      ∃ handle p₁ q,
        submitScan dnsRecords (Entity.hostname (Entity.network "internet").reference
          "a.example").reference (start "internet") = (.ok handle, p₁) ∧
        p₁.drain 8 = (q, ⟨8, 0⟩) ∧
        Leaving (Entity.network "internet").reference "a.example" .l3 addresses
          (scanEnd (start "internet")) q.store := by
  have hcount : addresses.toFinset.card = 2 := by decide +kernel
  obtain ⟨handle, p₁, hsubmit, hkey, -⟩ := scan_settles (prepared "internet")
  obtain ⟨q, hdrain, -, hleaving⟩ := hkey (by decide +kernel)
  rw [hcount] at hdrain
  exact ⟨prepared _, handle, p₁, q, hsubmit, hdrain 8 (Nat.le_refl _), hleaving⟩

/-- On a network whose name is empty, the one job fails and neither of the addresses is stored. -/
theorem scan_fails_unnamed :
    Prepared (Entity.network "").reference "a.example" .l3 (.ofSecond 0) addresses (start "") ∧
      ∃ handle p₁ q,
        submitScan dnsRecords (Entity.hostname (Entity.network "").reference
          "a.example").reference (start "") = (.ok handle, p₁) ∧
        p₁.drain 8 = (q, ⟨0, 1⟩) ∧
        q.queue.failures.get? handle.id
          = some "Serialization error: Invalid reference: Network|" ∧
        ¬ Leaving (Entity.network "").reference "a.example" .l3 addresses
          (scanEnd (start "")) q.store := by
  obtain ⟨p₁, r, j, hsubmit, hsubmitted⟩ := (prepared "").submit
  obtain ⟨q, hdrain, -, hfailures, hstore⟩ :=
    (prepared "").drain_of_no_key hsubmitted (by decide +kernel)
  have hmessage : (refusal (Entity.network "").reference).message
      = "Serialization error: Invalid reference: Network|" := by decide +kernel
  refine ⟨prepared _, _, p₁, q, hsubmit, hdrain 8 (by decide), hfailures.trans (hmessage ▸ rfl), ?_⟩
  intro hleaving
  let found : Entity := addressEntity (Entity.network "").reference (.v4 ⟨127, 0, 0, 1⟩)
  have hpresent := hleaving.present found (.inr ⟨_, by decide, .inl rfl⟩) (scanEnd (start ""))
    (by decide)
  have habsent : (start "").store.visible? found.reference (scanEnd (start "")) = none := by
    decide +kernel
  rw [hstore, habsent] at hpresent
  cases hpresent

end Lookup

end Survey

end ScanGraph
