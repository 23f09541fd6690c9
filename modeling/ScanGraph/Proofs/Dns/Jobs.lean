/-
The jobs of a survey, one by one.

The scan leaves its evidence and a normalize job, and that one commits an address
and a record for each address found.  The derive job of an address or of a link
concerns no rule; the first one of a record commits the links, each of which gets
a job of its own, and the others commit nothing.

`At` says where a survey has come to: which objects the store holds, which jobs wait,
and that every service works.  Each lemma takes one job off the line and says where the
survey is then, so that the rounds of a whole scan are these lemmas one after the other
(`At.finishes_after`, `At.finishes_before`).  What a dispatch does besides, to the
clock, the ids and the bus, nothing here depends on (`desk`).

Covered are the scan of the host, a scan whose object the job cannot carry, the reading
of its evidence, and the derive jobs of addresses, of records and of links.  Jobs of
other kinds of objects do not occur in a survey, and neither do scans that a commit
leads to, as automatic scans are off.
-/
import ScanGraph.Proofs.Dns.Linking
import ScanGraph.Proofs.Pipeline.Rounds

namespace ScanGraph

namespace Builtin

variable {r : Registry}

theorem AtHand.get?_scanners (h : AtHand r) :
    ∃ body, r.scanners.get? dnsRecords = some ⟨dnsRecordsDefinition, body⟩ := by
  obtain ⟨resolve, rfl⟩ := h
  exact ⟨some (dnsScan resolve), rfl⟩

theorem AtHand.get?_normalizers (h : AtHand r) :
    r.normalizers.get? dnsNormalizer = some ⟨dnsNormalizerDefinition, dnsNormalize⟩ := by
  obtain ⟨resolve, rfl⟩ := h
  rfl

theorem AtHand.normalizersFor_dnsRecords (h : AtHand r) (octets : List UInt8) :
    r.normalizersFor ((Evidence.ofOctets octets).tagged (scannerTag dnsRecords)).tags
      dnsRecords = [⟨dnsNormalizerDefinition, dnsNormalize⟩] := by
  obtain ⟨resolve, rfl⟩ := h
  rfl

end Builtin

namespace Survey

open ScanGraph.Action Dns Builtin Pipeline

/-- A pipeline at work on a survey: its store holds these objects, and in one line wait these
jobs. -/
structure At (v : Survey) (os : List Snapshot) (k : JobKind) (rs : List Request) (p : Pipeline) :
    Prop where
  working : p.Working
  registry : AtHand p.registry
  quiet : p.policy.autoSchedule = false
  deep : 1 ≤ p.policy.derivation.maxDepth
  enabled : p.policy.derivation.isEnabled dnsResolving true = true
  caches : v.Caches p.memory
  holds : p.store.Holds os
  ready : p.queue.ready = only k rs

section At

variable {v : Survey} {os : List Snapshot} {k : JobKind} {r : Request} {rs : List Request}
  {p q : Pipeline}

theorem At.of_desk (h : v.At os k rs p) (archive : Archive)
    (hdesk : q.desk = { p with archive }.desk) : v.At os k rs q := by
  simp only [desk, Prod.mk.injEq] at hdesk
  obtain ⟨hregistry, hpolicy, -, hstore, hmemory, hready, -, houtages⟩ := hdesk
  exact ⟨⟨houtages.trans h.working.outages, hstore ▸ h.working.online⟩,
    hregistry ▸ h.registry, hpolicy ▸ h.quiet, hpolicy ▸ h.deep, hpolicy ▸ h.enabled,
    hmemory ▸ h.caches, hstore ▸ h.holds, hready.trans h.ready⟩

theorem At.dequeue (h : v.At os k (r :: rs) p) :
    ∃ queue, p.dequeue k = ({ p with queue }, some r) ∧ v.At os k rs { p with queue } := by
  obtain ⟨queue, hdequeue, hready⟩ := dequeue_of_only h.ready
  exact ⟨queue, hdequeue, ⟨h.working.outages, h.working.online⟩, h.registry, h.quiet, h.deep,
    h.enabled, h.caches, h.holds, hready⟩

theorem At.line (h : v.At os k [] p) (l : JobKind) : v.At os l [] p :=
  { h with ready := h.ready.trans ((only_nil k).trans (only_nil l).symm) }

/-- The commits of an observation, and the requests that they lead to. -/
theorem At.committed {os' : List Snapshot} {s : Store} {new : List Request}
    (h : v.At os k rs p) (hs : s.Holds os') (honline : s.offline = false)
    (hnew : ∀ r ∈ new, r.job.kind = k)
    (hstill : q.still = { p with store := s, queue := p.queue.enqueueAll new }.still) :
    v.At os' k (rs ++ new) q := by
  have hnext : v.At os' k (rs ++ new)
      { p with store := s, queue := p.queue.enqueueAll new } :=
    ⟨⟨h.working.outages, honline⟩, h.registry, h.quiet, h.deep, h.enabled, h.caches, hs,
      ready_enqueueAll h.ready hnew⟩
  exact hnext.of_desk p.archive (desk_of_still hstill)

end At

/-! ## Derive jobs -/

/-- The request is for the derive job of a commit that concerns no rule. -/
def Idle (r : Request) : Prop :=
  ∃ j, r.job = .derive j ∧ Inert j.commit.reference.type

/-- The request is for the first derive job of the commit of a record. -/
def Linking (v : Survey) (r : Request) : Prop :=
  ∃ j x, r.job = .derive j ∧ x ∈ v.addresses ∧
    j.commit = .of .created (v.recordOf x).reference v.scanned ∧ j.depth = 0 ∧ j.lineage = []

section Derive

variable {v : Survey} {os : List Snapshot} {r : Request} {rs : List Request} {p : Pipeline}

theorem At.dispatch_idle (h : v.At os .derive rs p) (hr : Idle r) :
    ∃ q, dispatch r p = (.ok .succeeded, q) ∧ v.At os .derive rs q := by
  obtain ⟨j, hjob, htype⟩ := hr
  let p₁ : Pipeline := { p with clock := p.clock + tick }
  have htargets : p₁.engine.targets j.commit.reference j.commit.validTime = .ok [] :=
    htype.targets_eq_nil h.registry h.working.online h.holds.wellFormed
  have hall : deriveAll r { j with life := j.life.start (instantOf p.clock) } p₁ = (.ok (), p₁) := by
    unfold deriveAll
    have hfor := deriveFor_of_ok
      (Engine.deriveFor_of_no_targets htargets (paced p₁.clock) p₁.memory)
    rw [List.length_nil, Nat.zero_mul, Nat.add_zero] at hfor
    rw [bind_of_ok hfor]
    rfl
  have hworking : p₁.Working := ⟨h.working.outages, h.working.online⟩
  obtain ⟨q, archive, hdispatch, hdesk⟩ := dispatchDerive_of_deriveAll hall hworking
  have hhandle : handle r p = (.ok (), q) := by
    unfold handle
    rw [hjob]
    exact hdispatch
  exact ⟨q, dispatch_of_handle hhandle, h.of_desk (q := q) archive hdesk⟩

theorem At.forM_skipped (h : v.At os .derive rs p) {j : DeriveJob} {outcomes : List RuleOutcome}
    (hskipped : ∀ o ∈ outcomes, ∃ reason, o.status = .skipped reason) :
    ∃ q, outcomes.forM (recordOutcome r j) p = (.ok (), q) ∧ v.At os .derive rs q := by
  induction outcomes generalizing p with
  | nil => exact ⟨p, rfl, h⟩
  | cons o outcomes ih =>
    obtain ⟨⟨reason, hreason⟩, hrest⟩ := List.forall_mem_cons.1 hskipped
    obtain ⟨settled, hsettled⟩ := settleOutcome_of_skipped (r := r) (j := j) hreason p
    obtain ⟨s, archive, hrecord, hdesk⟩ := recordOutcome_of_settled hsettled h.working
    obtain ⟨q, hforM, hq⟩ := ih (h.of_desk _ hdesk) hrest
    exact ⟨q, (bind_of_ok hrecord).trans hforM, hq⟩

theorem At.dispatch_linking (h : v.At os .derive rs p) (hv : v.Sound) (hs : v.Stocked p.store)
    {j : DeriveJob} {x : Address} (hjob : r.job = .derive j) (hx : x ∈ v.addresses)
    (hcommit : j.commit = .of .created (v.recordOf x).reference v.scanned) (hlineage : j.lineage = [])
    {os' : List Snapshot} {post : List Request → Prop}
    (hcommits : ∀ life q output, v.At os .derive rs q → q.store = p.store → output.Perm v.links →
      ∃ s new, commitDerived r { j with life } dnsResolving v.seen output q = (.ok (), s) ∧
        v.At os' .derive (rs ++ new) s ∧ post new) :
    ∃ q new, dispatch r p = (.ok .succeeded, q) ∧ v.At os' .derive (rs ++ new) q ∧ post new := by
  let p₁ : Pipeline := { p with clock := p.clock + tick }
  let life : Lifecycle := j.life.start (instantOf p.clock)
  obtain ⟨m, outcomes, hderive, ⟨output, cached, rest, rfl, houtput, hrest⟩, hm⟩ :=
    hs.deriveFor_record (e := p₁.engine) hv h.registry h.working.online h.enabled h.caches hx
      (paced p₁.clock)
  let p₂ : Pipeline := { p₁ with memory := m, clock := p₁.clock + (rest.length + 1) * tick }
  have hmade : v.At os .derive rs p₂ :=
    ⟨⟨h.working.outages, h.working.online⟩, h.registry, h.quiet, h.deep, h.enabled, hm, h.holds,
      h.ready⟩
  obtain ⟨s, new, hcommitted, hs, hnew⟩ := hcommits life _ output hmade rfl houtput
  obtain ⟨settled, hsettled⟩ := settleOutcome_of_committed (r := r)
    (j := { j with life }) (o := ⟨dnsResolving, v.seen, .derived output cached⟩) rfl
    (by rw [hlineage]; exact List.not_mem_nil) hcommitted
  obtain ⟨s', archive, hrecord, hdesk⟩ := recordOutcome_of_settled hsettled hs.working
  obtain ⟨q, hskipped, hq⟩ := (hs.of_desk _ hdesk).forM_skipped (r := r) (j := { j with life }) hrest
  have hall : deriveAll r { j with life } p₁ = (.ok (), q) := by
    have hfor : deriveFor j.commit.reference j.commit.validTime p₁
        = (.ok (⟨dnsResolving, v.seen, .derived output cached⟩ :: rest), p₂) :=
      deriveFor_of_ok (by rw [hcommit]; exact hderive)
    unfold deriveAll
    rw [bind_of_ok hfor]
    exact (bind_of_ok hrecord).trans hskipped
  obtain ⟨q', archive', hdispatch, hdesk'⟩ := dispatchDerive_of_deriveAll hall hq.working
  have hhandle : handle r p = (.ok (), q') := by
    unfold handle
    rw [hjob]
    exact hdispatch
  exact ⟨q', new, dispatch_of_handle hhandle, hq.of_desk _ hdesk', hnew⟩

/-- What the rule derived is committed, and every commit gets a derive job. -/
theorem At.commit_output (h : v.At os .derive rs p) {j : DeriveJob} {output : List Snapshot}
    {os' : List Snapshot} {cs : List Commit}
    (hhost : p.store.visible? v.host.reference v.scanned = some v.host)
    (htime : j.commit.validTime = v.scanned) (hdepth : j.depth = 0)
    (hcommit : ∀ x : Observation, x.validTime = v.scanned → x.result = v.seen.imply output →
      (p.store.commit x).1.Holds os' ∧ (p.store.commit x).2 = cs)
    (hinert : ∀ c ∈ cs, Inert c.reference.type) (r : Request) :
    ∃ s new, commitDerived r j dnsResolving v.seen output p = (.ok (), s) ∧
      v.At os' .derive (rs ++ new) s ∧ new.length = cs.length ∧ ∀ r ∈ new, Idle r := by
  have hroot : (p.store.visible? v.seen.reference j.commit.validTime).isSome = true := by
    rw [htime]
    exact congrArg Option.isSome hhost
  have hdeep : ¬ p.policy.derivation.maxDepth < j.depth + 1 := by
    rw [hdepth]
    exact UInt32.not_lt.2 h.deep
  obtain ⟨s, commits, q, new, hcommitted, hderived, hstill, hfollow⟩ :=
    h.working.commitDerived dnsResolving output hroot hdeep r
  have hstore := congrArg Prod.fst hcommitted
  have hcommits := congrArg Prod.snd hcommitted
  dsimp only at hstore hcommits
  obtain ⟨hholds, rfl⟩ := hcommit ⟨dnsResolving, v.seen.reference, some j.id,
    j.commit.validTime, v.seen.imply output⟩ htime rfl
  have honline : s.offline = false := by
    rw [← hstore, Store.commit_offline]
    exact h.working.online
  have hderives := hfollow.derives h.quiet
  rw [← hcommits] at hderives
  have hidle : ∀ r ∈ new, Idle r := by
    intro r' hr'
    obtain ⟨c, hc, id, t, rfl⟩ := exists_of_forall₂ hderives r' hr'
    exact ⟨_, rfl, hinert c hc⟩
  have hkind : ∀ r ∈ new, r.job.kind = .derive := by
    intro r' hr'
    obtain ⟨j', hj', -⟩ := hidle r' hr'
    rw [hj']
    rfl
  exact ⟨q, new, hderived, h.committed (hstore ▸ hholds) honline hkind hstill,
    hderives.length_eq.symm, hidle⟩

/-- The first time, the links are created, and each of them gets a derive job. -/
theorem At.commit_links (h : v.At v.before .derive rs p) (hv : v.Sound) {j : DeriveJob}
    {output : List Snapshot} (houtput : output.Perm v.links)
    (htime : j.commit.validTime = v.scanned) (hdepth : j.depth = 0) (r : Request) :
    ∃ s new, commitDerived r j dnsResolving v.seen output p = (.ok (), s) ∧
      v.At v.after .derive (rs ++ new) s ∧
      new.length = v.addresses.length ∧ ∀ r ∈ new, Idle r := by
  have hinert : ∀ c ∈ output.map (fun o => Commit.of .created o.reference v.scanned),
      Inert c.reference.type := by
    intro c hc
    obtain ⟨o, ho, rfl⟩ := List.mem_map.1 hc
    obtain ⟨x, -, rfl⟩ := mem_links_iff.1 (houtput.mem_iff.1 ho)
    exact .inr (.inr rfl)
  obtain ⟨s, new, hderived, hs, hlength, hidle⟩ :=
    h.commit_output ((stocked_before h.holds).host hv) htime hdepth
      (fun x hx hresult => holds_after hv h.holds hx houtput hresult) hinert r
  refine ⟨s, new, hderived, hs, ?_, hidle⟩
  rw [hlength, List.length_map, houtput.length_eq, links, List.length_map]

theorem At.commit_links_again (h : v.At v.after .derive rs p) (hv : v.Sound) {j : DeriveJob}
    {output : List Snapshot} (houtput : output.Perm v.links)
    (htime : j.commit.validTime = v.scanned) (hdepth : j.depth = 0) (r : Request) :
    ∃ s new, commitDerived r j dnsResolving v.seen output p = (.ok (), s) ∧
      v.At v.after .derive (rs ++ new) s ∧ new = [] := by
  obtain ⟨s, new, hderived, hs, hlength, -⟩ :=
    h.commit_output ((stocked_after h.holds).host hv) htime hdepth
      (fun x hx hresult => holds_after_again h.holds hx houtput hresult)
      (fun c hc => absurd hc List.not_mem_nil) r
  exact ⟨s, new, hderived, hs, List.eq_nil_of_length_eq_zero hlength⟩

/-- Once the host is linked to its addresses, every job that waits takes one round. -/
theorem At.finishes_after (hv : v.Sound) (hrs : ∀ r ∈ rs, Idle r ∨ v.Linking r)
    (h : v.At v.after .derive rs p) (k : JobKind) :
    Finishes k p rs.length (v.At v.after .derive []) := by
  induction rs generalizing p k with
  | nil => exact finishes_idle (h.ready.trans (only_nil _)) h
  | cons r rs ih =>
    obtain ⟨hr, hrest⟩ := List.forall_mem_cons.1 hrs
    obtain ⟨queue, hdequeue, hp'⟩ := h.dequeue
    obtain ⟨q, hdispatch, hq⟩ : ∃ q, dispatch r { p with queue } = (.ok .succeeded, q) ∧
        v.At v.after .derive rs q := by
      rcases hr with hidle | ⟨j, x, hjob, hx, hcommit, hdepth, hlineage⟩
      · exact hp'.dispatch_idle hidle
      · have htime : j.commit.validTime = v.scanned := by rw [hcommit]; rfl
        obtain ⟨q, new, hdispatch, hq, rfl⟩ := hp'.dispatch_linking hv (stocked_after hp'.holds)
          hjob hx hcommit hlineage (fun life s output hs _ houtput =>
            hs.commit_links_again (j := { j with life }) hv houtput htime hdepth r)
        exact ⟨q, hdispatch, by rwa [List.append_nil] at hq⟩
    exact .round h.ready hdequeue hdispatch
      (fun q' hdesk => ih hrest (hq.of_desk q.archive hdesk) _)

theorem At.finishes_before (hv : v.Sound) (hrs : ∀ r ∈ rs, Idle r ∨ v.Linking r)
    (hlinking : ∃ r ∈ rs, v.Linking r) (h : v.At v.before .derive rs p) (k : JobKind) :
    Finishes k p (rs.length + v.addresses.length) (v.At v.after .derive []) := by
  induction rs generalizing p k with
  | nil =>
    obtain ⟨r, hr, -⟩ := hlinking
    exact absurd hr List.not_mem_nil
  | cons r rs ih =>
    obtain ⟨hr, hrest⟩ := List.forall_mem_cons.1 hrs
    obtain ⟨queue, hdequeue, hp'⟩ := h.dequeue
    rw [List.length_cons, Nat.add_right_comm]
    rcases Classical.em (v.Linking r) with hr | hr
    · obtain ⟨j, x, hjob, hx, hcommit, hdepth, hlineage⟩ := hr
      have htime : j.commit.validTime = v.scanned := by rw [hcommit]; rfl
      obtain ⟨q, new, hdispatch, hq, hlength, hidle⟩ := hp'.dispatch_linking hv
        (stocked_before hp'.holds) hjob hx hcommit hlineage
        (fun life s output hs _ houtput =>
          hs.commit_links (j := { j with life }) hv houtput htime hdepth r)
      refine .round h.ready hdequeue hdispatch (fun q' hdesk => ?_)
      have hall : ∀ r ∈ rs ++ new, Idle r ∨ v.Linking r := by
        intro r' hr'
        rcases List.mem_append.1 hr' with hr' | hr'
        · exact hrest r' hr'
        · exact .inl (hidle r' hr')
      have hfinishes := At.finishes_after hv hall (hq.of_desk q.archive hdesk) .derive
      rwa [List.length_append, hlength] at hfinishes
    · have hidle : Idle r := by
        rename_i hcases
        exact hcases.resolve_right hr
      obtain ⟨q, hdispatch, hq⟩ := hp'.dispatch_idle hidle
      have hlinking' : ∃ r ∈ rs, v.Linking r := by
        obtain ⟨r', hr', hlink⟩ := hlinking
        rcases List.mem_cons.1 hr' with rfl | hr'
        · exact absurd hlink hr
        · exact ⟨r', hr', hlink⟩
      exact .round h.ready hdequeue hdispatch
        (fun q' hdesk => ih hrest hlinking' (hq.of_desk q.archive hdesk) _)

end Derive

/-! ## The scan and the normalizer -/

structure Scanning (v : Survey) (j : ScanJob) : Prop where
  scanner : j.scanner.id = dnsRecords
  reference : j.inputReference = v.host.reference
  input : ∃ o, j.snapshot = .ok o ∧ o.entity = v.host

/-- A job that reads what a scan of the host found, which is in the archive. -/
structure Reading (v : Survey) (n : NormalizeJob) (a : Archive) : Prop where
  normalizer : n.normalizer.id = dnsNormalizer
  scan : v.Scanning n.scan
  ended : n.scan.life.endedAt = some v.scanned
  evidence : ∃ e, a.evidence.get? n.scan.id = some e ∧
    dnsObjects v.network v.name e.octets = .ok v.reported

section Evidence

variable {v : Survey} {r : Request} {j : ScanJob} {n : NormalizeJob} {p : Pipeline}

theorem Reading.run_eq {a : Archive} {registry : Registry} (h : v.Reading n a) (hv : v.Sound)
    (hregistry : AtHand registry) :
    ∃ e, a.evidence.get? n.scan.id = some e ∧ ∀ started ended,
      n.run registry e.octets started ended
        = ({ n with life := (n.life.start started).complete ended }, .ok v.kept) := by
  obtain ⟨e, he, hobjects⟩ := h.evidence
  obtain ⟨o, ho, hentity⟩ := h.scan.input
  refine ⟨e, he, fun started ended => ?_⟩
  have hreference : o.reference = v.host.reference := congrArg Entity.reference hentity
  have hbody : ∀ job, dnsNormalize job o e.octets
      = .returned (v.reported.map Snapshot.ofEntity) := by
    intro job
    unfold dnsNormalize
    rw [hentity]
    simp only [host, hobjects]
  unfold NormalizeJob.run
  simp only [h.normalizer, hregistry.get?_normalizers, ho, hbody, NormalizeJob.conclude, hreference,
    keep_reported hv]

/-- A normalize job reads the evidence and the host as it was scanned. -/
theorem At.normalizeInputs (h : v.At [v.start] .normalize [] p) (hv : v.Sound)
    (hn : v.Reading n p.archive) {e : Evidence}
    (he : p.archive.evidence.get? n.scan.id = some e) :
    Pipeline.normalizeInputs n p = (.ok (e, v.scanned, v.seen), p) := by
  have hread : p.store.read? v.host.reference v.scanned = some v.seen :=
    Store.Has.read? (h.holds.has _ List.mem_cons_self) (fun t ht => Option.some.inj ht ▸ hv.times)
  have hevidence : evidenceOf n p = (.ok e, p) := by
    unfold evidenceOf
    rw [get_bind, he]
    rfl
  have htime : normalizeTime n p = (.ok v.scanned, p) := by
    unfold normalizeTime
    rw [hn.ended]
    rfl
  have hlook : lookUp n.scan.inputReference v.scanned p = (.ok (some v.seen), p) := by
    rw [h.working.lookUp, hn.scan.reference, hread]
  unfold Pipeline.normalizeInputs
  rw [bind_of_ok hevidence, bind_of_ok htime, bind_of_ok hlook]
  rfl

theorem At.normalize (h : v.At [v.start] .normalize [] p) (hv : v.Sound)
    (hn : v.Reading n p.archive) (r : Request) :
    ∃ j q new, Pipeline.normalize r n p = (.ok (j, .ok ()), q) ∧ v.At v.before .derive new q ∧
      List.Forall₂ (IsDerive none r.correlation)
        (v.kept.map (fun o => .of .created o.reference v.scanned)) new := by
  obtain ⟨e, he, hrun⟩ := hn.run_eq hv h.registry
  let p₁ : Pipeline := { p with clock := p.clock + tick + tick }
  let x : Observation := ⟨n.normalizer.id, n.scan.inputReference, some n.id, v.scanned,
    v.seen.imply v.kept⟩
  have hworking : p₁.Working := ⟨h.working.outages, h.working.online⟩
  have hsource : (p₁.store.visible? x.source x.validTime).isSome = true := by
    show (p.store.visible? n.scan.inputReference v.scanned).isSome = true
    rw [hn.scan.reference]
    exact congrArg Option.isSome (Store.Has.visible? (h.holds.has _ List.mem_cons_self)
      (fun t ht => Option.some.inj ht ▸ hv.times))
  obtain ⟨q, new, hcommit, hstill, hfollow⟩ := hworking.observe_bind_announce hsource r none
  obtain ⟨hholds, hcommits⟩ := holds_before (x := x) hv h.holds rfl rfl
  have hderives := hfollow.derives h.quiet
  have hkind : ∀ r' ∈ new, r'.job.kind = .derive := by
    intro r' hr'
    obtain ⟨c, -, id, t, rfl⟩ := exists_of_forall₂ hderives r' hr'
    rfl
  have hnext : v.At [v.start] .derive [] p₁ :=
    (h.of_desk (q := p₁) p.archive rfl).line .derive
  have honline : (p₁.store.commit x).1.offline = false :=
    (Store.commit_offline p.store x).trans h.working.online
  have hstored : (p₁.store.commit x).2 = v.kept.map (fun o => .of .created o.reference v.scanned) :=
    hcommits
  rw [hstored] at hderives
  refine ⟨{ n with
    life := (n.life.start (instantOf p.clock)).complete (instantOf (p.clock + tick)) }, q, new, ?_,
    hnext.committed hholds honline hkind hstill, hderives⟩
  unfold Pipeline.normalize
  rw [bind_of_ok (result_of_ok (h.normalizeInputs hv hn he))]
  simp only [now_bind, get_bind, hrun]
  exact bind_of_ok (result_of_ok hcommit)

/-- The normalize job commits the addresses and their records, and ends well. -/
theorem At.dispatch_normalize (h : v.At [v.start] .normalize [] p) (hv : v.Sound)
    (hjob : r.job = .normalize n) (hn : v.Reading n p.archive) :
    ∃ q new, dispatch r p = (.ok .succeeded, q) ∧ v.At v.before .derive new q ∧
      List.Forall₂ (IsDerive none r.correlation)
        (v.kept.map (fun o => .of .created o.reference v.scanned)) new := by
  obtain ⟨j, q, new, hnormalize, hq, hnew⟩ := h.normalize hv hn r
  let q₁ : Pipeline := { q with clock := q.clock + tick }
  have hworking : q₁.Working := ⟨hq.working.outages, hq.working.online⟩
  have hhandle : handle r p
      = (.ok (), { q₁ with archive := q.archive.saveJob (.normalize j) }) := by
    unfold handle
    rw [hjob]
    show dispatchNormalize r n p = _
    unfold dispatchNormalize
    rw [bind_of_ok hnormalize]
    simp only [now_bind]
    exact bind_of_ok (ignoring_of_ok (hworking.save (fun a => a.saveJob (.normalize j))))
  exact ⟨_, new, dispatch_of_handle hhandle,
    hq.of_desk (q.archive.saveJob (.normalize j)) rfl, hnew⟩

/-- The evidence of a scan, with the tag of the scanner. -/
def tagged (octets : List UInt8) : Evidence :=
  (Evidence.ofOctets octets).tagged (scannerTag dnsRecords)

/-- A scan job that was run and ended well. -/
def endedAt (j : ScanJob) (started ended : Instant) : ScanJob :=
  { j with life := (j.life.start started).complete ended }

theorem Scanning.run_eq (h : v.Scanning j) {backend : ScannerBody} {octets : List UInt8}
    (hbackend : ∀ job input, backend job input = some (.returned (.ofOctets octets)))
    (seconds : Nat) (started ended : Instant) :
    j.run backend seconds started ended = (endedAt j started ended, .ok (tagged octets)) := by
  obtain ⟨o, ho, -⟩ := h.input
  have hsnapshot : ScanJob.snapshot { j with life := j.life.start started } = .ok o := ho
  unfold ScanJob.run
  simp only [hsnapshot, hbackend, scanResult, ScanJob.conclude, h.scanner]
  rfl

theorem At.enqueue_normalize (h : v.At [v.start] .scan [] p) {octets : List UInt8}
    (hj : v.Scanning j) (hended : j.life.endedAt = some v.scanned)
    (hevidence : p.archive.evidence.get? j.id = some (tagged octets))
    (hobjects : dnsObjects v.network v.name octets = .ok v.reported) (correlation : Option Uuid) :
    ∃ q r n, ((p.registry.normalizersFor (tagged octets).tags j.scanner.id).mapM
        (normalizeRequest j correlation) >>= enqueueAnnounced) p = (.ok (), q) ∧
      v.At [v.start] .normalize [r] q ∧ r.job = .normalize n ∧ v.Reading n q.archive := by
  have hnormalizers : p.registry.normalizersFor (tagged octets).tags j.scanner.id
      = [⟨dnsNormalizerDefinition, dnsNormalize⟩] := by
    rw [hj.scanner]
    exact h.registry.normalizersFor_dnsRecords octets
  obtain ⟨new, s, hmap, hstill, hnew⟩ := yields_mapM (p := p) (R := IsNormalize j correlation)
    [⟨dnsNormalizerDefinition, dnsNormalize⟩]
    (fun n _ q _ => yields_normalizeRequest j correlation n q)
  obtain ⟨r, rfl, id, t, hr⟩ : ∃ r, new = [r] ∧
      IsNormalize j correlation ⟨dnsNormalizerDefinition, dnsNormalize⟩ r := by
    cases hnew with
    | cons hone hrest =>
      cases hrest
      exact ⟨_, rfl, hone⟩
  have hs : v.At [v.start] .normalize [] s :=
    (h.of_desk p.archive (desk_of_still hstill)).line .normalize
  obtain ⟨q, henqueue, hstill'⟩ := hs.working.enqueueAnnounced [r]
  have hkind : ∀ x ∈ [r], x.job.kind = .normalize := by
    intro x hx
    rw [List.mem_singleton.1 hx, hr]
    rfl
  have harchive : q.archive = p.archive :=
    (congrArg (fun x => x.2.2.2.2.2.2.1) hstill').trans
      (congrArg (fun x => x.2.2.2.2.2.2.1) hstill)
  refine ⟨q, r, _, ?_, hs.committed (s := s.store) hs.holds hs.working.online hkind hstill',
    congrArg Request.job hr, ⟨rfl, hj, hended, tagged octets, harchive ▸ hevidence, hobjects⟩⟩
  rw [hnormalizers, bind_of_ok hmap]
  exact henqueue

/-- A scan whose object is refused fails, and changes nothing but the archive. -/
theorem At.dispatch_refused (h : v.At os .scan [] p) (hjob : r.job = .scan j) {e : DecodeError}
    (hsnapshot : j.snapshot = .error e) :
    ∃ q, dispatch r p = (.ok (.failed (PipelineError.serialization e).message), q) ∧
      v.At os .scan [] q ∧ q.store = p.store := by
  let failure : PipelineError := .serialization e
  let life : Lifecycle :=
    (j.life.start (instantOf p.clock)).fail failure.message (instantOf (p.clock + tick))
  let j' : ScanJob := { j with life }
  let p₁ : Pipeline := { p with clock := p.clock + tick + tick }
  have hrun : ∀ seconds, j.run p.backend seconds (instantOf p.clock) (instantOf (p.clock + tick))
      = (j', .error failure) := by
    intro seconds
    have hstarted : ScanJob.snapshot { j with life := j.life.start (instantOf p.clock) }
        = .error e := hsnapshot
    unfold ScanJob.run
    simp only [hstarted]
    rfl
  have hworking : p₁.Working := ⟨h.working.outages, h.working.online⟩
  have hsave := hworking.saveScan j' (.ofError failure.message)
  have hhandle : handle r p = (.error (.error failure), { p₁ with
      archive := (p.archive.saveJob (.scan j')).saveEvidence j'.id (.ofError failure.message) }) := by
    unfold handle
    rw [hjob]
    show dispatchScan r j p = _
    unfold dispatchScan
    simp only [now_bind, get_bind, hrun]
    exact bind_of_ok (ignoring_of_ok hsave)
  exact ⟨_, dispatch_of_refused hhandle, h.of_desk _ rfl, rfl⟩

/-- The scan puts its evidence into the archive, and a normalize job into the queue. -/
theorem At.dispatch_scan (h : v.At [v.start] .scan [] p) (hjob : r.job = .scan j)
    (hj : v.Scanning j) (hclock : instantOf (p.clock + tick) = v.scanned) {octets : List UInt8}
    (hbackend : ∀ job input, p.backend job input = some (.returned (.ofOctets octets)))
    (hobjects : dnsObjects v.network v.name octets = .ok v.reported) :
    ∃ q r' n, dispatch r p = (.ok .succeeded, q) ∧ v.At [v.start] .normalize [r'] q ∧
      r'.job = .normalize n ∧ v.Reading n q.archive := by
  let j' : ScanJob := endedAt j (instantOf p.clock) (instantOf (p.clock + tick))
  let p₁ : Pipeline := { p with clock := p.clock + tick + tick }
  let p₂ : Pipeline := { p₁ with
    archive := (p.archive.saveJob (.scan j')).saveEvidence j'.id (tagged octets) }
  have hworking : p₁.Working := ⟨h.working.outages, h.working.online⟩
  have hsave : saveScan j' (tagged octets) p₁ = (.ok (), p₂) := hworking.saveScan _ _
  have hp₂ : v.At [v.start] .scan [] p₂ := h.of_desk (q := p₂) p₂.archive rfl
  have hj' : v.Scanning j' := ⟨hj.scanner, hj.reference, hj.input⟩
  obtain ⟨q, r', n, henqueue, hq, hn⟩ := hp₂.enqueue_normalize hj' (congrArg some hclock)
    (Table.get?_insert_self _ _ _) hobjects r.correlation
  have hhandle : handle r p = (.ok (), q) := by
    unfold handle
    rw [hjob]
    show dispatchScan r j p = _
    unfold dispatchScan
    simp only [now_bind, get_bind, hj.run_eq hbackend]
    exact (bind_of_ok hsave).trans henqueue
  exact ⟨q, r', n, dispatch_of_handle hhandle, hq, hn⟩

end Evidence

end Survey

end ScanGraph
