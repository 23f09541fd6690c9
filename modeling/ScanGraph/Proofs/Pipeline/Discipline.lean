/-
What a dispatch leads to.

Whatever happens between the calls of a dispatch, it queues nothing but the jobs
that the dispatched one may lead to, and a scan only if the registry clears it:
`obeys_dispatch`.  The same holds of the submissions, which begin chains of their
own.

## How it is set up

`Expected` says which jobs one dispatch may lead to, kind by kind: a scan to the
readings of its evidence; a reading to the first derive jobs of chains; a derive job to
those that go on its chain; and the last two to scans where the policy says so.  `Due`
says besides what was there before: what cleared the scan, the evidence, or the commit.

Each action is one lemma, `obeys_…`, of what it queues, and each dispatch is put
together from these.  What others do meanwhile is bounded by `Rely`: the policy stays,
and the store is only changed by calls.

## What is not

Nothing is said about what becomes of the dispatched job itself, nor of jobs that wait.
That a commit leads to all the jobs that it should is `Pipeline.Scheduling`.
-/
import ScanGraph.Proofs.Pipeline.Interference
import ScanGraph.Proofs.Pipeline.Worker
import ScanGraph.Proofs.Queue.Lines
import ScanGraph.Proofs.Table.Canonical

namespace ScanGraph

def Store.Took (s : Store) (o : Observation) (c : Commit) : Prop :=
  ∃ (s₀ s₁ : Store) (cs : List Commit),
    s₀.observe o = .ok (s₁, cs) ∧ c ∈ cs ∧ Relation.ReflTransGen Store.Call s₁ s

theorem Store.Took.known {s : Store} {o : Observation} {c : Commit} (h : s.Took o c) :
    s.Known c.validTime c.reference := by
  obtain ⟨s₀, s₁, cs, hobserve, hc, hcalls⟩ := h
  obtain ⟨-, -, hcommit⟩ := Store.observe_eq_ok_iff.1 hobserve
  have hstore : (s₀.commit o).1 = s₁ := congrArg Prod.fst hcommit
  have hcommits : (s₀.commit o).2 = cs := congrArg Prod.snd hcommit
  induction hcalls with
  | refl => exact hstore ▸ Store.known_of_mem_commit (hcommits ▸ hc)
  | tail _ hcall ih => exact hcall.known ih

/-- Below the greatest depth there is, the next depth is greater by one. -/
theorem toNat_succ_of_le {depth maxDepth : UInt32} (h : depth ≤ maxDepth)
    (hmax : maxDepth.toNat + 1 < UInt32.size) : (depth + 1).toNat = depth.toNat + 1 := by
  have hle : depth.toNat ≤ maxDepth.toNat := UInt32.le_iff_toNat_le.1 h
  have hsize : UInt32.size = 2 ^ 32 := rfl
  rw [UInt32.toNat_add]
  refine Nat.mod_eq_of_lt ?_
  show depth.toNat + 1 < 2 ^ 32
  omega

/-- The job is for a scanner of the registry, to scan an object that this scanner may scan. -/
def Registry.Clears (g : Registry) (j : ScanJob) : Prop :=
  ∃ s ∈ g.scanners.values, ∃ (id : Uuid) (input : Snapshot) (organization : String),
    Registry.admits s.definition input.type input.level = true ∧
      j = .ofSnapshot id ⟨s.definition.id, s.definition.version⟩ input organization

namespace Pipeline

/-- The jobs that a dispatched job may lead to. -/
inductive LeadsTo (p : Pipeline) : Job → Job → Prop
  | normalize {s : ScanJob} {n : NormalizeJob} : LeadsTo p (.scan s) (.normalize n)
  | derive {n : NormalizeJob} {j : DeriveJob} :
      j.depth = 0 → j.lineage = [] → LeadsTo p (.normalize n) (.derive j)
  | scan {n : NormalizeJob} {s : ScanJob} :
      p.policy.autoSchedule = true → LeadsTo p (.normalize n) (.scan s)
  | scanDerived {j : DeriveJob} {s : ScanJob} :
      p.policy.autoSchedule = true → LeadsTo p (.derive j) (.scan s)
  /-- The next of a chain, for a commit of what a rule derived from a root that the chain has not
  been through with it. -/
  | followUp {j j' : DeriveJob} {rule : String} {root : Snapshot} {objects : List Snapshot} :
      ⟨rule, root.reference⟩ ∉ j.lineage → j.depth + 1 ≤ p.policy.derivation.maxDepth →
      j'.depth = j.depth + 1 → j'.lineage = j.lineage ++ [⟨rule, root.reference⟩] →
      p.store.Took ⟨rule, root.reference, some j.id, j.commit.validTime, root.imply objects⟩
        j'.commit →
      LeadsTo p (.derive j) (.derive j')

/-- A scan that was over and its evidence were archived at some moments before. -/
def Archived (rely : Pipeline → Pipeline → Prop) (p : Pipeline) (id : Uuid) : Prop :=
  (∃ q, rely q p ∧ q.archive.HasScan id) ∧ ∃ q, rely q p ∧ q.archive.HasEvidence id

/-- What may be queued while a request is dispatched, or by a submission if there is none. -/
def Expected (cause : Option Request) (p : Pipeline) (r : Request) : Prop :=
  match cause with
  | none => ∀ j, r.job = .derive j → j.depth = 0 ∧ j.lineage = []
  | some c => r.correlation = c.correlation ∧ LeadsTo p c.job r.job

/-- What may be queued: scans that the registry of some moment before cleared, readings of scans
that were archived before with their evidence, and derive jobs for commits that are visible. -/
structure Due (rely : Pipeline → Pipeline → Prop) (cause : Option Request) (p : Pipeline)
    (r : Request) : Prop where
  expected : Expected cause p r
  cleared : ∀ j, r.job = .scan j → ∃ q, rely q p ∧ q.registry.Clears j
  archived : ∀ n, r.job = .normalize n → Archived rely p n.scan.id
  known : ∀ j, r.job = .derive j → p.store.Known j.commit.validTime j.commit.reference

/-- Some jobs are queued, each of which is allowed, and the queue is left alone otherwise. -/
def Queues (rely : Pipeline → Pipeline → Prop) (allowed : Pipeline → Request → Prop)
    (p q : Pipeline) : Prop :=
  rely p q ∧ ∃ rs, q.queue = p.queue.enqueueAll rs ∧ ∀ r ∈ rs, allowed q r

section Later

variable {p q s : Pipeline} {r : Request} {rely : Pipeline → Pipeline → Prop} [Rely rely]
  {allowed : Pipeline → Request → Prop}

theorem Later.took {o : Observation} {c : Commit} (hq : p.Later q) (h : p.store.Took o c) :
    q.store.Took o c := by
  obtain ⟨s₀, s₁, cs, hobserve, hc, hcalls⟩ := h
  exact ⟨s₀, s₁, cs, hobserve, hc, hcalls.trans hq.store⟩

theorem LeadsTo.later {a b : Job} (h : p.LeadsTo a b) (hq : p.Later q) : q.LeadsTo a b := by
  cases h with
  | normalize => exact .normalize
  | derive hdepth hlineage => exact .derive hdepth hlineage
  | scan hauto => exact .scan (hq.policy ▸ hauto)
  | scanDerived hauto => exact .scanDerived (hq.policy ▸ hauto)
  | followUp hvisit hmax hdepth hlineage htook =>
    exact .followUp hvisit (hq.policy ▸ hmax) hdepth hlineage (hq.took htook)

theorem Expected.later {cause : Option Request} (h : Expected cause p r) (hq : p.Later q) :
    Expected cause q r := by
  cases cause with
  | none => exact h
  | some c => exact ⟨h.1, h.2.later hq⟩

theorem Later.known (h : p.Later q) {t : Instant} {ref : Reference} (hknown : p.store.Known t ref) :
    q.store.Known t ref := by
  have hcalls := h.store
  generalize q.store = s at hcalls
  induction hcalls with
  | refl => exact hknown
  | tail _ hcall ih => exact hcall.known ih

theorem Archived.later {id : Uuid} (h : Archived rely p id) (hq : rely p q) :
    Archived rely q id := by
  obtain ⟨⟨m, hm, hscan⟩, ⟨m', hm', hevidence⟩⟩ := h
  exact ⟨⟨m, Rely.trans hm hq, hscan⟩, ⟨m', Rely.trans hm' hq, hevidence⟩⟩

theorem Due.later {cause : Option Request} (h : Due rely cause p r) (hq : rely p q) :
    Due rely cause q r where
  expected := h.expected.later (Rely.later hq)
  cleared j hj := by
    obtain ⟨m, hm, hclears⟩ := h.cleared j hj
    exact ⟨m, Rely.trans hm hq, hclears⟩
  archived n hn := (h.archived n hn).later hq
  known j hj := (Rely.later hq).known (h.known j hj)

omit [Rely rely] in
theorem Queues.within (p q : Pipeline) (h : Queues rely allowed p q) : rely p q :=
  h.1

theorem Queues.refl (allowed : Pipeline → Request → Prop) (p : Pipeline) :
    Queues rely allowed p p :=
  ⟨Rely.refl p, [], rfl, fun _ hr => absurd hr List.not_mem_nil⟩

theorem Queues.trans (hallowed : ∀ p q r, rely p q → allowed p r → allowed q r)
    (h : Queues rely allowed p q) (h' : Queues rely allowed q s) : Queues rely allowed p s := by
  obtain ⟨hrely, rs, hqueue, hrs⟩ := h
  obtain ⟨hrely', rs', hqueue', hrs'⟩ := h'
  refine ⟨Rely.trans hrely hrely', rs ++ rs', ?_, fun r hr => ?_⟩
  · rw [Queue.enqueueAll_append, ← hqueue, hqueue']
  · rcases List.mem_append.1 hr with hr | hr
    · exact hallowed q s r hrely' (hrs r hr)
    · exact hrs' r hr

/-- The registry, the policy, the store, the queue and the archive. -/
def core (p : Pipeline) : Registry × Policy × Store × Queue × Archive :=
  (p.registry, p.policy, p.store, p.queue, p.archive)

theorem steady_core : Steady core where
  clock _ _ := rfl
  ids _ _ := rfl
  bus _ _ := rfl

theorem Later.of_core (h : q.core = p.core) : p.Later q := by
  have hstore : q.store = p.store := congrArg (fun c => c.2.2.1) h
  exact ⟨congrArg (fun c => c.2.1) h, hstore ▸ .refl⟩

theorem rely_of_core (h : q.core = p.core) : rely p q := by
  have harchive : q.archive = p.archive := congrArg (fun c => c.2.2.2.2) h
  exact Rely.of_stays ⟨.of_core h, congrArg Prod.fst h⟩ (harchive ▸ .refl _)

theorem Queues.of_core (h : q.core = p.core) : Queues rely allowed p q :=
  ⟨rely_of_core h, [], congrArg (fun c => c.2.2.2.1) h, fun _ hr => absurd hr List.not_mem_nil⟩

theorem Queues.of_archive {archive : Archive} (h : p.archive.Grows archive) :
    Queues rely allowed p { p with archive } :=
  ⟨Rely.of_stays ⟨⟨rfl, .refl⟩, rfl⟩ h, [], rfl, fun _ hr => absurd hr List.not_mem_nil⟩

theorem save_cases (change : Archive → Archive) (p : Pipeline) :
    (∃ e, save change p = (.error (.error e), p)) ∨
      save change p = (.ok (), { p with archive := change p.archive }) := by
  by_cases hoffline : p.outages.archiveOffline = true
  · exact .inl ⟨_, by unfold save; rw [Action.get_bind, if_pos hoffline]; rfl⟩
  · exact .inr (by unfold save; rw [Action.get_bind, if_neg hoffline]; rfl)

/-! ## Settling -/

theorem ready_settle (p : Pipeline) (id : Uuid) (status : JobResult) :
    (p.settle id status).queue.ready = p.queue.ready := by
  cases status with
  | succeeded =>
    unfold settle settled Queue.complete
    cases p.queue.inFlight.get? id <;> rfl
  | failed e =>
    unfold settle settled Queue.fail
    cases p.queue.inFlight.get? id <;> rfl

theorem rely_settle (p : Pipeline) (id : Uuid) (status : JobResult) :
    rely p (p.settle id status) := by
  unfold settle
  cases settled p.queue id status with
  | ok queue => exact Rely.of_stays ⟨⟨rfl, .refl⟩, rfl⟩ (.refl _)
  | error e => exact Rely.refl p

end Later

end Pipeline

namespace Worker

open Routine Pipeline

/-- The derive job for a commit: the next of a chain, or the first one. -/
def nextJob (parent : Option (DeriveJob × Visit)) (id : Uuid) (c : Commit) : DeriveJob :=
  match parent with
  | some (j, visit) => j.followUp id c visit
  | none => .ofCommit id c

/-! ## Requests that are made -/

section Requests

variable {p q : Pipeline} {correlation : Option Uuid}

theorem scanRequest_eq_ok {d : ScannerDefinition} {input : Snapshot} {r : Request}
    (h : scanRequest d input correlation p = (.ok r, q)) :
    ∃ id organization t,
      r = ⟨.scan (.ofSnapshot id ⟨d.id, d.version⟩ input organization), t, correlation⟩ :=
  ⟨_, _, _, (Except.ok.inj (congrArg Prod.fst h)).symm⟩

theorem scansOf_eq_ok {input : Snapshot} {rs : List Request}
    (h : scansOf input correlation p = (.ok rs, q)) :
    ∀ r ∈ rs, ∃ s t, p.registry.Clears s ∧ r = ⟨.scan s, t, correlation⟩ := by
  unfold scansOf at h
  rw [Action.get_bind] at h
  refine Action.result_of_mapM _ (fun x hx _ _ _ hr => ?_) h
  obtain ⟨hmem, hadmits⟩ := List.mem_filter.1 hx
  obtain ⟨id, organization, t, rfl⟩ := scanRequest_eq_ok hr
  exact ⟨_, t, ⟨x, hmem, id, input, organization, hadmits, rfl⟩, rfl⟩

theorem deriveRequests_eq_ok {parent : Option (DeriveJob × Visit)} {commits : List Commit}
    {rs : List Request}
    (h : commits.mapM (deriveRequest parent correlation) p = (.ok rs, q)) :
    ∀ r ∈ rs, ∃ c ∈ commits, ∃ id t, r = ⟨.derive (nextJob parent id c), t, correlation⟩ :=
  Action.result_of_mapM commits (fun c hc _ _ _ hr =>
    ⟨c, hc, _, _, (Except.ok.inj (congrArg Prod.fst hr)).symm⟩) h

theorem normalizeRequests_eq_ok {j : ScanJob} {ns : List RegisteredNormalizer} {rs : List Request}
    (h : ns.mapM (normalizeRequest j correlation) p = (.ok rs, q)) :
    ∀ r ∈ rs, ∃ n t, n.scan = j ∧ r = ⟨.normalize n, t, correlation⟩ :=
  Action.result_of_mapM ns (fun _ _ _ _ _ hr =>
    ⟨_, _, rfl, (Except.ok.inj (congrArg Prod.fst hr)).symm⟩) h

end Requests

/-! ## Single calls -/

section Calls

variable {p : Pipeline} {rely : Pipeline → Pipeline → Prop} [Rely rely]
  {allowed : Pipeline → Request → Prop}

/-- A call that leaves registry, policy, store, queue and archive alone. -/
theorem obeys_quiet {α : Type} {act : Action α} {post : α → Pipeline → Prop}
    (h : Action.Keeps core act)
    (hpost : ∀ q a q', rely p q → act q = (.ok a, q') → post a q') :
    (once act).Obeys rely (Queues rely allowed) post p :=
  obeys_once (fun q _ => .of_core (h q)) hpost

/-- A call that leaves registry, policy, store, queue and archive alone and whose answer does not
matter. -/
theorem obeys_calm {α : Type} {act : Action α} (h : Action.Keeps core act) :
    (once act).Obeys rely (Queues rely allowed) (fun _ _ => True) p :=
  obeys_quiet h (fun _ _ _ _ _ => trivial)

theorem obeys_get :
    (once (get : Action Pipeline)).Obeys rely (Queues rely allowed) (fun s q => s = q) p := by
  refine obeys_quiet Action.Keeps.get (fun q s q' _ h => ?_)
  have hs : q = s := Except.ok.inj (congrArg Prod.fst h)
  exact hs.symm.trans (congrArg Prod.snd h)

theorem obeys_observe (o : Observation) :
    (once (observe o)).Obeys rely (Queues rely allowed)
      (fun cs q => ∀ c ∈ cs, q.store.Took o c) p := by
  refine obeys_once (fun q _ => ?_) (fun q cs q' _ h => ?_)
  · cases hobserved : q.observed o with
    | ok done =>
      rw [observe_of_ok hobserved]
      have hcall : q.store.Call done.1 := .observe (observe_store_of_observed hobserved)
      exact ⟨Rely.of_stays ⟨⟨rfl, .single hcall⟩, rfl⟩ (.refl _), [], rfl,
        fun _ hr => absurd hr List.not_mem_nil⟩
    | error fault =>
      rw [observe_of_error hobserved]
      exact .refl allowed q
  · cases hobserved : q.observed o with
    | ok done =>
      rw [observe_of_ok hobserved] at h
      cases h
      exact fun c hc => ⟨q.store, done.1, done.2, observe_store_of_observed hobserved, hc, .refl⟩
    | error fault =>
      rw [observe_of_error hobserved] at h
      cases h

theorem obeys_save {change : Archive → Archive} (hgrows : ∀ a : Archive, a.Grows (change a))
    {post : Unit → Pipeline → Prop}
    (hpost : ∀ q : Pipeline, rely p { q with archive := change q.archive } →
      post () { q with archive := change q.archive }) :
    (once (save change)).Obeys rely (Queues rely allowed) post p := by
  have hqueues : ∀ q : Pipeline, Queues rely allowed q { q with archive := change q.archive } :=
    fun q => .of_archive (hgrows q.archive)
  refine obeys_once (fun q _ => ?_) (fun q a q' hq h => ?_)
  · rcases save_cases change q with ⟨e, hsave⟩ | hsave
    · exact hsave ▸ .refl allowed q
    · exact hsave ▸ hqueues q
  · rcases save_cases change q with ⟨e, hsave⟩ | hsave
    · cases hsave.symm.trans h
    · cases hsave.symm.trans h
      exact hpost q (Rely.trans hq (hqueues q).1)

theorem obeys_keep {change : Archive → Archive} (hgrows : ∀ a : Archive, a.Grows (change a)) :
    (once (save change)).Obeys rely (Queues rely allowed) (fun _ _ => True) p :=
  obeys_save hgrows (fun _ _ => trivial)

end Calls

/-! ## Queueing -/

section Queueing

variable {p : Pipeline} {rely : Pipeline → Pipeline → Prop} [Rely rely]
  {allowed : Pipeline → Request → Prop}
  (hallowed : ∀ p q r, rely p q → allowed p r → allowed q r)

include hallowed

theorem obeys_enqueue {r : Request} (h : allowed p r) :
    (once (enqueue r)).Obeys rely (Queues rely allowed) (fun _ _ => True) p := by
  refine obeys_once (fun q hq => ?_) (fun _ _ _ _ _ => trivial)
  by_cases hclosed : q.outages.queueClosed = true
  · rw [enqueue_of_closed r hclosed]
    exact .refl allowed q
  · rw [enqueue_of_not_closed r hclosed]
    have hrely : rely q { q with queue := q.queue.enqueue r } :=
      Rely.of_stays ⟨⟨rfl, .refl⟩, rfl⟩ (.refl _)
    refine ⟨hrely, [r], rfl, fun r' hr' => ?_⟩
    rw [List.mem_singleton.1 hr']
    exact hallowed _ _ r (Rely.trans hq hrely) h

theorem obeys_enqueueAll {rs : List Request} (h : ∀ r ∈ rs, allowed p r) :
    (enqueueAll rs).Obeys rely (Queues rely allowed) (fun _ _ => True) p := by
  induction rs generalizing p with
  | nil => trivial
  | cons r rs ih =>
    refine (obeys_enqueue hallowed (h r List.mem_cons_self)).bind Queues.within (fun _ q hq _ => ?_)
    have hrest : ∀ r ∈ rs, allowed q r :=
      fun r hr => hallowed p q r hq (h r (List.mem_cons_of_mem _ hr))
    exact (ih hrest).bind Queues.within (fun _ _ _ _ => trivial)

theorem obeys_enqueueAnnounced {rs : List Request} (h : ∀ r ∈ rs, allowed p r) :
    (enqueueAnnounced rs).Obeys rely (Queues rely allowed) (fun _ _ => True) p := by
  refine (obeys_enqueueAll hallowed h).bind Queues.within (fun _ q _ _ => ?_)
  exact obeys_forM Queues.within rs (fun r _ s _ => obeys_calm (steady_core.publish _ _))

/-! ## Follow-up jobs -/

/-- The scans of what a commit changed are cleared by the registry at the moment that they are
made. -/
theorem obeys_scansAfter (correlation : Option Uuid) (c : Commit)
    (hscan : ∀ q, rely p q → ∀ s t, q.registry.Clears s → allowed q ⟨.scan s, t, correlation⟩) :
    (scansAfter correlation c).Obeys rely (Queues rely allowed)
      (fun rs q => ∀ r ∈ rs, allowed q r) p := by
  have hread : (once (lookUp c.reference c.validTime)).Obeys rely (Queues rely allowed)
      (fun _ _ => True) p :=
    obeys_calm (keeps_lookUp _ _)
  refine (hread.result Queues.within).bind Queues.within (fun found q hq _ => ?_)
  rcases found with e | (_ | input)
  · exact fun r hr => absurd hr List.not_mem_nil
  · exact fun r hr => absurd hr List.not_mem_nil
  · have hkeeps := steady_core.scansOf input correlation
    refine obeys_quiet hkeeps (fun s rs s' hs h r hr => ?_)
    have hcore : s'.core = s.core := (congrArg (fun x => core x.2) h).symm.trans (hkeeps s)
    obtain ⟨job, t, hclears, rfl⟩ := scansOf_eq_ok h r hr
    exact hallowed s s' _ (rely_of_core hcore) (hscan s (Rely.trans hq hs) job t hclears)

theorem obeys_automaticScans (commits : List Commit) (correlation : Option Uuid)
    (hscan : ∀ q, rely p q → q.policy.autoSchedule = true →
      ∀ s t, q.registry.Clears s → allowed q ⟨.scan s, t, correlation⟩) :
    (automaticScans commits correlation).Obeys rely (Queues rely allowed)
      (fun rs q => ∀ r ∈ rs, allowed q r) p := by
  refine obeys_get.bind Queues.within (fun now q hq hnow => ?_)
  subst hnow
  split
  · rename_i hauto
    have hmade : ∀ s, rely now s → ∀ job t, s.registry.Clears job →
        allowed s ⟨.scan job, t, correlation⟩ := by
      intro s hs job t hclears
      exact hscan s (Rely.trans hq hs) ((Rely.later hs).policy ▸ hauto) job t hclears
    have hscans : (commits.mapM (scansAfter correlation)).Obeys rely (Queues rely allowed)
        (fun found s => ∀ rs ∈ found, ∀ r ∈ rs, allowed s r) now :=
      obeys_mapM Queues.within (fun rs s s' hs h r hr => hallowed s s' r hs (h r hr)) commits
        (fun c _ s hs => obeys_scansAfter hallowed correlation c
          (fun s' hs' => hmade s' (Rely.trans hs hs')))
    refine hscans.bind Queues.within (fun found s _ hfound => ?_)
    intro r hr
    obtain ⟨rs, hrs, hr⟩ := List.mem_flatten.1 hr
    exact hfound rs hrs r hr
  · exact fun r hr => absurd hr List.not_mem_nil

theorem obeys_followUps (parent : Option (DeriveJob × Visit)) (correlation : Option Uuid)
    (commits : List Commit)
    (hscan : ∀ q, rely p q → q.policy.autoSchedule = true →
      ∀ s t, q.registry.Clears s → allowed q ⟨.scan s, t, correlation⟩)
    (hderive : ∀ c ∈ commits, ∀ id t,
      allowed p ⟨.derive (nextJob parent id c), t, correlation⟩) :
    (followUps parent correlation commits).Obeys rely (Queues rely allowed)
      (fun rs q => ∀ r ∈ rs, allowed q r) p := by
  refine (obeys_automaticScans hallowed commits correlation hscan).bind Queues.within
    (fun scans q hq hscans => ?_)
  have hmade : (once (commits.mapM (deriveRequest parent correlation))).Obeys rely
      (Queues rely allowed) (fun rs _ => ∀ r ∈ rs, ∃ c ∈ commits, ∃ id t,
        r = ⟨.derive (nextJob parent id c), t, correlation⟩) q :=
    obeys_quiet (Action.Keeps.mapM commits (fun c _ => steady_core.deriveRequest _ _ c))
      (fun _ _ _ _ h => deriveRequests_eq_ok h)
  refine hmade.bind Queues.within (fun derives s hs hderives => ?_)
  intro r hr
  rcases List.mem_append.1 hr with hr | hr
  · exact hallowed q s r hs (hscans r hr)
  · obtain ⟨c, hc, id, t, rfl⟩ := hderives r hr
    exact hallowed p s _ (Rely.trans hq hs) (hderive c hc id t)

theorem obeys_announceCommits (r : Request) (parent : Option (DeriveJob × Visit))
    (commits : List Commit)
    (hscan : ∀ q, rely p q → q.policy.autoSchedule = true →
      ∀ s t, q.registry.Clears s → allowed q ⟨.scan s, t, r.correlation⟩)
    (hderive : ∀ c ∈ commits, ∀ id t,
      allowed p ⟨.derive (nextJob parent id c), t, r.correlation⟩) :
    (announceCommits r parent commits).Obeys rely (Queues rely allowed) (fun _ _ => True) p := by
  unfold announceCommits
  split
  · trivial
  · refine (obeys_calm (steady_core.publish _ _)).bind Queues.within (fun _ q hq _ => ?_)
    have hfollowUps := (obeys_followUps hallowed parent r.correlation commits hscan hderive).later
      hq (fun rs hrs r hr => hallowed p q r hq (hrs r hr))
    exact hfollowUps.bind Queues.within (fun rs s _ hrs => obeys_enqueueAnnounced hallowed hrs)

end Queueing

/-! ## Dispatching -/

section Dispatch

variable {p : Pipeline} {r : Request} {rely : Pipeline → Pipeline → Prop} [Rely rely]

theorem due_later (cause : Option Request) :
    ∀ p q r, rely p q → Due rely cause p r → Due rely cause q r :=
  fun _ _ _ hq h => h.later hq

theorem due_scan {cause : Option Request} {s : ScanJob} {t : Instant} {correlation : Option Uuid}
    (h : Expected cause p ⟨.scan s, t, correlation⟩) (hclears : p.registry.Clears s) :
    Due rely cause p ⟨.scan s, t, correlation⟩ where
  expected := h
  cleared j hj := by
    cases hj
    exact ⟨p, Rely.refl p, hclears⟩
  archived _ hn := by cases hn
  known _ hj := by cases hj

omit [Rely rely] in
theorem due_normalize {cause : Option Request} {n : NormalizeJob} {t : Instant}
    {correlation : Option Uuid} (h : Expected cause p ⟨.normalize n, t, correlation⟩)
    (harchived : Archived rely p n.scan.id) :
    Due rely cause p ⟨.normalize n, t, correlation⟩ where
  expected := h
  cleared _ hj := by cases hj
  archived m hm := by
    cases hm
    exact harchived
  known _ hj := by cases hj

omit [Rely rely] in
theorem due_derive {cause : Option Request} {j : DeriveJob} {t : Instant}
    {correlation : Option Uuid} (h : Expected cause p ⟨.derive j, t, correlation⟩)
    (hknown : p.store.Known j.commit.validTime j.commit.reference) :
    Due rely cause p ⟨.derive j, t, correlation⟩ where
  expected := h
  cleared _ hj := by cases hj
  archived _ hn := by cases hn
  known m hm := by
    cases hm
    exact hknown

/-- A scan that is over and its evidence are archived, or the routine fails. -/
theorem obeys_saveScan {j : ScanJob} (hover : j.life.IsOver) (e : Evidence)
    {allowed : Pipeline → Request → Prop} :
    (saveScan j e).Obeys rely (Queues rely allowed) (fun _ q => Archived rely q j.id) p := by
  have hjob : (once (save (fun a => a.saveJob (.scan j)))).Obeys rely (Queues rely allowed)
      (fun _ q => q.archive.HasScan j.id) p :=
    obeys_save (fun a => a.grows_saveScan hover) (fun q _ => q.archive.hasScan_saveJob hover)
  refine hjob.bind Queues.within (fun _ q _ hscan => ?_)
  refine obeys_save (fun a => a.grows_saveEvidence j.id e) (fun s hs => ?_)
  exact ⟨⟨q, hs, hscan⟩, ⟨_, Rely.refl _, s.archive.hasEvidence_saveEvidence j.id e⟩⟩

theorem obeys_dispatchScan (j : ScanJob) (hj : r.job = .scan j) (j' : ScanJob) :
    (dispatchScan r j').Obeys rely (Queues rely (Due rely (some r))) (fun _ _ => True) p := by
  refine (obeys_calm steady_core.now).bind Queues.within (fun started q _ _ => ?_)
  refine (obeys_calm steady_core.now).bind Queues.within (fun ended q _ _ => ?_)
  refine obeys_get.bind Queues.within (fun s q _ _ => ?_)
  have hover := (j'.tells_run s.backend s.policy.scanning.timeoutSeconds started ended).2.isOver
  generalize j'.run s.backend s.policy.scanning.timeoutSeconds started ended = ran at hover
  rcases ran with ⟨j', e | evidence⟩
  · have hsaved : (saveScan j' (.ofError e.message)).Obeys rely (Queues rely (Due rely (some r)))
        (fun _ _ => True) q :=
      (obeys_saveScan hover _).imp Queues.within (fun _ _ _ h => h) (fun _ _ _ => trivial)
    refine (hsaved.ignoring Queues.within).bind Queues.within (fun _ q _ _ => ?_)
    exact obeys_ofExcept (.error e)
  · refine (obeys_saveScan hover evidence).bind Queues.within (fun _ q _ harchived => ?_)
    have hmade : (once ((s.registry.normalizersFor evidence.tags j'.scanner.id).mapM
          (normalizeRequest j' r.correlation))).Obeys rely (Queues rely (Due rely (some r)))
        (fun rs _ => ∀ r' ∈ rs, ∃ n t, n.scan = j' ∧ r' = ⟨.normalize n, t, r.correlation⟩) q :=
      obeys_quiet (Action.Keeps.mapM _ (fun n _ => steady_core.normalizeRequest _ _ n))
        (fun _ _ _ _ h => normalizeRequests_eq_ok h)
    refine hmade.bind Queues.within (fun rs s hs hrs => ?_)
    refine obeys_enqueueAnnounced (due_later _) (fun r' hr' => ?_)
    obtain ⟨n, t, rfl, rfl⟩ := hrs r' hr'
    exact due_normalize ⟨rfl, hj ▸ .normalize⟩ (harchived.later hs)

theorem obeys_commitNormalized (n : NormalizeJob) (hn : r.job = .normalize n) (j : NormalizeJob)
    (input : Snapshot) (objects : List Snapshot) (t : Instant) :
    (commitNormalized r j input objects t).Obeys rely (Queues rely (Due rely (some r)))
      (fun _ _ => True) p := by
  refine (obeys_observe _).bind Queues.within (fun commits q _ htook => ?_)
  refine obeys_announceCommits (due_later _) r none commits (fun q _ hauto s t hclears => ?_)
    (fun c hc id t => ?_)
  · exact due_scan ⟨rfl, hn ▸ .scan hauto⟩ hclears
  · exact due_derive ⟨rfl, hn ▸ .derive rfl rfl⟩ (htook c hc).known

theorem obeys_normalizeInputs (j : NormalizeJob) {allowed : Pipeline → Request → Prop} :
    (normalizeInputs j).Obeys rely (Queues rely allowed) (fun _ _ => True) p := by
  refine (obeys_calm (keeps_evidenceOf j)).bind Queues.within (fun evidence q _ _ => ?_)
  refine (obeys_calm (steady_core.normalizeTime j)).bind Queues.within (fun t q _ _ => ?_)
  refine (obeys_calm (keeps_lookUp _ t)).bind Queues.within (fun found q _ _ => ?_)
  cases found <;> trivial

theorem obeys_normalize (n : NormalizeJob) (hn : r.job = .normalize n) (j : NormalizeJob) :
    (normalize r j).Obeys rely (Queues rely (Due rely (some r))) (fun _ _ => True) p := by
  refine ((obeys_normalizeInputs j).result Queues.within).bind Queues.within
    (fun inputs q _ _ => ?_)
  rcases inputs with e | ⟨evidence, t, input⟩
  · trivial
  · refine (obeys_calm steady_core.now).bind Queues.within (fun started q _ _ => ?_)
    refine (obeys_calm steady_core.now).bind Queues.within (fun ended q _ _ => ?_)
    refine obeys_get.bind Queues.within (fun s q _ _ => ?_)
    rcases j.run s.registry evidence.octets started ended with ⟨j', e | objects⟩
    · trivial
    · refine ((obeys_commitNormalized n hn j' input objects t).result Queues.within).bind
        Queues.within (fun _ _ _ _ => trivial)

theorem obeys_dispatchNormalize (j : NormalizeJob) (hj : r.job = .normalize j) :
    (dispatchNormalize r j).Obeys rely (Queues rely (Due rely (some r))) (fun _ _ => True) p := by
  refine (obeys_normalize j hj j).bind Queues.within (fun ran q _ _ => ?_)
  refine (obeys_calm steady_core.now).bind Queues.within (fun ended q _ _ => ?_)
  refine ((obeys_keep (fun a => a.grows_saveNormalize _)).ignoring Queues.within).bind Queues.within
    (fun _ q _ _ => ?_)
  exact obeys_ofExcept _

/-- What a rule derived leads to jobs that go on the chain, unless the chain has been through the
rule with that root or is as long as the policy allows. -/
theorem obeys_commitDerived (j : DeriveJob) (hj : r.job = .derive j) (life : Lifecycle)
    (rule : String) (root : Snapshot) (objects : List Snapshot)
    (hvisit : ⟨rule, root.reference⟩ ∉ j.lineage) :
    (commitDerived r { j with life } rule root objects).Obeys rely
      (Queues rely (Due rely (some r))) (fun _ _ => True) p := by
  refine (obeys_observe _).bind Queues.within (fun commits q _ htook => ?_)
  refine obeys_get.bind Queues.within (fun s q' hq' hs => ?_)
  subst hs
  split
  · trivial
  · rename_i hdepth
    have hmax : j.depth + 1 ≤ s.policy.derivation.maxDepth := UInt32.not_lt.1 hdepth
    refine obeys_announceCommits (due_later _) r _ commits (fun q'' _ hauto s t hclears => ?_)
      (fun c hc id t => ?_)
    · exact due_scan ⟨rfl, hj ▸ .scanDerived hauto⟩ hclears
    · have htook' := (Rely.later hq').took (htook c hc)
      exact due_derive ⟨rfl, hj ▸ .followUp hvisit hmax rfl rfl htook'⟩ htook'.known

theorem obeys_settleOutcome (j : DeriveJob) (hj : r.job = .derive j) (life : Lifecycle)
    (o : RuleOutcome) :
    (settleOutcome r { j with life } o).Obeys rely (Queues rely (Due rely (some r)))
      (fun _ _ => True) p := by
  unfold settleOutcome
  split
  · split
    · trivial
    · rename_i objects cached _ hvisited
      have hvisit : (⟨o.rule, o.root.reference⟩ : Visit) ∉ j.lineage := by
        simpa [DeriveJob.hasVisited] using hvisited
      have hcommit : (commitDerived r { j with life } o.rule o.root objects).Obeys rely
          (Queues rely (Due rely (some r))) (fun _ _ => True) p :=
        obeys_commitDerived j hj life o.rule o.root objects hvisit
      refine (hcommit.result Queues.within).bind Queues.within (fun found q _ _ => ?_)
      cases found <;> trivial
  · trivial

theorem obeys_recordOutcome (j : DeriveJob) (hj : r.job = .derive j) (life : Lifecycle)
    (o : RuleOutcome) :
    (recordOutcome r { j with life } o).Obeys rely (Queues rely (Due rely (some r)))
      (fun _ _ => True) p := by
  refine (obeys_settleOutcome j hj life o).bind Queues.within (fun settled q _ _ => ?_)
  refine (obeys_calm steady_core.freshId).bind Queues.within (fun id q _ _ => ?_)
  refine (obeys_calm steady_core.now).bind Queues.within (fun t q _ _ => ?_)
  refine ((obeys_keep (fun a => a.grows_saveAttempt _)).ignoring Queues.within).bind Queues.within
    (fun _ q _ _ => ?_)
  exact obeys_calm (steady_core.publish _ _)

theorem obeys_deriveAll (j : DeriveJob) (hj : r.job = .derive j) (life : Lifecycle) :
    (deriveAll r { j with life }).Obeys rely (Queues rely (Due rely (some r)))
      (fun _ _ => True) p := by
  have hevaluate : (outcomes j.commit.reference j.commit.validTime).Obeys rely
      (Queues rely (Due rely (some r))) (fun _ _ => True) p := by
    intro q answer _
    cases answer <;> trivial
  refine hevaluate.bind Queues.within (fun found q _ _ => ?_)
  exact obeys_forM Queues.within found (fun o _ s _ => obeys_recordOutcome j hj life o)

theorem obeys_dispatchDerive (j : DeriveJob) (hj : r.job = .derive j) :
    (dispatchDerive r j).Obeys rely (Queues rely (Due rely (some r))) (fun _ _ => True) p := by
  refine (obeys_calm steady_core.now).bind Queues.within (fun started q _ _ => ?_)
  refine ((obeys_deriveAll j hj _).result Queues.within).bind Queues.within
    (fun outcome q _ _ => ?_)
  refine (obeys_calm steady_core.now).bind Queues.within (fun ended q _ _ => ?_)
  refine ((obeys_keep (fun a => a.grows_saveDerive _)).ignoring Queues.within).bind Queues.within
    (fun _ q _ _ => ?_)
  exact obeys_ofExcept _

/-- Whatever others do meanwhile, a dispatch queues what the job may lead to and nothing else. -/
theorem obeys_dispatch (r : Request) (p : Pipeline) :
    (dispatch r).Obeys rely (Queues rely (Due rely (some r))) (fun _ _ => True) p := by
  have hhandle : (handle r).Obeys rely (Queues rely (Due rely (some r))) (fun _ _ => True) p := by
    unfold handle
    split
    · rename_i j hj
      exact obeys_dispatchScan j hj j
    · rename_i j hj
      exact obeys_dispatchNormalize j hj
    · rename_i j hj
      exact obeys_dispatchDerive j hj
  refine (hhandle.result Queues.within).bind Queues.within (fun found q _ _ => ?_)
  cases found <;> trivial

end Dispatch

/-! ## Submitting -/

section Submit

variable {p : Pipeline} {rely : Pipeline → Pipeline → Prop} [Rely rely]

theorem obeys_scanRequest {s : Pipeline} (hs : rely s p) {x : RegisteredScanner}
    (hx : x ∈ s.registry.scanners.values) {input : Snapshot}
    (hadmits : Registry.admits x.definition input.type input.level = true)
    (correlation : Option Uuid) :
    (once (scanRequest x.definition input correlation)).Obeys rely (Queues rely (Due rely none))
      (fun r q => Due rely none q r) p := by
  have hkeeps := steady_core.scanRequest x.definition input correlation
  refine obeys_quiet hkeeps (fun q r q' hq h => ?_)
  have hcore : q'.core = q.core := (congrArg (fun a => core a.2) h).symm.trans (hkeeps q)
  obtain ⟨id, organization, t, rfl⟩ := scanRequest_eq_ok h
  have hclears : s.registry.Clears
      (.ofSnapshot id ⟨x.definition.id, x.definition.version⟩ input organization) :=
    ⟨x, hx, id, input, organization, hadmits, rfl⟩
  have hdue : Due rely none s ⟨.scan (.ofSnapshot id ⟨x.definition.id, x.definition.version⟩ input
      organization), t, correlation⟩ :=
    due_scan (fun j hj => by cases hj) hclears
  exact hdue.later (Rely.trans (Rely.trans hs hq) (rely_of_core hcore))

/-- A scan that is asked for is queued only if the registry clears it. -/
theorem obeys_submitScan (scanner : String) (input : Reference) :
    (submitScan scanner input).Obeys rely (Queues rely (Due rely none)) (fun _ _ => True) p := by
  refine (obeys_calm steady_core.freshId).bind Queues.within (fun correlation q _ _ => ?_)
  refine obeys_get.bind Queues.within (fun s q _ hs => ?_)
  subst hs
  split
  · trivial
  · rename_i x hx
    refine (obeys_calm steady_core.now).bind Queues.within (fun t q hq _ => ?_)
    refine (obeys_calm (keeps_lookUp _ _)).bind Queues.within (fun found q' hq' _ => ?_)
    split
    · trivial
    · rename_i object
      split
      · trivial
      · rename_i hconsumes
        split
        · trivial
        · rename_i hlevel
          have hmem := List.mem_map_of_mem (f := Prod.snd) (Table.mem_entries_of_get? hx)
          have hadmits : Registry.admits x.definition object.type object.level = true := by
            simpa [Registry.admits] using And.intro hconsumes hlevel
          have hmade := obeys_scanRequest (Rely.trans hq hq') hmem hadmits (some correlation)
          refine hmade.bind Queues.within (fun r q'' _ hr => ?_)
          have hqueue := List.forall_mem_singleton.2 hr
          exact (obeys_enqueueAnnounced (due_later none) hqueue).bind Queues.within
            (fun _ _ _ _ => trivial)

theorem obeys_submitObservation (method : String) (source : Reference) (objects : List Snapshot)
    (t : Instant) :
    (submitObservation method source objects t).Obeys rely (Queues rely (Due rely none))
      (fun _ _ => True) p := by
  refine (obeys_observe _).bind Queues.within (fun commits q _ htook => ?_)
  refine (obeys_calm steady_core.freshId).bind Queues.within (fun correlation q hq _ => ?_)
  have hfollowUps : (followUps none (some correlation) commits).Obeys rely
      (Queues rely (Due rely none)) (fun rs q => ∀ r ∈ rs, Due rely none q r) q := by
    refine obeys_followUps (due_later none) none _ commits (fun q' _ _ s t hclears => ?_)
      (fun c hc id t => ?_)
    · exact due_scan (fun j hj => by cases hj) hclears
    · refine due_derive (fun j hj => ?_) ((Rely.later hq).took (htook c hc)).known
      cases hj
      exact ⟨rfl, rfl⟩
  exact hfollowUps.bind Queues.within (fun rs s _ hrs => obeys_enqueueAll (due_later none) hrs)

end Submit

end Worker

end ScanGraph
