/-
Which scans commits lead to.

Where the policy says that commits lead to scans, whatever is committed on a
submission, by a normalizer or by a rule is scanned by every scanner that may, once
for each commit, with one exception: a rule at the depth where chains end commits
what it derived and has nothing scanned (`commits_scanned`).  A step of a run is
looked at as the list of what it commits, each with what is queued for it.

## What is asked

The registry was built, every service works and goes on to, and the policy says that
commits lead to scans.  Submissions and rounds follow one another without interruption.

## What is proved

A step is the list of what it commits.  Unless it is a derive job at the depth where
chains end, each commit has one scan by every scanner that may scan the object as it is
stored right then, and no other scan; if it is one, nothing is queued at all.

## What is not

`derived_unscanned` shows that the exception cannot be dropped: a host that a rule
derived at that depth is stored, and a scanner that may scan it does not get to.  Levels
that change later lead to no scan by themselves, since they are no commits; and what is
committed as it was before is no commit either.
-/
import ScanGraph.Proofs.Pipeline.Clearance
import ScanGraph.Proofs.Pipeline.Services
import ScanGraph.Proofs.Registry.Built

namespace ScanGraph

def Request.scans (scanner : String) (input : Reference) (r : Request) : Bool :=
  match r.job with
  | .scan j => j.scanner.id == scanner && j.inputReference == input
  | _ => false

/-- What is committed at once, and the jobs that are queued for it. -/
structure Posting where
  before : Store
  observation : Observation
  after : Store
  commits : List Commit
  queued : List Request

/-- The jobs are the scans of a commit: one by every scanner that may scan the object as it is
stored, and no others. -/
def Registry.Covers (g : Registry) (s : Store) (c : Commit) (rs : List Request) : Prop :=
  ∃ input, s.read? c.reference c.validTime = some input ∧
    (∀ r ∈ rs, ∃ x ∈ g.scanners.values, r.scans x.definition.id c.reference = true) ∧
    ∀ x ∈ g.scanners.values, rs.countP (Request.scans x.definition.id c.reference)
      = if Registry.admits x.definition input.type input.level then 1 else 0

/-- Every commit has its scans, and what else is queued are derive jobs. -/
def Posting.Covered (g : Registry) (x : Posting) : Prop :=
  ∃ groups derives, x.queued = groups.flatten ++ derives ∧
    List.Forall₂ (g.Covers x.after) x.commits groups ∧ ∀ r ∈ derives, r.job.kind = .derive

/-- Commits one after the other lead from one store to another. -/
inductive Postings : Store → List Posting → Store → Prop
  | nil (s : Store) : Postings s [] s
  | cons {x : Posting} {xs : List Posting} {s : Store} :
      x.before.observe x.observation = .ok (x.after, x.commits) → Postings x.after xs s →
      Postings x.before (x :: xs) s

theorem Postings.append {s s' s'' : Store} {xs ys : List Posting} (h : Postings s xs s')
    (h' : Postings s' ys s'') : Postings s (xs ++ ys) s'' := by
  induction h with
  | nil => exact h'
  | cons hx _ ih => exact .cons hx (ih h')

theorem Postings.eq_of_nil {s s' : Store} (h : Postings s [] s') : s = s' := by
  cases h
  rfl

/-! ## Scans of one commit -/

section Covers

variable {g : Registry} {d : Registry.Draft}

theorem countP_of_forall₂ {α β : Type} {rel : α → β → Prop} {p : α → Bool} {q : β → Bool}
    (hpq : ∀ a b, rel a b → p a = q b) {as : List α} {bs : List β} (h : List.Forall₂ rel as bs) :
    as.countP p = bs.countP q := by
  induction h with
  | nil => rfl
  | cons hab _ ih => rw [List.countP_cons, List.countP_cons, ih, hpq _ _ hab]

/-- Among the scanners that may scan an object each one stands once. -/
theorem countP_scannersFor (hbuilt : d.build = .ok g) (type : ObjectType) (level : Level)
    {x : RegisteredScanner} (hx : x ∈ g.scanners.values) :
    (g.scannersFor type level).countP (fun s => s.definition.id == x.definition.id)
      = if Registry.admits x.definition type level then 1 else 0 := by
  let id := fun s : RegisteredScanner => s.definition.id
  have hnodup : ((g.scannersFor type level).map id).Nodup :=
    (Registry.nodup_scanner_ids hbuilt).sublist (List.filter_sublist.map id)
  have hmem : id x ∈ (g.scannersFor type level).map id
      ↔ Registry.admits x.definition type level = true := by
    constructor
    · intro h
      obtain ⟨y, hy, hid⟩ := List.mem_map.1 h
      obtain ⟨hy, hadmits⟩ := List.mem_filter.1 hy
      have hget := Registry.get?_scanner_of_build hbuilt hy
      rw [show y.definition.id = x.definition.id from hid,
        Registry.get?_scanner_of_build hbuilt hx] at hget
      exact Option.some.inj hget ▸ hadmits
    · exact fun h => List.mem_map_of_mem (List.mem_filter.2 ⟨hx, h⟩)
  have hcount : (g.scannersFor type level).countP (fun s => s.definition.id == x.definition.id)
      = ((g.scannersFor type level).map id).count (id x) := by
    rw [List.count_eq_countP, List.countP_map]
    rfl
  rw [hcount, hnodup.count]
  simp only [hmem]

theorem Pipeline.IsScans.covers {p : Pipeline} {correlation : Option Uuid} {c : Commit}
    {rs : List Request} (hbuilt : d.build = .ok p.registry) (hauto : p.policy.autoSchedule = true)
    (hstore : p.store.WellFormed) (hknown : p.store.Known c.validTime c.reference)
    (h : p.IsScans correlation c rs) : p.registry.Covers p.store c rs := by
  obtain ⟨e, he⟩ := hknown
  have href : e.reference = c.reference := hstore.reference_of_visible? he
  have hread : p.store.read? c.reference c.validTime
      = some (p.store.snapshot c.validTime c.reference e) := by
    unfold Store.read?
    rw [he]
    rfl
  unfold IsScans at h
  rw [hauto, hread] at h
  have hscans : ∀ (id : String) (s : RegisteredScanner) (r : Request),
      IsScan p.policy.organization correlation (p.store.snapshot c.validTime c.reference e)
        s.definition r →
      (s.definition.id == id) = r.scans id c.reference := by
    rintro id s r ⟨uuid, t, rfl⟩
    have hinput : (p.store.snapshot c.validTime c.reference e).reference = c.reference := href
    simp [Request.scans, ScanJob.ofSnapshot, hinput]
  refine ⟨_, hread, fun r hr => ?_, fun x hx => ?_⟩
  · obtain ⟨s, hs, hscan⟩ := exists_of_forall₂ h r hr
    have hself := hscans s.definition.id s r hscan
    exact ⟨s, (List.mem_filter.1 hs).1, hself.symm.trans (beq_self_eq_true _)⟩
  · rw [← countP_of_forall₂ (hscans x.definition.id) h]
    exact countP_scannersFor hbuilt _ _ hx

end Covers

namespace Pipeline

open ScanGraph.Action

/-! ## What is committed on the way -/

/-- What is read and written where objects are committed and jobs are queued. -/
def board (p : Pipeline) : Registry × Policy × Outages × Store × Queue :=
  (p.registry, p.policy, p.outages, p.store, p.queue)

theorem steady_board : Steady board where
  clock _ _ := rfl
  ids _ _ := rfl
  bus _ _ := rfl

/-- Commits are made, for each of which such jobs are queued, and nothing else is queued. -/
structure Posted (holds : Posting → Prop) (p q : Pipeline) : Prop where
  registry : q.registry = p.registry
  policy : q.policy = p.policy
  outages : q.outages = p.outages
  postings : ∃ xs, Postings p.store xs q.store ∧
    q.queue = p.queue.enqueueAll (xs.flatMap Posting.queued) ∧ ∀ x ∈ xs, holds x

section Posted

variable {holds : Posting → Prop} {p q s : Pipeline}

theorem Posted.of_board (h : q.board = p.board) : Posted holds p q := by
  simp only [board, Prod.mk.injEq] at h
  obtain ⟨hregistry, hpolicy, houtages, hstore, hqueue⟩ := h
  exact ⟨hregistry, hpolicy, houtages, [], hstore ▸ .nil _, hqueue,
    fun x hx => absurd hx List.not_mem_nil⟩

theorem Posted.trans (h : Posted holds p q) (h' : Posted holds q s) : Posted holds p s := by
  obtain ⟨xs, hxs, hqueue, hholds⟩ := h.postings
  obtain ⟨ys, hys, hqueue', hholds'⟩ := h'.postings
  refine ⟨h'.registry.trans h.registry, h'.policy.trans h.policy, h'.outages.trans h.outages,
    xs ++ ys, hxs.append hys, ?_, fun x hx => ?_⟩
  · rw [hqueue', hqueue, List.flatMap_append, Queue.enqueueAll_append]
  · exact (List.mem_append.1 hx).elim (hholds x) (hholds' x)

end Posted

/-- A pipeline with these plugins and this policy in which every service works. -/
structure Equipped (g : Registry) (policy : Policy) (p : Pipeline) : Prop where
  registry : p.registry = g
  policy : p.policy = policy
  working : p.Working
  reachable : p.store.Reachable

/-- Wherever an action begins, for each commit that it makes such jobs are queued, and nothing else
is queued. -/
def Posts {α : Type} (g : Registry) (policy : Policy) (holds : Posting → Prop) (act : Action α) :
    Prop :=
  ∀ p, Equipped g policy p → Posted holds p (act p).2

section Posts

variable {α β : Type} {g : Registry} {policy : Policy} {holds : Posting → Prop} {p q : Pipeline}
  {act : Action α} {f : α → Action β}

theorem Posted.equipped (h : Posted holds p q) (hp : Equipped g policy p) :
    Equipped g policy q := by
  obtain ⟨xs, hxs, -⟩ := h.postings
  have hstore : q.store.offline = false ∧ q.store.Reachable := by
    have honline := hp.working.online
    have hreachable := hp.reachable
    generalize p.store = s at hxs honline hreachable
    generalize q.store = s' at hxs
    induction hxs with
    | nil => exact ⟨honline, hreachable⟩
    | @cons x xs s hx _ ih =>
      exact ih (Store.online_of_observe hx) (.observe hreachable hx)
  exact ⟨h.registry.trans hp.registry, h.policy.trans hp.policy,
    ⟨h.outages.trans hp.working.outages, hstore.1⟩, hstore.2⟩

theorem Posts.of_keeps (h : Keeps board act) : Posts g policy holds act :=
  fun p _ => .of_board (h p)

theorem Posts.bind (h : Posts g policy holds act) (hf : ∀ a, Posts g policy holds (f a)) :
    Posts g policy holds (act >>= f) := by
  intro p hp
  have hposted := h p hp
  cases hact : act p with
  | mk x q =>
    rw [hact] at hposted
    cases x with
    | ok a =>
      rw [bind_of_ok hact]
      exact hposted.trans (hf a q (hposted.equipped hp))
    | error fault =>
      rw [bind_of_error hact]
      exact hposted

theorem Posts.result (h : Posts g policy holds act) : Posts g policy holds (result act) := by
  intro p hp
  rw [result_snd]
  exact h p hp

theorem Posts.forM {f : α → Action Unit} (l : List α) (h : ∀ a, Posts g policy holds (f a)) :
    Posts g policy holds (l.forM f) := by
  induction l with
  | nil => exact .of_keeps (.pure _)
  | cons a l ih => exact (h a).bind (fun _ => ih)

/-- What is observed is committed, and what comes next queues jobs for it. -/
theorem posts_observe_bind {o : Observation} {f : List Commit → Action β}
    (h : ∀ s q cs, s.observe o = .ok (q.store, cs) → Equipped g policy q →
      ∃ rs, (f cs q).2.board = { q with queue := q.queue.enqueueAll rs }.board ∧
        holds ⟨s, o, q.store, cs, rs⟩) : Posts g policy holds (observe o >>= f) := by
  intro p hp
  cases hobserved : p.observed o with
  | error fault =>
    rw [bind_of_error (observe_of_error hobserved)]
    exact .of_board rfl
  | ok done =>
    have hobserve := observe_store_of_observed hobserved
    have hworking : Working { p with store := done.1 } :=
      ⟨hp.working.outages, Store.online_of_observe hobserve⟩
    have hq : Equipped g policy { p with store := done.1 } :=
      ⟨hp.registry, hp.policy, hworking, .observe hp.reachable hobserve⟩
    obtain ⟨rs, hboard, hholds⟩ := h p.store _ done.2 hobserve hq
    rw [bind_of_ok (observe_of_ok hobserved)]
    simp only [board, Prod.mk.injEq] at hboard
    obtain ⟨hregistry, hpolicy, houtages, hstore, hqueue⟩ := hboard
    let x : Posting := ⟨p.store, o, done.1, done.2, rs⟩
    have hx : Postings x.before [x] x.after := .cons hobserve (.nil _)
    refine ⟨hregistry, hpolicy, houtages, [x], ?_, ?_, ?_⟩
    · rw [hstore]
      exact hx
    · rw [hqueue, List.flatMap_singleton]
    · exact List.forall_mem_singleton.2 hholds

end Posts

/-! ## Commits and their scans -/

section Lawful

variable {g : Registry} {d : Registry.Draft} {policy : Policy} {p q : Pipeline}

/-- Nothing is queued where chains end; elsewhere every commit has its scans. -/
def Lawful (g : Registry) (ends : Prop) (x : Posting) : Prop :=
  (ends → x.queued = []) ∧ (¬ ends → x.Covered g)

theorem IsFollowUps.covered (hbuilt : d.build = .ok g) (hauto : policy.autoSchedule = true)
    (hq : Equipped g policy q) {s : Store} {o : Observation} {cs : List Commit}
    (hobserve : s.observe o = .ok (q.store, cs)) {parent : Option (DeriveJob × Visit)}
    {correlation : Option Uuid} {rs : List Request} (h : IsFollowUps q parent correlation cs rs) :
    Posting.Covered g ⟨s, o, q.store, cs, rs⟩ := by
  obtain ⟨groups, derives, hrs, hgroups, hderives⟩ := h
  obtain ⟨-, -, hcommit⟩ := Store.observe_eq_ok_iff.1 hobserve
  have hknown : ∀ c ∈ cs, q.store.Known c.validTime c.reference := by
    intro c hc
    have hstore : (s.commit o).1 = q.store := congrArg Prod.fst hcommit
    have hcommits : (s.commit o).2 = cs := congrArg Prod.snd hcommit
    exact hstore ▸ Store.known_of_mem_commit (hcommits ▸ hc)
  have hbuilt' : d.build = .ok q.registry := hbuilt.trans (congrArg _ hq.registry.symm)
  have hauto' : q.policy.autoSchedule = true := hq.policy ▸ hauto
  refine ⟨groups, derives, hrs, ?_, fun r hr => ?_⟩
  · refine ((List.forall₂_and_left cs groups).2 ⟨hknown, hgroups⟩).imp ?_
    rintro c rs' ⟨hc, hscans⟩
    exact hq.registry ▸ hscans.covers hbuilt' hauto' hq.reachable.wellFormed hc
  · obtain ⟨c, -, id, t, rfl⟩ := exists_of_forall₂ hderives r hr
    rfl

theorem exists_announceCommits (hbuilt : d.build = .ok g) (hauto : policy.autoSchedule = true)
    (hq : Equipped g policy q) {s : Store} {o : Observation} {cs : List Commit}
    (hobserve : s.observe o = .ok (q.store, cs)) (r : Request)
    (parent : Option (DeriveJob × Visit)) :
    ∃ rs, (announceCommits r parent cs q).2.board
        = { q with queue := q.queue.enqueueAll rs }.board ∧
      Posting.Covered g ⟨s, o, q.store, cs, rs⟩ := by
  obtain ⟨q', rs, hannounce, hstill, hfollow⟩ := hq.working.announceCommits r parent cs
  refine ⟨rs, ?_, hfollow.covered hbuilt hauto hq hobserve⟩
  rw [hannounce]
  simp only [still, Prod.mk.injEq] at hstill
  simp only [board, hstill]

theorem posts_commitDerived (hbuilt : d.build = .ok g) (hauto : policy.autoSchedule = true)
    (r : Request) (j : DeriveJob) (rule : String) (root : Snapshot) (objects : List Snapshot) :
    Posts g policy (Lawful g (policy.derivation.maxDepth < j.depth + 1))
      (commitDerived r j rule root objects) := by
  refine posts_observe_bind (fun s q cs hobserve hq => ?_)
  rw [get_bind]
  split
  · rename_i hends
    exact ⟨[], rfl, fun _ => rfl, fun hgoes => absurd (hq.policy ▸ hends) hgoes⟩
  · rename_i hgoes
    rw [hq.policy] at hgoes
    obtain ⟨rs, hboard, hcovered⟩ := exists_announceCommits hbuilt hauto hq hobserve r _
    exact ⟨rs, hboard, fun hends => absurd hends hgoes, fun _ => hcovered⟩

theorem posts_commitNormalized (hbuilt : d.build = .ok g) (hauto : policy.autoSchedule = true)
    (r : Request) (j : NormalizeJob) (input : Snapshot) (objects : List Snapshot) (t : Instant) :
    Posts g policy (Lawful g False) (commitNormalized r j input objects t) := by
  refine posts_observe_bind (fun s q cs hobserve hq => ?_)
  obtain ⟨rs, hboard, hcovered⟩ := exists_announceCommits hbuilt hauto hq hobserve r none
  exact ⟨rs, hboard, False.elim, fun _ => hcovered⟩

theorem posts_submitObservation (hbuilt : d.build = .ok g) (hauto : policy.autoSchedule = true)
    (method : String) (source : Reference) (objects : List Snapshot) (t : Instant) :
    Posts g policy (Lawful g False) (submitObservation method source objects t) := by
  refine posts_observe_bind (fun s q cs hobserve hq => ?_)
  let named : Pipeline := { q with nextId := q.nextId + 1 }
  have hnamed : Equipped g policy named := 
    ⟨hq.registry, hq.policy, ⟨hq.working.outages, hq.working.online⟩, hq.reachable⟩
  obtain ⟨rs, q', hfollowUps, hstill, hfollow⟩ :=
    hnamed.working.yields_followUps none (some (.ofNat q.nextId)) cs
  have henqueue := (hnamed.working.of_still hstill).enqueueAll rs
  refine ⟨rs, ?_, False.elim, fun _ => hfollow.covered hbuilt hauto hnamed hobserve⟩
  rw [freshId_bind, bind_of_ok hfollowUps, henqueue]
  simp only [still, Prod.mk.injEq] at hstill
  simp only [board, hstill, named]

/-! ## Jobs -/

theorem keeps_board_save (change : Archive → Archive) : Keeps board (save change) := by
  intro p
  unfold save
  rw [get_bind]
  split <;> rfl

theorem Posts.saving {holds : Posting → Prop} (change : Archive → Archive) :
    Posts g policy holds (ignoring (save change)) :=
  .of_keeps ((keeps_board_save change).result.bind (fun _ => .pure _))

theorem posts_recordOutcome (hbuilt : d.build = .ok g) (hauto : policy.autoSchedule = true)
    (r : Request) (j : DeriveJob) (o : RuleOutcome) :
    Posts g policy (Lawful g (policy.derivation.maxDepth < j.depth + 1)) (recordOutcome r j o) := by
  have hsettle : Posts g policy (Lawful g (policy.derivation.maxDepth < j.depth + 1))
      (settleOutcome r j o) := by
    unfold settleOutcome
    split
    · split
      · exact .of_keeps (.pure _)
      · refine (posts_commitDerived hbuilt hauto r j _ _ _).result.bind (fun found => ?_)
        cases found <;> exact .of_keeps (.pure _)
    · exact .of_keeps (.pure _)
  refine hsettle.bind (fun settled => ?_)
  refine (Posts.of_keeps steady_board.freshId).bind (fun id => ?_)
  refine (Posts.of_keeps steady_board.now).bind (fun t => ?_)
  exact (Posts.saving _).bind (fun _ => .of_keeps (steady_board.publish _ _))

theorem keeps_board_deriveFor (changed : Reference) (t : Instant) :
    Keeps board (deriveFor changed t) := by
  intro p
  unfold deriveFor
  rw [get_bind]
  cases p.engine.deriveFor (paced p.clock) p.memory changed t <;> rfl

theorem posts_dispatchDerive (hbuilt : d.build = .ok g) (hauto : policy.autoSchedule = true)
    (r : Request) (j : DeriveJob) :
    Posts g policy (Lawful g (policy.derivation.maxDepth < j.depth + 1)) (dispatchDerive r j) := by
  refine (Posts.of_keeps steady_board.now).bind (fun started => ?_)
  have hderive : Posts g policy (Lawful g (policy.derivation.maxDepth < j.depth + 1))
      (deriveAll r { j with life := j.life.start started }) := by
    refine (Posts.of_keeps (keeps_board_deriveFor _ _)).bind (fun found => ?_)
    exact .forM found (posts_recordOutcome hbuilt hauto r { j with life := j.life.start started })
  refine hderive.result.bind (fun outcome => ?_)
  refine (Posts.of_keeps steady_board.now).bind (fun ended => ?_)
  refine (Posts.saving _).bind (fun _ => ?_)
  cases outcome <;> exact .of_keeps (fun _ => rfl)

theorem posts_dispatchNormalize (hbuilt : d.build = .ok g) (hauto : policy.autoSchedule = true)
    (r : Request) (j : NormalizeJob) :
    Posts g policy (Lawful g False) (dispatchNormalize r j) := by
  have hnormalize : Posts g policy (Lawful g False) (normalize r j) := by
    refine (Posts.of_keeps (steady_board.normalizeInputs j).result).bind (fun inputs => ?_)
    rcases inputs with e | ⟨evidence, t, input⟩
    · exact .of_keeps (.pure _)
    · refine (Posts.of_keeps steady_board.now).bind (fun started => ?_)
      refine (Posts.of_keeps steady_board.now).bind (fun ended => ?_)
      refine (Posts.of_keeps Keeps.get).bind (fun p => ?_)
      rcases j.run p.registry evidence.octets started ended with ⟨j', e | objects⟩
      · exact .of_keeps (.pure _)
      · exact (posts_commitNormalized hbuilt hauto r j' input objects t).result.bind
          (fun _ => .of_keeps (.pure _))
  refine hnormalize.bind (fun ran => ?_)
  refine (Posts.of_keeps steady_board.now).bind (fun ended => ?_)
  refine (Posts.saving _).bind (fun _ => ?_)
  rcases ran with ⟨j', e | _⟩ <;> exact .of_keeps (fun _ => rfl)

end Lawful

/-! ## Scans commit nothing -/

/-- What scanning and asking for scans leave alone. -/
def ground (p : Pipeline) : Registry × Policy × Outages × Store :=
  (p.registry, p.policy, p.outages, p.store)

theorem steady_ground : Steady ground where
  clock _ _ := rfl
  ids _ _ := rfl
  bus _ _ := rfl

theorem ground_of_board {p q : Pipeline} (h : q.board = p.board) : q.ground = p.ground :=
  congrArg (fun b => (b.1, b.2.1, b.2.2.1, b.2.2.2.1)) h

theorem keeps_ground_enqueueAnnounced (rs : List Request) :
    Keeps ground (enqueueAnnounced rs) := by
  have henqueue : ∀ r, Keeps ground (enqueue r) := by
    intro r p
    by_cases hclosed : p.outages.queueClosed = true
    · rw [enqueue_of_closed r hclosed]
    · rw [enqueue_of_not_closed r hclosed]
      rfl
  have henqueueAll : ∀ rs, Keeps ground (enqueueAll rs) := by
    intro rs
    induction rs with
    | nil => exact .pure _
    | cons r rs ih => exact (henqueue r).bind (fun _ => ih.bind (fun _ => .pure _))
  exact (henqueueAll rs).bind (fun _ => Keeps.forM rs (fun r _ => steady_ground.publish _ _))

theorem keeps_ground_dispatchScan (r : Request) (j : ScanJob) :
    Keeps ground (dispatchScan r j) := by
  have hsave : ∀ j e, Keeps ground (saveScan j e) := fun j e =>
    Keeps.bind (fun p => ground_of_board (keeps_board_save _ p))
      (fun _ p => ground_of_board (keeps_board_save _ p))
  refine steady_ground.now.bind (fun started => ?_)
  refine steady_ground.now.bind (fun ended => ?_)
  refine Keeps.get.bind (fun p => ?_)
  rcases j.run p.backend p.policy.scanning.timeoutSeconds started ended with ⟨j', e | evidence⟩
  · exact ((hsave j' _).result.bind (fun _ => .pure _)).bind (fun _ => .refuse e)
  · refine (hsave j' evidence).bind (fun _ => ?_)
    refine Keeps.bind ?_ (fun rs => keeps_ground_enqueueAnnounced rs)
    exact Keeps.mapM _ (fun n _ => steady_ground.normalizeRequest j' r.correlation n)

theorem keeps_ground_submitScan (scanner : String) (input : Reference) :
    Keeps ground (submitScan scanner input) := by
  refine steady_ground.freshId.bind (fun correlation => ?_)
  refine Keeps.get.bind (fun p => ?_)
  split
  · exact .refuse _
  · refine steady_ground.now.bind (fun t => ?_)
    refine (keeps_lookUp _ _).bind (fun found => ?_)
    split
    · exact .refuse _
    · split
      · exact .refuse _
      · split
        · exact .refuse _
        · refine (steady_ground.scanRequest _ _ _).bind (fun r => ?_)
          exact (keeps_ground_enqueueAnnounced [r]).bind (fun _ => .pure _)

/-! ## Runs -/

/-- A submission, or a round in which a job is taken and run: where the work begins, with the
request that was taken, and what it leaves. -/
inductive Move : Pipeline → Option Request → Pipeline → Pipeline → Prop
  | submitScan {p : Pipeline} (scanner : String) (input : Reference) :
      Move p none p (Pipeline.submitScan scanner input p).2
  | submitObservation {p : Pipeline} (method : String) (source : Reference)
      (objects : List Snapshot) (t : Instant) :
      Move p none p (Pipeline.submitObservation method source objects t p).2
  | round {p p' : Pipeline} {k : JobKind} {r : Request} :
      p.dequeue k = (p', some r) → Move p (some r) p' (p'.runJob r).1

/-- Any number of submissions and rounds. -/
def Moves : Pipeline → Pipeline → Prop :=
  Relation.ReflTransGen (fun p q => ∃ cause start, Move p cause start q)

theorem moves_drain (budget : Nat) (p : Pipeline) : Moves p (p.drain budget).1 := by
  suffices hfrom : ∀ k summary, Moves p (drainFrom budget k summary p).1 from hfrom .scan .zero
  induction budget generalizing p with
  | zero => exact fun _ _ => .refl
  | succ budget ih =>
    intro k summary
    unfold drainFrom
    cases hline : nextLine p.queue k with
    | none => exact .refl
    | some l =>
      obtain ⟨p', r, hdequeue⟩ := exists_dequeue_of_nextLine hline
      simp only [hdequeue]
      exact .head ⟨some r, p', .round hdequeue⟩ (ih _ l _)

/-- The request is a derive job at the depth where chains end. -/
def Ends (policy : Policy) (cause : Option Request) : Prop :=
  ∃ r j, cause = some r ∧ r.job = .derive j ∧ policy.derivation.maxDepth < j.depth + 1

section Runs

variable {g : Registry} {d : Registry.Draft} {policy : Policy} {p q q' start : Pipeline}
  {cause : Option Request}

theorem Lawful.congr {ends ends' : Prop} {x : Posting} (h : Lawful g ends x)
    (hiff : ends ↔ ends') : Lawful g ends' x :=
  propext hiff ▸ h

theorem posts_dispatch (hbuilt : d.build = .ok g) (hauto : policy.autoSchedule = true)
    (hp : Equipped g policy p) {r : Request} (hscan : ∀ j, r.job ≠ .scan j) :
    Posted (Lawful g (Ends policy (some r))) p (dispatch r p).2 := by
  have hhandle : Posts g policy (Lawful g (Ends policy (some r))) (handle r) := by
    unfold handle
    split
    · rename_i j hj
      exact absurd hj (hscan j)
    · rename_i j hj
      intro q hq
      have hnot : False ↔ Ends policy (some r) := by
        refine ⟨False.elim, ?_⟩
        rintro ⟨_, j', ⟨⟩, hj', -⟩
        rw [hj] at hj'
        cases hj'
      exact propext hnot ▸ posts_dispatchNormalize hbuilt hauto r j q hq
    · rename_i j hj
      intro q hq
      have hends : policy.derivation.maxDepth < j.depth + 1 ↔ Ends policy (some r) := by
        refine ⟨fun h => ⟨r, j, rfl, hj, h⟩, ?_⟩
        rintro ⟨_, j', ⟨⟩, hj', h⟩
        rw [hj] at hj'
        cases hj'
        exact h
      exact propext hends ▸ posts_dispatchDerive hbuilt hauto r j q hq
  refine (hhandle.result.bind (fun found => ?_)) p hp
  cases found <;> exact .of_keeps (.pure _)

theorem ground_runJob (p : Pipeline) (r : Request) :
    (p.runJob r).1.ground = (dispatch r p).2.ground ∧
      (p.runJob r).1.queue.ready = (dispatch r p).2.queue.ready := by
  have hsettle : ∀ status, ((dispatch r p).2.settle r.job.id status).ground
      = (dispatch r p).2.ground := by
    intro status
    unfold settle
    cases settled (dispatch r p).2.queue r.job.id status <;> rfl
  have hpublish : (p.runJob r).1.board
      = ((dispatch r p).2.settle r.job.id (p.runJob r).2).board :=
    steady_board.publish _ _ _
  refine ⟨(ground_of_board hpublish).trans (hsettle _), ?_⟩
  exact (congrArg (fun b => b.2.2.2.2.ready) hpublish).trans (ready_settle _ _ _)

theorem Equipped.of_ground (hp : Equipped g policy p) (h : q.ground = p.ground) :
    Equipped g policy q := by
  simp only [ground, Prod.mk.injEq] at h
  obtain ⟨hregistry, hpolicy, houtages, hstore⟩ := h
  exact ⟨hregistry.trans hp.registry, hpolicy.trans hp.policy,
    ⟨houtages.trans hp.working.outages, hstore ▸ hp.working.online⟩, hstore ▸ hp.reachable⟩

/-- A move commits something, and has it scanned by whoever may, or nothing. -/
theorem Move.posts (hbuilt : d.build = .ok g) (hauto : policy.autoSchedule = true)
    (hp : Equipped g policy p) (h : Move p cause start q) :
    Equipped g policy q ∧ ∃ xs, Postings p.store xs q.store ∧
      (xs ≠ [] → q.queue.ready = (start.queue.enqueueAll (xs.flatMap Posting.queued)).ready) ∧
      ∀ x ∈ xs, Lawful g (Ends policy cause) x := by
  cases h with
  | submitScan scanner input =>
    have hground := keeps_ground_submitScan scanner input p
    have hstore : (Pipeline.submitScan scanner input p).2.store = p.store :=
      congrArg (fun b => b.2.2.2) hground
    exact ⟨hp.of_ground hground, [], hstore ▸ .nil _, fun h => absurd rfl h,
      fun x hx => absurd hx List.not_mem_nil⟩
  | submitObservation method source objects t =>
    have hposted := posts_submitObservation hbuilt hauto method source objects t p hp
    obtain ⟨xs, hxs, hqueue, hlawful⟩ := hposted.postings
    have hnone : False ↔ Ends policy none := ⟨False.elim, fun ⟨_, _, hsome, _⟩ => nomatch hsome⟩
    exact ⟨hposted.equipped hp, xs, hxs, fun _ => congrArg Queue.ready hqueue,
      fun x hx => (hlawful x hx).congr hnone⟩
  | @round _ k r hdequeue =>
    obtain ⟨hground, hready⟩ := ground_runJob start r
    have hstart : start.ground = p.ground := by
      rw [(dequeue_eq_some_iff.1 hdequeue).1]
      rfl
    have hp' := hp.of_ground hstart
    have hbefore : start.store = p.store := congrArg (fun b => b.2.2.2) hstart
    have hstore : (start.runJob r).1.store = (dispatch r start).2.store :=
      congrArg (fun b => b.2.2.2) hground
    rw [hstore, ← hbefore]
    by_cases hscan : ∃ j, r.job = .scan j
    · obtain ⟨j, hj⟩ := hscan
      have hkeeps : Keeps ground (dispatch r) := by
        unfold dispatch handle
        rw [hj]
        refine (keeps_ground_dispatchScan r j).result.bind (fun found => ?_)
        cases found <;> exact .pure _
      have hsame : (dispatch r start).2.store = start.store :=
        congrArg (fun b => b.2.2.2) (hkeeps start)
      exact ⟨hp'.of_ground (hground.trans (hkeeps start)), [], hsame ▸ .nil _,
        fun h => absurd rfl h, fun x hx => absurd hx List.not_mem_nil⟩
    · have hposted := posts_dispatch hbuilt hauto hp' (fun j hj => hscan ⟨j, hj⟩)
      obtain ⟨xs, hxs, hqueue, hlawful⟩ := hposted.postings
      exact ⟨(hposted.equipped hp').of_ground hground, xs, hxs,
        fun _ => hready.trans (congrArg Queue.ready hqueue), hlawful⟩

theorem Moves.equipped (hbuilt : d.build = .ok g) (hauto : policy.autoSchedule = true)
    (hp : Equipped g policy p) (h : Moves p q) : Equipped g policy q := by
  induction h with
  | refl => exact hp
  | tail _ hmove ih =>
    obtain ⟨cause, start, hmove⟩ := hmove
    exact (hmove.posts hbuilt hauto ih).1

/-- In every run of submissions and drains, whatever a step commits is scanned once by every scanner
that may scan it as it is stored then, unless the step is a derive job at the depth where chains
end, which has nothing scanned. -/
theorem commits_scanned (hbuilt : d.build = .ok g) (hauto : policy.autoSchedule = true)
    (hp : Equipped g policy p) (hrun : Moves p q) (hmove : Move q cause start q') :
    ∃ xs, Postings q.store xs q'.store ∧
      (xs ≠ [] → q'.queue.ready = (start.queue.enqueueAll (xs.flatMap Posting.queued)).ready) ∧
      ∀ x ∈ xs, (Ends policy cause → x.queued = []) ∧ (¬ Ends policy cause → x.Covered g) :=
  (hmove.posts hbuilt hauto (hrun.equipped hbuilt hauto hp)).2

end Runs

namespace Probing

def network : Entity :=
  .network "internet"

def host : Entity :=
  .hostname network.reference "a.example"

def subdomain : Entity :=
  .hostname network.reference "x.a.example"

/-- The scanner that may scan every host. -/
def probe : RegisteredScanner :=
  ⟨⟨"probe", none, .ofList [.hostname], .empty, .l0⟩, none⟩

/-- The rule that finds the host below the host. -/
def rule : RegisteredRule :=
  ⟨⟨"subdomain", .hostname, [], .ofList [.hostname], .l0, true, none, none⟩,
    fun _ _ _ => .returned [.ofEntity subdomain]⟩

def draft : Registry.Draft :=
  (Registry.Draft.empty.addScanner probe.definition probe.body).addRule rule.definition rule.body

/-- The policy by which commits lead to scans, and derivations to nothing. -/
def policy : Policy :=
  { Policy.default with
    autoSchedule := true
    derivation := { Policy.defaultDerivation with maxDepth := 0 } }

/-- A pipeline whose store holds the network. -/
def start : Pipeline :=
  { ofStore (Store.holding [network] (.ofSecond 100)) with registry := draft.registry, policy }

/-- The pipeline after the host was declared. -/
def declared : Pipeline :=
  (submitObservation "manual" network.reference [.ofEntity host] (.ofSecond 100) start).2

theorem built : draft.build = .ok draft.registry :=
  Registry.build_eq_ok_iff.2 ⟨by decide +kernel, rfl⟩

theorem equipped : Equipped draft.registry policy start where
  registry := rfl
  policy := rfl
  working := ⟨rfl, Store.online_holding _ _⟩
  reachable := Store.reachable_holding _ _

theorem commits_scanned_declared :
    draft.build = .ok draft.registry ∧ policy.autoSchedule = true ∧
      Equipped draft.registry policy start ∧
      ∃ xs, Postings start.store xs declared.store ∧
        declared.queue.ready = (start.queue.enqueueAll (xs.flatMap Posting.queued)).ready ∧
        declared.queue.waiting.map (Request.scans "probe" host.reference) = [true, false] ∧
        ∀ x ∈ xs, x.Covered draft.registry := by
  have hauto : policy.autoSchedule = true := rfl
  have hmove : Move start none start declared := .submitObservation _ _ _ _
  obtain ⟨xs, hxs, hqueue, hlawful⟩ := commits_scanned built hauto equipped .refl hmove
  have hwaiting : declared.queue.waiting.map (Request.scans "probe" host.reference)
      = [true, false] := by
    decide +kernel
  have hsome : xs ≠ [] := by
    rintro rfl
    have hlength : start.store.observations.length = declared.store.observations.length :=
      congrArg (fun s => s.observations.length) hxs.eq_of_nil
    exact absurd hlength (by decide +kernel)
  refine ⟨built, hauto, equipped, xs, hxs, hqueue hsome, hwaiting, fun x hx => ?_⟩
  exact (hlawful x hx).2 (fun ⟨_, _, hnone, _⟩ => nomatch hnone)

/-- The pipeline after the queue was drained as well. -/
def finish : Pipeline :=
  (declared.drain 10).1

/-- A host that was derived is not scanned, though the scanner may scan it. -/
theorem derived_unscanned :
    Moves start finish ∧ probe ∈ draft.registry.scanners.values ∧
      (∃ input, finish.store.read? subdomain.reference (.ofSecond 100) = some input ∧
        Registry.admits probe.definition input.type input.level = true) ∧
      finish.queue.waiting = [] ∧
      finish.archive.scans.values.map ScanJob.inputReference = [host.reference] := by
  refine ⟨?_, List.mem_singleton_self _, ?_, ?_, ?_⟩
  · exact .head ⟨none, start, .submitObservation _ _ _ _⟩ (moves_drain 10 declared)
  · have hread : ((finish.store.read? subdomain.reference (.ofSecond 100)).map
        (fun input => Registry.admits probe.definition input.type input.level)) = some true := by
      decide +kernel
    obtain ⟨input, hinput, hadmits⟩ := Option.map_eq_some_iff.1 hread
    exact ⟨input, hinput, hadmits⟩
  · decide +kernel
  · decide +kernel

end Probing

end Pipeline

end ScanGraph
