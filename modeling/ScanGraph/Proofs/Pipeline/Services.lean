/-
What the services do where none is out of order.

Where the store is online, the archive takes what is saved and the queue takes
what is queued, the actions that use them cannot fail, and what they leave can be
written down.  Most of them change nothing but the clock, the ids and the bus,
which nothing else depends on: such an action yields its result (`Yields`).

`Pipeline.Working` says that no service is out of order and the store is online.
`Yields` is the form that most equations take: the action comes to such a result and
changes nothing but clock, ids and bus.  Which result it is may be left open where it
depends on these, such as the id of a new job; then it is described (`IsScan`,
`IsDerive`, `IsNormalize`, `IsFollowUps`) instead of computed.

The lemmas after `Working` are equations about the actions that do change something:
saving, queueing, observing, and what a list of commits leads to.  With a service out of
order none of them holds, and what happens then is `Pipeline.Conclusion` for the archive
and `Pipeline.Discipline` for the queue.
-/
import ScanGraph.Proofs.Pipeline.Discipline

namespace ScanGraph

theorem exists_of_forall₂ {α β : Type} {rel : α → β → Prop} {as : List α} {bs : List β}
    (h : List.Forall₂ rel as bs) : ∀ b ∈ bs, ∃ a ∈ as, rel a b := by
  induction h with
  | nil => exact fun b hb => absurd hb List.not_mem_nil
  | cons hab _ ih =>
    refine List.forall_mem_cons.2 ⟨⟨_, List.mem_cons_self, hab⟩, fun b hb => ?_⟩
    obtain ⟨a, ha, hrel⟩ := ih b hb
    exact ⟨a, List.mem_cons_of_mem _ ha, hrel⟩

/-- Every service works, and the store is online. -/
structure Pipeline.Working (p : Pipeline) : Prop where
  outages : p.outages = .none
  online : p.store.offline = false

namespace Pipeline

open ScanGraph.Action

/-- All of a pipeline but its clock, its ids and its bus. -/
def still (p : Pipeline) :
    Registry × Policy × ScannerBody × Store × Memory × Queue × Archive × Outages × Workers :=
  (p.registry, p.policy, p.backend, p.store, p.memory, p.queue, p.archive, p.outages, p.workers)

theorem steady_still : Steady still where
  clock _ _ := rfl
  ids _ _ := rfl
  bus _ _ := rfl

/-- An action comes to such a result and changes nothing but the clock, the ids and the bus. -/
def Yields {α : Type} (act : Action α) (p : Pipeline) (post : α → Prop) : Prop :=
  ∃ a q, act p = (.ok a, q) ∧ q.still = p.still ∧ post a

section Yields

variable {α β : Type} {act : Action α} {f : α → Action β} {p q : Pipeline} {post : α → Prop}

theorem Yields.pure {a : α} (h : post a) (p : Pipeline) : Yields (Pure.pure a) p post :=
  ⟨a, p, rfl, rfl, h⟩

theorem Yields.bind {post' : β → Prop} (h : Yields act p post)
    (hf : ∀ a q, q.still = p.still → post a → Yields (f a) q post') :
    Yields (act >>= f) p post' := by
  obtain ⟨a, q, hact, hstill, ha⟩ := h
  obtain ⟨b, s, hb, hstill', hpost⟩ := hf a q hstill ha
  exact ⟨b, s, (bind_of_ok hact).trans hb, hstill'.trans hstill, hpost⟩

theorem Yields.imp {post' : α → Prop} (h : Yields act p post) (himp : ∀ a, post a → post' a) :
    Yields act p post' := by
  obtain ⟨a, q, hact, hstill, ha⟩ := h
  exact ⟨a, q, hact, hstill, himp a ha⟩

/-- Actions one after the other, where what each comes to depends on nothing that they change. -/
theorem yields_mapM {f : α → Action β} {R : α → β → Prop} (l : List α)
    (h : ∀ a ∈ l, ∀ q, q.still = p.still → Yields (f a) q (R a)) :
    Yields (l.mapM f) p (fun bs => List.Forall₂ R l bs) := by
  induction l generalizing p with
  | nil => exact .pure .nil p
  | cons a l ih =>
    rw [List.mapM_cons]
    refine (h a List.mem_cons_self p rfl).bind (fun b q hq hb => ?_)
    refine (ih (fun a ha s hs => h a (List.mem_cons_of_mem _ ha) s (hs.trans hq))).bind
      (fun bs s _ hbs => ?_)
    exact .pure (.cons hb hbs) s

theorem freshId_bind {β : Type} (f : Uuid → Action β) (p : Pipeline) :
    (freshId >>= f) p = f (.ofNat p.nextId) { p with nextId := p.nextId + 1 } := rfl

theorem yields_now (p : Pipeline) : Yields now p (fun _ => True) :=
  ⟨_, _, rfl, rfl, trivial⟩

theorem yields_freshId (p : Pipeline) : Yields freshId p (fun _ => True) :=
  ⟨_, _, rfl, rfl, trivial⟩

theorem yields_get (p : Pipeline) : Yields (get : Action Pipeline) p (fun s => s = p) :=
  ⟨p, p, rfl, rfl, rfl⟩

theorem yields_publish (correlation : Option Uuid) (payload : EventPayload) (p : Pipeline) :
    Yields (publish correlation payload) p (fun _ => True) :=
  ⟨_, _, rfl, rfl, trivial⟩

theorem yields_forM {f : α → Action Unit} (l : List α)
    (h : ∀ a ∈ l, ∀ q, Yields (f a) q (fun _ => True)) : Yields (l.forM f) p (fun _ => True) := by
  induction l generalizing p with
  | nil => exact .pure trivial p
  | cons a l ih =>
    exact (h a List.mem_cons_self p).bind
      (fun _ _ _ _ => ih (fun b hb => h b (List.mem_cons_of_mem _ hb)))

/-! ## Requests -/

def IsScan (organization : String) (correlation : Option Uuid) (input : Snapshot)
    (d : ScannerDefinition) (r : Request) : Prop :=
  ∃ id t, r = ⟨.scan (.ofSnapshot id ⟨d.id, d.version⟩ input organization), t, correlation⟩

theorem yields_scanRequest (d : ScannerDefinition) (input : Snapshot) (correlation : Option Uuid)
    (p : Pipeline) : Yields (scanRequest d input correlation) p
      (IsScan p.policy.organization correlation input d) :=
  ⟨_, _, rfl, rfl, _, _, rfl⟩

/-- The request is for the derive job of a commit. -/
def IsDerive (parent : Option (DeriveJob × Visit)) (correlation : Option Uuid) (c : Commit)
    (r : Request) : Prop :=
  ∃ id t, r = ⟨.derive (Worker.nextJob parent id c), t, correlation⟩

theorem yields_deriveRequest (parent : Option (DeriveJob × Visit)) (correlation : Option Uuid)
    (c : Commit) (p : Pipeline) :
    Yields (deriveRequest parent correlation c) p (IsDerive parent correlation c) :=
  ⟨_, _, rfl, rfl, .ofNat p.nextId, instantOf p.clock, rfl⟩

/-- The requests are for the scans that a commit leads to. -/
def IsScans (p : Pipeline) (correlation : Option Uuid) (c : Commit) (rs : List Request) : Prop :=
  match p.policy.autoSchedule, p.store.read? c.reference c.validTime with
  | true, some input =>
      List.Forall₂
        (fun s => IsScan p.policy.organization correlation input s.definition)
        (p.registry.scannersFor input.type input.level) rs
  | _, _ => rs = []

/-- The requests are for the jobs that commits lead to: first the scans of each, then the derive job
of each. -/
def IsFollowUps (p : Pipeline) (parent : Option (DeriveJob × Visit)) (correlation : Option Uuid)
    (cs : List Commit) (rs : List Request) : Prop :=
  ∃ groups derives, rs = groups.flatten ++ derives ∧
    List.Forall₂ (IsScans p correlation) cs groups ∧
    List.Forall₂ (IsDerive parent correlation) cs derives

/-- The request is for a normalizer that reads the evidence of a scan. -/
def IsNormalize (j : ScanJob) (correlation : Option Uuid) (n : RegisteredNormalizer)
    (r : Request) : Prop :=
  ∃ id t, r = ⟨.normalize (.ofScan id j ⟨n.definition.id, none⟩), t, correlation⟩

theorem yields_normalizeRequest (j : ScanJob) (correlation : Option Uuid)
    (n : RegisteredNormalizer) (p : Pipeline) :
    Yields (normalizeRequest j correlation n) p (IsNormalize j correlation n) :=
  ⟨_, _, rfl, rfl, _, _, rfl⟩

end Yields

section Working

variable {p q : Pipeline}

theorem Working.of_still (h : p.Working) (hstill : q.still = p.still) : q.Working := by
  simp only [still, Prod.mk.injEq] at hstill
  obtain ⟨-, -, -, hstore, -, -, -, houtages, -⟩ := hstill
  exact ⟨houtages.trans h.outages, hstore ▸ h.online⟩

/-! ## Reading and writing -/

theorem Working.get (h : p.Working) (r : Reference) (t : Instant) :
    p.store.get r t = .ok (p.store.read? r t) :=
  Store.guarded_eq_ok_iff.2 ⟨h.online, rfl⟩

theorem Working.lookUp (h : p.Working) (r : Reference) (t : Instant) :
    lookUp r t p = (.ok (p.store.read? r t), p) := by
  unfold Pipeline.lookUp
  rw [get_bind, h.get]
  rfl

theorem Working.observed (h : p.Working) {o : Observation}
    (hsource : (p.store.visible? o.source o.validTime).isSome = true) :
    p.observed o = .ok (p.store.commit o) := by
  have hobserve : p.store.observe o = .ok (p.store.commit o) :=
    Store.observe_eq_ok_iff.2 ⟨h.online, hsource, rfl⟩
  unfold Pipeline.observed
  rw [h.outages, hobserve]
  rfl

theorem save_of_online (change : Archive → Archive) (h : p.outages.archiveOffline = false) :
    save change p = (.ok (), { p with archive := change p.archive }) := by
  unfold save
  rw [get_bind, if_neg (Bool.eq_false_iff.1 h)]
  rfl

theorem Working.save (h : p.Working) (change : Archive → Archive) :
    save change p = (.ok (), { p with archive := change p.archive }) :=
  save_of_online change (h.outages ▸ rfl)

theorem Working.saveScan (h : p.Working) (j : ScanJob) (e : Evidence) :
    saveScan j e p
      = (.ok (), { p with archive := (p.archive.saveJob (.scan j)).saveEvidence j.id e }) := by
  unfold Pipeline.saveScan
  rw [bind_of_ok (h.save _)]
  exact save_of_online _ (h.outages ▸ rfl)

theorem ignoring_of_ok {act : Action Unit} (h : act p = (.ok (), q)) :
    ignoring act p = (.ok (), q) := by
  unfold ignoring
  rw [bind_of_ok (result_of_ok h)]
  rfl

/-! ## Follow-up jobs -/

theorem yields_scansOf (input : Snapshot) (correlation : Option Uuid) (p : Pipeline) :
    Yields (scansOf input correlation) p (List.Forall₂
      (fun s => IsScan p.policy.organization correlation input s.definition)
      (p.registry.scannersFor input.type input.level)) := by
  refine (yields_get p).bind (fun s q hq hs => ?_)
  subst hs
  refine yields_mapM _ (fun x _ q' hq' => ?_)
  have hpolicy : q'.policy = s.policy := congrArg (fun v => v.2.1) (hq'.trans hq)
  exact hpolicy ▸ yields_scanRequest x.definition input correlation q'

theorem Working.yields_scansAfter (h : p.Working) (hauto : p.policy.autoSchedule = true)
    (correlation : Option Uuid) (c : Commit) :
    Yields (scansAfter correlation c) p (IsScans p correlation c) := by
  unfold scansAfter Yields IsScans
  rw [bind_of_ok (result_of_ok (h.lookUp c.reference c.validTime)), hauto]
  cases p.store.read? c.reference c.validTime with
  | none => exact ⟨[], p, rfl, rfl, rfl⟩
  | some input => exact yields_scansOf input correlation p

theorem IsScans.of_still {correlation : Option Uuid} {c : Commit} {rs : List Request}
    (h : IsScans q correlation c rs) (hstill : q.still = p.still) :
    IsScans p correlation c rs := by
  simp only [still, Prod.mk.injEq] at hstill
  obtain ⟨hregistry, hpolicy, -, hstore, -⟩ := hstill
  unfold IsScans at h ⊢
  rwa [← hregistry, ← hpolicy, ← hstore]

theorem Working.yields_automaticScans (h : p.Working) (cs : List Commit)
    (correlation : Option Uuid) : Yields (automaticScans cs correlation) p
      (fun rs => ∃ groups, rs = groups.flatten ∧ List.Forall₂ (IsScans p correlation) cs groups) := by
  refine (yields_get p).bind (fun s q hq hs => ?_)
  subst hs
  cases hauto : s.policy.autoSchedule with
  | false =>
    refine .pure ⟨cs.map (fun _ => []), (List.flatten_eq_nil_iff.2 ?_).symm, ?_⟩ q
    · intro rs hrs
      obtain ⟨c, -, rfl⟩ := List.mem_map.1 hrs
      rfl
    · refine List.forall₂_map_right_iff.2 (List.forall₂_same.2 (fun c _ => ?_))
      unfold IsScans
      rw [hauto]
  | true =>
    have hscans : Yields (cs.mapM (scansAfter correlation)) q
        (List.Forall₂ (IsScans s correlation) cs) := by
      refine yields_mapM cs (fun c _ q' hq' => ?_)
      have hstill : q'.still = s.still := hq'.trans hq
      have hauto' : q'.policy.autoSchedule = true :=
        (congrArg (fun v => v.2.1.autoSchedule) hstill).trans hauto
      exact ((h.of_still hstill).yields_scansAfter hauto' correlation c).imp
        (fun rs hrs => hrs.of_still hstill)
    exact hscans.bind (fun groups q' _ hgroups => .pure ⟨groups, rfl, hgroups⟩ q')

theorem Working.yields_followUps (h : p.Working) (parent : Option (DeriveJob × Visit))
    (correlation : Option Uuid) (cs : List Commit) :
    Yields (followUps parent correlation cs) p (IsFollowUps p parent correlation cs) := by
  refine (h.yields_automaticScans cs correlation).bind (fun scans q _ hscans => ?_)
  obtain ⟨groups, rfl, hgroups⟩ := hscans
  have hderives := yields_mapM (p := q) (R := IsDerive parent correlation) cs
    (fun c _ q' _ => yields_deriveRequest parent correlation c q')
  exact hderives.bind (fun derives q' _ hderives =>
    .pure ⟨groups, derives, rfl, hgroups, hderives⟩ q')

/-! ## Queueing -/

theorem Working.enqueueAll (h : p.Working) (rs : List Request) :
    enqueueAll rs p = (.ok (rs.map Queue.handleOf), { p with queue := p.queue.enqueueAll rs }) := by
  induction rs generalizing p with
  | nil => rfl
  | cons r rs ih =>
    have hopen : ¬ p.outages.queueClosed = true := by
      rw [h.outages]
      decide
    have hnext : Working { p with queue := p.queue.enqueue r } := ⟨h.outages, h.online⟩
    unfold Pipeline.enqueueAll
    rw [bind_of_ok (enqueue_of_not_closed r hopen), bind_of_ok (ih hnext)]
    rfl

theorem Working.enqueueAnnounced (h : p.Working) (rs : List Request) :
    ∃ q, enqueueAnnounced rs p = (.ok (), q) ∧
      q.still = { p with queue := p.queue.enqueueAll rs }.still := by
  unfold Pipeline.enqueueAnnounced
  rw [bind_of_ok (h.enqueueAll rs)]
  obtain ⟨_, q, hq, hstill, -⟩ := yields_forM (p := { p with queue := p.queue.enqueueAll rs }) rs
    (fun r _ q => yields_publish r.correlation (.jobEnqueued r.job.id r.job.kind) q)
  exact ⟨q, hq, hstill⟩

/-- The commits of a job are announced, and what they lead to is queued. -/
theorem Working.announceCommits (h : p.Working) (r : Request) (parent : Option (DeriveJob × Visit))
    (cs : List Commit) :
    ∃ q rs, announceCommits r parent cs p = (.ok (), q) ∧
      q.still = { p with queue := p.queue.enqueueAll rs }.still ∧
      IsFollowUps p parent r.correlation cs rs := by
  unfold Pipeline.announceCommits
  cases cs with
  | nil => exact ⟨p, [], rfl, rfl, [], [], rfl, .nil, .nil⟩
  | cons c cs =>
    obtain ⟨_, s, hs, hstill, -⟩ :=
      yields_publish r.correlation (.objectsCommitted r.job.id (c :: cs)) p
    obtain ⟨rs, s', hs', hstill', groups, derives, hrs, hgroups, hderives⟩ :=
      (h.of_still hstill).yields_followUps parent r.correlation (c :: cs)
    obtain ⟨q, hq, hstill''⟩ := (h.of_still (hstill'.trans hstill)).enqueueAnnounced rs
    have hgroups' := hgroups.imp (fun _ _ hrs => hrs.of_still hstill)
    refine ⟨q, rs, ?_, ?_, groups, derives, hrs, hgroups', hderives⟩
    · simp only [List.isEmpty_cons, Bool.false_eq_true, if_false]
      rw [bind_of_ok hs, bind_of_ok hs', hq]
    · simp only [still, Prod.mk.injEq] at hstill hstill' hstill'' ⊢
      simp only [hstill, hstill', hstill'', and_self]

end Working

end Pipeline

end ScanGraph
