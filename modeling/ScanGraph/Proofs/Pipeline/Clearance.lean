/-
What plugins can do to clearance.

Normalizers and rules return objects with whatever profiles they like.  Both
are committed with the profiles that their source implies, so neither can
declare anything or raise a level beyond what is implied, but for one hole: an
object that carries the reference of its own source keeps its profile.
Normalizers never get such an object through; rules do.

## What is proved

For every pipeline with a reachable store, whatever the rules and normalizers are and
whatever profiles they emit: what a rule derived is committed without touching declared
clearance and without raising a level beyond what is implied, if and only if none of its
objects carries the reference of the root, or the store does not take it.  What a
normalizer found is always committed so.

## What is not

`declared_level_changes` is a rule that returns its own root at another level; after the
commit that level is declared.  The statement is about one dispatch; what a commit leads
to is a dispatch of its own.  For a normalizer the input that is read must stand under
the reference of the job, which holds of every job that was made of a snapshot.
-/
import ScanGraph.Proofs.Clearance.Implied
import ScanGraph.Proofs.Pipeline.Frame
import ScanGraph.Proofs.Store.Reachable

namespace ScanGraph

namespace Pipeline

open ScanGraph.Action

/-! ## The store after an observation -/

/-- The store takes observations made on a reference at a time. -/
structure Accepts (p : Pipeline) (source : Reference) (t : Instant) : Prop where
  intact : p.outages.storeCorrupted = false
  writable : p.outages.storeReadOnly = false
  online : p.store.offline = false
  known : (p.store.visible? source t).isSome = true

/-- The store after an observation, which is the one before if the observation was refused. -/
def storeAfter (p : Pipeline) (o : Observation) : Store :=
  match p.observed o with
  | .ok done => done.1
  | .error _ => p.store

section Observe

variable {p : Pipeline} {o : Observation}

theorem storeAfter_of_accepts (h : p.Accepts o.source o.validTime) :
    p.storeAfter o = (p.store.commit o).1 := by
  have hobserve : p.store.observe o = .ok (p.store.commit o) :=
    Store.observe_eq_ok_iff.2 ⟨h.online, h.known, rfl⟩
  simp [storeAfter, observed, h.intact, h.writable, hobserve]

theorem storeAfter_of_not_accepts (h : ¬ p.Accepts o.source o.validTime) :
    p.storeAfter o = p.store := by
  unfold storeAfter observed
  by_cases hintact : p.outages.storeCorrupted = true
  · simp [hintact]
  · by_cases hwritable : p.outages.storeReadOnly = true
    · simp [hintact, hwritable]
    · simp only [hintact, hwritable, Bool.false_eq_true, if_false]
      cases hobserve : p.store.observe o with
      | error e => rfl
      | ok done =>
        obtain ⟨honline, hknown, -⟩ := Store.observe_eq_ok_iff.1 hobserve
        exact absurd
          ⟨Bool.eq_false_iff.2 hintact, Bool.eq_false_iff.2 hwritable, honline, hknown⟩ h

theorem store_observe_bind {β : Type} {f : List Commit → Action β}
    (hf : ∀ cs, Keeps store (f cs)) (p : Pipeline) (o : Observation) :
    ((observe o >>= f) p).2.store = p.storeAfter o := by
  cases hobserved : p.observed o with
  | ok done =>
    rw [bind_of_ok (observe_of_ok hobserved), hf done.2]
    simp [storeAfter, hobserved]
  | error f =>
    rw [bind_of_error (observe_of_error hobserved)]
    simp [storeAfter, hobserved]

end Observe

/-! ## Rules -/

theorem store_commitDerived (r : Request) (j : DeriveJob) (rule : String) (root : Snapshot)
    (objects : List Snapshot) (p : Pipeline) :
    (commitDerived r j rule root objects p).2.store
      = p.storeAfter ⟨rule, root.reference, some j.id, j.commit.validTime, root.imply objects⟩ := by
  refine store_observe_bind (fun cs => Keeps.get.bind (fun q => ?_)) p _
  split
  · exact .pure _
  · exact keeps_store_announceCommits r _ cs

/-! ## Normalizers -/

/-- What a normalize job finds when it is run on its evidence. -/
def Finds (p : Pipeline) (j : NormalizeJob) (objects : List Snapshot) : Prop :=
  ∃ evidence started ended j', p.archive.evidence.get? j.scan.id = some evidence ∧
    j.run p.registry evidence.octets started ended = (j', .ok objects)

section Normalize

variable {p q : Pipeline} {j : NormalizeJob}

theorem store_commitNormalized (r : Request) (j : NormalizeJob) (input : Snapshot)
    (objects : List Snapshot) (t : Instant) (p : Pipeline) :
    (commitNormalized r j input objects t p).2.store
      = p.storeAfter
          ⟨j.normalizer.id, j.scan.inputReference, some j.id, t, input.imply objects⟩ :=
  store_observe_bind (fun cs => keeps_store_announceCommits r none cs) p _

theorem evidenceOf_eq_ok {evidence : Evidence} (h : evidenceOf j p = (.ok evidence, q)) :
    q = p ∧ p.archive.evidence.get? j.scan.id = some evidence := by
  unfold evidenceOf at h
  rw [get_bind] at h
  cases hget : p.archive.evidence.get? j.scan.id with
  | none => rw [hget] at h; cases h
  | some e => rw [hget] at h; cases h; exact ⟨rfl, rfl⟩

theorem normalizeTime_eq_ok {t : Instant} (h : normalizeTime j p = (.ok t, q)) :
    ∃ clock, q = { p with clock := clock } := by
  unfold normalizeTime at h
  cases hended : j.scan.life.endedAt with
  | none => rw [hended] at h; cases h; exact ⟨_, rfl⟩
  | some t' => rw [hended] at h; cases h; exact ⟨p.clock, rfl⟩

theorem lookUp_eq_ok {r : Reference} {t : Instant} {found : Option Snapshot}
    (h : lookUp r t p = (.ok found, q)) : q = p ∧ p.store.read? r t = found := by
  unfold lookUp at h
  rw [get_bind] at h
  cases hget : p.store.get r t with
  | error e => rw [hget] at h; cases h
  | ok x =>
    rw [hget] at h
    cases h
    obtain ⟨-, hread⟩ := Store.guarded_eq_ok_iff.1 hget
    exact ⟨rfl, Except.ok.inj hread⟩

/-- The inputs of a normalize job come from the archive and the store, of which nothing changes. -/
theorem normalizeInputs_eq_ok {evidence : Evidence} {t : Instant} {input : Snapshot}
    (h : normalizeInputs j p = (.ok (evidence, t, input), q)) :
    p.archive.evidence.get? j.scan.id = some evidence ∧
      p.store.read? j.scan.inputReference t = some input ∧
      ∃ clock, q = { p with clock := clock } := by
  obtain ⟨e, p₁, hevidence, h⟩ := bind_eq_ok_iff.1 h
  obtain ⟨t', p₂, htime, h⟩ := bind_eq_ok_iff.1 h
  obtain ⟨found, p₃, hlookUp, h⟩ := bind_eq_ok_iff.1 h
  obtain ⟨rfl, hget⟩ := evidenceOf_eq_ok hevidence
  obtain ⟨clock, rfl⟩ := normalizeTime_eq_ok htime
  obtain ⟨rfl, hread⟩ := lookUp_eq_ok hlookUp
  cases found with
  | none => cases h
  | some x => cases h; exact ⟨hget, hread, clock, rfl⟩

/-- The store after an observation is the one before or that of the commit. -/
theorem storeAfter_eq_or (p : Pipeline) (o : Observation) :
    p.storeAfter o = p.store ∨ p.storeAfter o = (p.store.commit o).1 := by
  rcases Classical.em (p.Accepts o.source o.validTime) with h | h
  · exact .inr (storeAfter_of_accepts h)
  · exact .inl (storeAfter_of_not_accepts h)

/-- A normalize job leaves the store alone, or what it finds is committed with the clearance that
its input implies. -/
theorem store_normalize (r : Request) (j : NormalizeJob) (p : Pipeline) :
    (normalize r j p).2.store = p.store ∨
      ∃ input objects t o, p.store.read? j.scan.inputReference t = some input ∧
        p.Finds j objects ∧ o.result = input.imply objects ∧
        (normalize r j p).2.store = (p.store.commit o).1 := by
  cases hinputs : normalizeInputs j p with
  | mk outcome q =>
    cases outcome with
    | error f =>
      have hq : q.store = p.store := by
        have hkeeps := steady_store.normalizeInputs j p
        rwa [hinputs] at hkeeps
      have hnormalize : (normalize r j p).2.store = q.store :=
        view_result_bind_of_error hinputs (fun _ => Keeps.pure (j, _))
      exact .inl (hnormalize.trans hq)
    | ok found =>
      obtain ⟨evidence, t, input⟩ := found
      obtain ⟨hevidence, hread, clock, rfl⟩ := normalizeInputs_eq_ok hinputs
      unfold normalize
      rw [bind_of_ok (result_of_ok hinputs)]
      simp only [now_bind, get_bind]
      generalize hrun : j.run _ _ _ _ = run
      obtain ⟨j', outcome⟩ := run
      cases outcome with
      | error e => exact .inl rfl
      | ok objects =>
        simp only [bind_pure_snd, result_snd, store_commitNormalized]
        rcases storeAfter_eq_or _ _ with hafter | hafter
        · exact .inl hafter
        · exact .inr ⟨input, objects, t, _, hread, ⟨evidence, _, _, j', hevidence, hrun⟩, rfl,
            hafter⟩

/-- What a normalize job finds is kept from the output of a normalizer for the object of the job. -/
theorem run_eq_ok {registry : Registry} {octets : List UInt8} {started ended : Instant}
    {j' : NormalizeJob} {objects : List Snapshot}
    (h : j.run registry octets started ended = (j', .ok objects)) :
    ∃ d input output, j.scan.snapshot = .ok input ∧
      objects ⊆ NormalizerDefinition.keep d input.reference output := by
  unfold NormalizeJob.run at h
  cases hn : registry.normalizers.get? j.normalizer.id with
  | none => simp [hn, NormalizeJob.failWith] at h
  | some n =>
    cases hsnapshot : j.scan.snapshot with
    | error e => simp [hn, hsnapshot, NormalizeJob.failWith] at h
    | ok input =>
      simp only [hn, hsnapshot] at h
      generalize n.body _ input octets = outcome at h
      unfold NormalizeJob.conclude at h
      split at h
      · rename_i output
        simp only [Prod.mk.injEq, Except.ok.injEq] at h
        exact ⟨n.definition, input, output, rfl, fun o ho => h.2 ▸ ho⟩
      · simp only [Prod.mk.injEq, Except.ok.injEq] at h
        exact ⟨n.definition, input, [], rfl, h.2 ▸ List.nil_subset _⟩
      · simp [NormalizeJob.failWith] at h
      · simp [NormalizeJob.failWith] at h

theorem reference_ne_of_mem_keep {d : NormalizerDefinition} {input : Reference}
    {output : List Snapshot} {o : Snapshot} (h : o ∈ d.keep input output) :
    o.reference ≠ input := by
  have hfilter := (distinctBy_sublist Snapshot.reference _).subset h
  have hboth := (List.mem_filter.1 hfilter).2
  rw [Bool.and_eq_true] at hboth
  exact of_decide_eq_true hboth.1

/-- What a normalize job finds does not carry the reference of the object that was scanned. -/
theorem Finds.reference_ne {objects : List Snapshot} (h : p.Finds j objects) :
    ∃ input, j.scan.snapshot = .ok input ∧ ∀ o ∈ objects, o.reference ≠ input.reference := by
  obtain ⟨evidence, started, ended, j', -, hrun⟩ := h
  obtain ⟨d, input, output, hsnapshot, hsub⟩ := run_eq_ok hrun
  exact ⟨input, hsnapshot, fun o ho => reference_ne_of_mem_keep (hsub ho)⟩

end Normalize

/-! ## The guard of the pipeline -/

/-- A rule's output leaves declared clearance alone and raises no level beyond what is implied,
whatever profiles it comes with, exactly if none of its objects carries the reference of the root or
the store does not take it.  What a normalizer finds always does so, if the job was made for the
object that it is about. -/
theorem output_guarded_iff (p : Pipeline) (hp : p.store.Reachable) :
    (∀ (r : Request) (j : DeriveJob) (rule : String) (root : Snapshot) (es : List Entity),
      (∀ objects, objects.map Snapshot.entity = es →
        p.store.Guarded (root.impliedLevel objects)
          (commitDerived r j rule root objects p).2.store) ↔
      (p.Accepts root.reference j.commit.validTime →
        root.reference ∉ es.map Entity.reference)) ∧
    (∀ (r : Request) (j : NormalizeJob),
      (∀ input, j.scan.snapshot = .ok input → input.reference = j.scan.inputReference) →
      (normalize r j p).2.store = p.store ∨
        ∃ input objects t, p.store.read? j.scan.inputReference t = some input ∧
          p.Finds j objects ∧
          p.store.Guarded (input.impliedLevel objects) (normalize r j p).2.store) := by
  refine ⟨fun r j rule root es => ⟨fun hguarded haccepts hmem => ?_, fun hfree objects hes => ?_⟩,
    fun r j hjob => ?_⟩
  · obtain ⟨objects, hes, hbreaks⟩ := Store.exists_not_guarded_commit p.store hmem
    have h := hguarded objects hes
    rw [store_commitDerived, storeAfter_of_accepts haccepts] at h
    exact hbreaks _ _ rfl h
  · rw [store_commitDerived]
    rcases Classical.em (p.Accepts root.reference j.commit.validTime) with haccepts | hrefuses
    · rw [storeAfter_of_accepts haccepts]
      refine Store.guarded_commit_imply p.store rfl (fun hmem => hfree haccepts ?_)
      rw [← hes, List.map_map]
      exact hmem
    · rw [storeAfter_of_not_accepts hrefuses]
      exact Store.Guarded.refl _ _
  · rcases store_normalize r j p with
      hstore | ⟨input, objects, t, o, hread, hfinds, hresult, hstore⟩
    · exact .inl hstore
    · refine .inr ⟨input, objects, t, hread, hfinds, ?_⟩
      rw [hstore]
      refine Store.guarded_commit_imply p.store hresult (fun hmem => ?_)
      obtain ⟨x, hx, hreference⟩ := List.mem_map.1 hmem
      obtain ⟨scanned, hsnapshot, hne⟩ := hfinds.reference_ne
      obtain ⟨e, he, rfl⟩ := Option.map_eq_some_iff.1 hread
      have hinput : (p.store.snapshot t j.scan.inputReference e).reference
          = j.scan.inputReference := hp.wellFormed.reference_of_visible? he
      exact hne x hx (hreference.trans (hinput.trans (hjob scanned hsnapshot).symm))

section Network

/-- A pipeline without plugins that works on a store. -/
def ofStore (s : Store) : Pipeline :=
  ⟨.empty, .default, fun _ _ => none, s, .empty, .empty, .empty, ⟨1, [], 0, []⟩, .none, .idle, 0, 0⟩

/-- The internet, declared at a level. -/
def internet (l : Level) : Snapshot :=
  (Snapshot.ofEntity (.network "internet")).declare l

/-- The pipeline whose store holds the internet, declared at `l1`. -/
def declaredInternet : Pipeline :=
  ofStore (Store.empty.put (internet .l1) default).1

def internetJob : DeriveJob :=
  .ofCommit default (.of .created (internet .l1).reference default)

def internetRequest : Request :=
  ⟨.derive internetJob, default, none⟩

theorem reachable_declaredInternet : declaredInternet.store.Reachable :=
  .insert (o := internet .l1) (t := default) .empty rfl

theorem accepts_declaredInternet :
    declaredInternet.Accepts (internet .l1).reference internetJob.commit.validTime where
  intact := rfl
  writable := rfl
  online := rfl
  known := by
    have hvisible : declaredInternet.store.visible? (internet .l1).reference default
        = some (internet .l1).entity :=
      (Store.visible?_mergeProfile (Store.empty.write (internet .l1).entity default).1 _ _ _).trans
        (Store.visible?_write_of_none (e := (internet .l1).entity) rfl)
    exact Option.isSome_iff_exists.2 ⟨_, hvisible⟩

theorem output_guarded_iff_declaredInternet :
    declaredInternet.store.Reachable ∧
      (∀ objects, objects.map Snapshot.entity = [.network "intranet"] →
        declaredInternet.store.Guarded ((internet .l1).impliedLevel objects)
          (commitDerived internetRequest internetJob "rule" (internet .l1) objects
            declaredInternet).2.store) ∧
      ¬ ∀ objects, objects.map Snapshot.entity = [.network "internet"] →
        declaredInternet.store.Guarded ((internet .l1).impliedLevel objects)
          (commitDerived internetRequest internetJob "rule" (internet .l1) objects
            declaredInternet).2.store := by
  have hiff := (output_guarded_iff declaredInternet reachable_declaredInternet).1
    internetRequest internetJob "rule" (internet .l1)
  refine ⟨reachable_declaredInternet, (hiff _).2 (fun _ => by decide), fun hguarded => ?_⟩
  exact (hiff _).1 hguarded accepts_declaredInternet (List.mem_singleton_self _)

/-- A rule that returns its root at another declared level declares that level. -/
theorem declared_level_changes :
    declaredInternet.store.Reachable ∧
      declaredInternet.store.profiles.get? (internet .l1).reference
        = some (.declared (internet .l1).reference .l1) ∧
      (commitDerived internetRequest internetJob "rule" (internet .l1) [internet .l4]
        declaredInternet).2.store.profiles.get? (internet .l1).reference
        = some (.declared (internet .l1).reference .l4) := by
  have hclaiming : [internet .l4]
      = Store.claiming (internet .l1).reference .l4 [.network "internet"] := by decide
  refine ⟨reachable_declaredInternet, ?_, ?_⟩
  · exact Store.get?_mergeProfile_of_declared (p := .declared (internet .l1).reference .l1) rfl
  · rw [store_commitDerived, storeAfter_of_accepts accepts_declaredInternet, hclaiming]
    exact Store.get?_commit_claiming _ (List.mem_singleton_self _) rfl

end Network

end Pipeline

end ScanGraph
