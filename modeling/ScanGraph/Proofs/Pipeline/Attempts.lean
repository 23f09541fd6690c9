/-
What the recorded attempts are credited with.

A worker records every outcome of a derive job once it is settled.  What a rule
derived is committed first, so the objects that the attempt is credited with are
visible by then, and stay so while others go on.  There is one exception: where
the chain has been through the rule with that root, the output is thrown away and
the attempt is credited with it all the same: `recorded_output_known`.

## What is proved

In every run of a crew, for every step that belongs to the dispatch of a request: the
attempts that are new after it are credited with objects visible by then, at the time of
the commit that led there, or the chain has been through the rule with that root.  And
in that one case, wherever an outcome is recorded and the archive is online, the attempt
is recorded with the whole output and the store is left as it was.

## What is not

That the output was thrown away cannot be told from the attempt;
`recorded_output_unknown` drains a queue and ends with an attempt that is credited with
an object which is not visible.  Nothing is said about objects that were visible before
and are derived again: they count as credited, whoever made them.
-/
import ScanGraph.Proofs.Pipeline.Calls
import ScanGraph.Proofs.Pipeline.Crew

namespace ScanGraph

/-- The evaluation came to an output. -/
def Evaluation.isDerived : Evaluation → Bool
  | derived _ _ => true
  | _ => false

/-- An attempt is recorded by a derive job, and what it is credited with is visible, unless the
chain has been through its rule with its root. -/
def Attempt.Credited (r : Request) (s : Store) (a : Attempt) : Prop :=
  ∃ j, r.job = .derive j ∧ a.job = some j.id ∧
    (a.evaluation.isDerived = true → ⟨a.rule, a.root⟩ ∉ j.lineage →
      ∀ ref ∈ a.output, s.Known j.commit.validTime ref)

namespace Pipeline

/-- Time passes, and the attempts that are recorded meanwhile are credited with what is visible. -/
structure Records (r : Request) (p q : Pipeline) : Prop where
  later : p.Later q
  attempts : ∃ new, q.archive.attempts = p.archive.attempts ++ new ∧
    ∀ a ∈ new, a.Credited r q.store

section Records

variable {r : Request} {p q : Pipeline}

theorem Records.within (p q : Pipeline) (h : Records r p q) : p.Later q :=
  h.later

theorem Records.of_same (hlater : p.Later q) (h : q.archive.attempts = p.archive.attempts) :
    Records r p q where
  later := hlater
  attempts := ⟨[], h.trans (List.append_nil _).symm, fun _ ha => absurd ha List.not_mem_nil⟩

/-- Whatever a call does to anything but the attempts, it is time that passes. -/
instance : Allows (Records r) where
  still h := by
    refine .of_same (Tends.still h) ?_
    simp only [Pipeline.still, Prod.mk.injEq] at h
    obtain ⟨-, -, -, -, -, -, harchive, -, -⟩ := h
    exact congrArg Archive.attempts harchive
  enqueue p r := .of_same (Tends.enqueue p r) rfl
  observe h := .of_same (Allows.observe h) rfl
  saveJob p j := .of_same (Tends.saveJob p j) (by cases j <;> rfl)
  saveEvidence p id e := .of_same (Tends.saveEvidence p id e) rfl
  settle p id status := by
    refine .of_same (Tends.settle p id status) ?_
    unfold settle
    cases settled p.queue id status <;> rfl

end Records

/-! ## Recording -/

section Recording

open ScanGraph.Action

variable {r : Request} {p q : Pipeline} {j : DeriveJob} {o : RuleOutcome}

/-- What a rule derived is thrown away where the chain has been through it with that root. -/
theorem settleOutcome_of_visited (h : ⟨o.rule, o.root.reference⟩ ∈ j.lineage) (p : Pipeline) :
    settleOutcome r j o p
      = (.ok (o.status.evaluation, o.status.objects.map Snapshot.reference), p) := by
  have hvisited : j.hasVisited ⟨o.rule, o.root.reference⟩ = true := by
    simpa [DeriveJob.hasVisited] using h
  unfold settleOutcome
  cases o.status with
  | derived objects cached =>
    simp only
    rw [if_pos hvisited]
    rfl
  | skipped reason => rfl
  | failed e => rfl

/-- What an outcome came to once it was settled is what is recorded of it. -/
theorem attempts_recordOutcome {evaluation : Evaluation} {output : List Reference}
    (h : settleOutcome r j o p = (.ok (evaluation, output), q))
    (honline : q.outages.archiveOffline = false) :
    ∃ a, (recordOutcome r j o p).2.archive.attempts = q.archive.attempts ++ [a] ∧
      a.job = some j.id ∧ a.evaluation = evaluation ∧ a.output = output := by
  have hkeeps : Steady archive := ⟨⟨fun _ _ => rfl, fun _ _ => rfl⟩, fun _ _ => rfl⟩
  let a : Attempt := ⟨.ofNat q.nextId, some j.id, o.rule, o.root.reference, evaluation, output,
    instantOf q.clock⟩
  let ready : Pipeline := { q with nextId := q.nextId + 1, clock := q.clock + tick }
  have hsave : ignoring (save (fun archive => archive.saveAttempt a)) ready
      = (.ok (), { ready with archive := q.archive.saveAttempt a }) :=
    ignoring_of_ok (save_of_online (p := ready) _ honline)
  refine ⟨a, ?_, rfl, rfl, rfl⟩
  unfold recordOutcome
  rw [bind_of_ok h]
  simp only [freshId_bind, now_bind]
  rw [bind_of_ok hsave, hkeeps.publish]
  rfl

theorem store_recordOutcome {settled : Evaluation × List Reference}
    (h : settleOutcome r j o p = (.ok settled, q)) :
    (recordOutcome r j o p).2.store = q.store := by
  unfold recordOutcome
  rw [bind_of_ok h]
  have hsave : ∀ change, Keeps store (save change) := by
    intro change s
    unfold save
    rw [get_bind]
    split <;> rfl
  have hignoring : ∀ act : Action Unit, Keeps store act →
      Keeps store (ignoring act) :=
    fun act hact => hact.result.bind (fun _ => .pure _)
  exact (steady_store.freshId.bind fun id => steady_store.now.bind fun t =>
    (hignoring _ (hsave _)).bind fun _ => steady_store.publish _ _) q

end Recording

end Pipeline

namespace Worker

open Routine Pipeline

section Settling

variable {r : Request} {p : Pipeline}

theorem known_observe {o : Observation} {cs : List Commit} {q : Pipeline}
    (h : observe o p = (.ok cs, q)) : ∀ x ∈ o.result, q.store.Known o.validTime x.reference := by
  intro x hx
  cases hobserved : p.observed o with
  | ok done =>
    rw [observe_of_ok hobserved] at h
    obtain ⟨-, -, hcommit⟩ := Store.observe_eq_ok_iff.1 (observe_store_of_observed hobserved)
    cases h
    have hstore : (p.store.commit o).1 = done.1 := congrArg Prod.fst hcommit
    exact hstore ▸ Store.known_of_mem_result hx
  | error fault =>
    rw [observe_of_error hobserved] at h
    cases h

/-- What a rule derived is visible after it is committed, whatever others do meanwhile. -/
theorem obeys_commitDerived_known (j : DeriveJob) (rule : String) (root : Snapshot)
    (objects : List Snapshot) :
    (commitDerived r j rule root objects).Obeys Later (Records r)
      (fun _ q => ∀ x ∈ objects, q.store.Known j.commit.validTime x.reference) p := by
  have hobserve : (once (observe ⟨rule, root.reference, some j.id, j.commit.validTime,
      root.imply objects⟩)).Obeys Later (Records r)
      (fun _ q => ∀ x ∈ objects, q.store.Known j.commit.validTime x.reference) p := by
    refine obeys_once (fun q _ => step_observe _ q) (fun q cs q' _ h x hx => ?_)
    obtain ⟨y, hy, hsame⟩ : ∃ y ∈ root.imply objects, y.entity = x.entity :=
      Snapshot.exists_mem_imply hx
    have href : y.reference = x.reference := congrArg Entity.reference hsame
    exact href ▸ known_observe h y hy
  refine hobserve.bind Records.within (fun cs q _ hknown => ?_)
  -- what follows only adds to what is visible
  refine Every.obeys Records.within (fun s s' hs h x hx => hs.known (h x hx)) ?_ hknown
  refine (every_still Action.Keeps.get).bind (fun s => ?_)
  split
  · trivial
  · exact every_announceCommits r _ cs

/-- What an outcome is credited with is visible once it is settled, unless the chain has been
through its rule with its root. -/
theorem obeys_settleOutcome_known (j : DeriveJob) (o : RuleOutcome) :
    (settleOutcome r j o).Obeys Later (Records r)
      (fun x q => x.1.isDerived = true → ⟨o.rule, o.root.reference⟩ ∉ j.lineage →
        ∀ ref ∈ x.2, q.store.Known j.commit.validTime ref) p := by
  unfold settleOutcome
  cases o.status with
  | derived objects cached =>
    simp only
    split
    · rename_i hvisited
      have hvisit : (⟨o.rule, o.root.reference⟩ : Visit) ∈ j.lineage := by
        simpa [DeriveJob.hasVisited] using hvisited
      exact fun _ hnot => absurd hvisit hnot
    · refine ((obeys_commitDerived_known j o.rule o.root objects).result Records.within).bind
        Records.within (fun found q _ hfound => ?_)
      rcases found with e | ⟨⟩
      · intro hderived
        cases hderived
      · intro _ _ ref href
        obtain ⟨x, hx, rfl⟩ := List.mem_map.1 href
        exact hfound () rfl x hx
  | skipped reason =>
    intro hderived
    cases hderived
  | failed e =>
    intro hderived
    cases hderived

theorem obeys_recordOutcome_known (j : DeriveJob) (hj : r.job = .derive j) (life : Lifecycle)
    (o : RuleOutcome) :
    (recordOutcome r { j with life } o).Obeys Later (Records r) (fun _ _ => True) p := by
  refine (obeys_settleOutcome_known { j with life } o).bind Records.within (fun settled q _ h => ?_)
  obtain ⟨evaluation, output⟩ := settled
  -- the objects stay visible while the attempt gets its id and its time
  have hstays : ∀ s s' : Pipeline, s.Later s' →
      (evaluation.isDerived = true → ⟨o.rule, o.root.reference⟩ ∉ j.lineage →
        ∀ ref ∈ output, s.store.Known j.commit.validTime ref) →
      evaluation.isDerived = true → ⟨o.rule, o.root.reference⟩ ∉ j.lineage →
        ∀ ref ∈ output, s'.store.Known j.commit.validTime ref :=
    fun s s' hs hknown hderived hvisit ref href => hs.known (hknown hderived hvisit ref href)
  have hid : (once freshId).Every (Records r) := every_still steady_still.freshId
  refine (hid.obeys Records.within hstays h).bind Records.within (fun id q _ h => ?_)
  have hnow : (once now).Every (Records r) := every_still steady_still.now
  refine (hnow.obeys Records.within hstays h).bind Records.within (fun t q _ h => ?_)
  have hsave : (once (save (fun a => a.saveAttempt
      ⟨id, some j.id, o.rule, o.root.reference, evaluation, output, t⟩))).Obeys Later (Records r)
      (fun _ _ => True) q := by
    refine obeys_once (fun s hs => step_save ?_) (fun _ _ _ _ _ => trivial)
    refine ⟨⟨rfl, .refl⟩, _, rfl, fun a ha => ?_⟩
    obtain rfl := List.mem_singleton.1 ha
    exact ⟨j, hj, rfl, hstays q s hs h⟩
  refine (hsave.ignoring Records.within).bind Records.within (fun _ q _ _ => ?_)
  exact (every_still (steady_still.publish _ _)).obeys Records.within (fun _ _ _ h => h) trivial

theorem obeys_dispatchDerive_known (j : DeriveJob) (hj : r.job = .derive j) :
    (dispatchDerive r j).Obeys Later (Records r) (fun _ _ => True) p := by
  have hcalm : ∀ {α : Type} {w : Routine α} {q : Pipeline}, w.Every (Records r) →
      w.Obeys Later (Records r) (fun _ _ => True) q :=
    fun hw => hw.obeys Records.within (fun _ _ _ h => h) trivial
  refine (hcalm (every_still steady_still.now)).bind Records.within (fun started q _ _ => ?_)
  have hevaluate : ∀ q, (outcomes j.commit.reference j.commit.validTime).Obeys Later (Records r)
      (fun _ _ => True) q := by
    intro q s answer _
    cases answer <;> trivial
  have hderive : (deriveAll r { j with life := j.life.start started }).Obeys Later (Records r)
      (fun _ _ => True) q :=
    (hevaluate q).bind Records.within (fun found s _ _ =>
      obeys_forM Records.within found (fun o _ _ _ => obeys_recordOutcome_known j hj _ o))
  refine (hderive.result Records.within).bind Records.within (fun outcome q _ _ => ?_)
  refine (hcalm (every_still steady_still.now)).bind Records.within (fun ended q _ _ => ?_)
  exact (hcalm (every_saveJob _).ignoring).bind Records.within
    (fun _ _ _ _ => obeys_ofExcept _)

/-- Whatever others do meanwhile, a worker records attempts that are credited with what is
visible. -/
theorem obeys_runJob_known (r : Request) (p : Pipeline) :
    (runJob r).Obeys Later (Records r) (fun _ _ => True) p := by
  have hcalm : ∀ {w : Routine Unit} {q : Pipeline}, w.Every (Records r) →
      w.Obeys Later (Records r) (fun _ _ => True) q :=
    fun hw => hw.obeys Records.within (fun _ _ _ h => h) trivial
  have hhandle : (handle r).Obeys Later (Records r) (fun _ _ => True) p := by
    unfold handle
    split
    · exact hcalm (every_dispatchScan r _)
    · exact hcalm (every_dispatchNormalize r _)
    · rename_i j hj
      exact obeys_dispatchDerive_known j hj
  have hdispatch : (dispatch r).Obeys Later (Records r) (fun _ _ => True) p := by
    refine (hhandle.result Records.within).bind Records.within (fun found q _ _ => ?_)
    cases found <;> trivial
  refine hdispatch.outcome.bind Records.within (fun found q _ _ => ?_)
  refine hcalm ((every_once (fun q => ?_)).bind (fun _ => every_still (steady_still.publish _ _)))
  exact Tends.settle q r.job.id (resultOf found)

end Settling

end Worker

open Pipeline

namespace Crew

open Routine

/-- What a step may do that belongs to the dispatch of a request, or to none. -/
def Credits : Option Request → Pipeline → Pipeline → Prop
  | none => Later
  | some r => Records r

theorem Credits.within {cause : Option Request} (p q : Pipeline) (h : Credits cause p q) :
    p.Later q := by
  cases cause with
  | none => exact h
  | some r => exact h.later

/-- A task records attempts that are credited with what is visible, from now on. -/
def Crediting (p : Pipeline) (task : Task) : Prop :=
  task.rest.Obeys Later (Credits task.cause) (fun _ _ => True) p

section Run

variable {c c' : Crew} {cause : Option Request}

theorem crediting_submission {α : Type} {w : Routine α} (h : w.Every Later) (p : Pipeline) :
    Crediting p ⟨none, discard w⟩ :=
  Every.obeys (fun _ _ h => h) (fun _ _ _ h => h) (h.bind (fun _ => trivial)) trivial

theorem crediting_tasks {p q : Pipeline} {ts ts' : List Task} (hlater : p.Later q)
    (h : ∀ task ∈ ts, Crediting p task) (htasks : ∀ task ∈ ts', task ∈ ts ∨ Crediting q task) :
    ∀ task ∈ ts', Crediting q task := by
  intro task htask
  rcases htasks task htask with hold | hnew
  · exact (h task hold).later hlater (fun _ _ => trivial)
  · exact hnew

/-- Where the tasks record such attempts, they do after a step as before, and so does the step. -/
theorem Step.credits (hstep : Step c cause c')
    (h : ∀ task ∈ c.tasks, Crediting c.pipeline task) :
    Credits cause c.pipeline c'.pipeline ∧ ∀ task ∈ c'.tasks, Crediting c'.pipeline task := by
  cases hstep with
  | @submitScan p ts scanner input =>
    refine ⟨.refl p, List.forall_mem_cons.2 ⟨?_, h⟩⟩
    exact crediting_submission (Worker.every_submitScan scanner input) p
  | @submitObservation p ts method source objects t =>
    refine ⟨.refl p, List.forall_mem_cons.2 ⟨?_, h⟩⟩
    exact crediting_submission (Worker.every_submitObservation method source objects t) p
  | @take p p' ts k r hdequeue =>
    have hlater : p.Later p' := by
      rw [(dequeue_eq_some_iff.1 hdequeue).1]
      exact ⟨rfl, .refl⟩
    refine ⟨hlater, List.forall_mem_cons.2 ⟨Worker.obeys_runJob_known r p', ?_⟩⟩
    exact crediting_tasks hlater h (fun _ htask => .inl htask)
  | @call β p us vs cause act next =>
    have hmem : (⟨cause, .call act next⟩ : Task) ∈ us ++ ⟨cause, .call act next⟩ :: vs :=
      List.mem_append_right _ List.mem_cons_self
    obtain ⟨hcall, hnext⟩ := h _ hmem p (.refl p)
    refine ⟨hcall, crediting_tasks hcall.within h (fun task htask => ?_)⟩
    rcases mem_or_eq_of_replaced ⟨cause, .call act next⟩ htask with hold | rfl
    · exact .inl hold
    · exact .inr hnext
  | @evaluate p us vs cause changed t next memory clock answer =>
    have hmem : (⟨cause, .evaluate changed t next⟩ : Task) ∈
        us ++ ⟨cause, .evaluate changed t next⟩ :: vs :=
      List.mem_append_right _ List.mem_cons_self
    have hlater : p.Later { p with memory, clock } := ⟨rfl, .refl⟩
    have hnext := h _ hmem { p with memory, clock } answer hlater
    refine ⟨?_, crediting_tasks hlater h (fun task htask => ?_)⟩
    · cases cause with
      | none => exact hlater
      | some r => exact .of_same hlater rfl
    · rcases mem_or_eq_of_replaced ⟨cause, .evaluate changed t next⟩ htask with hold | rfl
      · exact .inl hold
      · exact .inr hnext
  | @leave p us vs task =>
    refine ⟨.refl p, fun task' htask' => h task' ?_⟩
    rcases List.mem_append.1 htask' with htask' | htask'
    · exact List.mem_append_left _ htask'
    · exact List.mem_append_right _ (List.mem_cons_of_mem _ htask')
  | others hlater hqueue =>
    exact ⟨hlater, crediting_tasks hlater h (fun _ htask => .inl htask)⟩

theorem Reached.crediting {p : Pipeline} (h : Reached ⟨p, []⟩ c) :
    ∀ task ∈ c.tasks, Crediting c.pipeline task := by
  induction h with
  | refl => exact fun task htask => absurd htask List.not_mem_nil
  | tail _ hstep ih =>
    obtain ⟨cause, hstep⟩ := hstep
    exact (hstep.credits ih).2

end Run

/-- In every run, an attempt that a worker records for a derive job is credited with objects that
are visible at the time of its commit by then, if the chain has not been through its rule with its
root.  If the chain has, the attempt is credited with the output as well, and the store is left as
it was. -/
theorem recorded_output_known {p : Pipeline} :
    (∀ (c c' : Crew) (r : Request), Reached ⟨p, []⟩ c → Step c (some r) c' →
      ∃ new, c'.pipeline.archive.attempts = c.pipeline.archive.attempts ++ new ∧
        ∀ a ∈ new, a.Credited r c'.pipeline.store) ∧
      ∀ (r : Request) (j : DeriveJob) (o : RuleOutcome) (q : Pipeline),
        ⟨o.rule, o.root.reference⟩ ∈ j.lineage → q.outages.archiveOffline = false →
        ∃ a, (recordOutcome r j o q).2.archive.attempts = q.archive.attempts ++ [a] ∧
          a.evaluation = o.status.evaluation ∧ a.output = o.status.objects.map Snapshot.reference ∧
          (recordOutcome r j o q).2.store = q.store := by
  refine ⟨fun c c' r hrun hstep => ?_, fun r j o q hvisit honline => ?_⟩
  · exact (hstep.credits hrun.crediting).1.attempts
  · have hsettle : settleOutcome r j o q
        = (.ok (o.status.evaluation, o.status.objects.map Snapshot.reference), q) :=
      settleOutcome_of_visited hvisit q
    obtain ⟨a, hattempts, -, hevaluation, houtput⟩ :=
      attempts_recordOutcome hsettle honline
    exact ⟨a, hattempts, hevaluation, houtput, store_recordOutcome hsettle⟩

namespace Counting

def network : Entity :=
  .network "internet"

def host : Entity :=
  .hostname network.reference "a.example"

def parameter : RuleParameter :=
  ⟨"txt", .dnsTXT, (Path.parse "Hostname.<hostname[is DNSTXTRecord]").toOption.getD
    (.identity .object), true, .l0⟩

/-- The text that a host gets when it has some texts. -/
def counted (objects : List Snapshot) : Entity :=
  .dnsTXT host.reference (if objects.isEmpty then "seen=0" else "seen=1") none

/-- The rule that gives a host a text which says whether it has any. -/
def rule : RegisteredRule :=
  ⟨⟨"count", .hostname, [parameter], .ofList [.dnsTXT], .l0, true, none, none⟩,
    fun _ context _ => .returned [.ofEntity (counted (context.objects "txt"))]⟩

def draft : Registry.Draft :=
  Registry.Draft.empty.addRule rule.definition rule.body

/-- A pipeline whose store holds the network. -/
def start : Pipeline :=
  { ofStore (Store.holding [network] (.ofSecond 100)) with
    registry := draft.registry
    policy := { Policy.default with
      derivation := { Policy.defaultDerivation with cacheSeconds := 0 } } }

/-- The pipeline after the host was declared and the queue drained. -/
def finish : Pipeline :=
  (((submitObservation "manual" network.reference [.ofEntity host] (.ofSecond 100) start).2).drain
    10).1

/-- Draining leaves an attempt that is credited with an object which is not visible. -/
theorem recorded_output_unknown :
    ∃ a ∈ finish.archive.attempts, a.evaluation.isDerived = true ∧
      ∃ ref ∈ a.output, ¬ finish.store.Known (.ofSecond 100) ref := by
  have hattempts : finish.archive.attempts.map (fun a => (a.evaluation.isDerived, a.output))
      = [(true, [(counted []).reference]), (true, [(counted [.ofEntity host]).reference])] := by
    decide +kernel
  have hunknown : finish.store.visible? (counted [.ofEntity host]).reference (.ofSecond 100)
      = none := by
    decide +kernel
  have hlast : (true, [(counted [.ofEntity host]).reference])
      ∈ finish.archive.attempts.map (fun a => (a.evaluation.isDerived, a.output)) := by
    rw [hattempts]
    exact List.mem_cons_of_mem _ (List.mem_singleton_self _)
  obtain ⟨a, ha, heq⟩ := List.mem_map.1 hlast
  obtain ⟨hderived, houtput⟩ := Prod.mk.inj heq
  refine ⟨a, ha, hderived, _, houtput ▸ List.mem_singleton_self _, ?_⟩
  rintro ⟨e, he⟩
  rw [hunknown] at he
  cases he

/-- A job for the commit of the host. -/
def job : DeriveJob :=
  .ofCommit (.ofNat 1) (.of .created host.reference (.ofSecond 100))

def request : Request :=
  ⟨.derive job, default, none⟩

/-- A pipeline in which the host is stored and the job waits, and derivations lead no further. -/
def waiting : Pipeline :=
  { ofStore (Store.holding [network, host] (.ofSecond 100)) with
    registry := draft.registry
    policy := { Policy.default with
      derivation := { Policy.defaultDerivation with maxDepth := 0 } }
    queue := Queue.empty.enqueue request }

/-- What the rule comes to for the host. -/
def outcome : RuleOutcome :=
  ⟨"count", .ofEntity host, .derived [.ofEntity (counted [])] false⟩

def attempt : Attempt :=
  ⟨.ofNat 0, some job.id, "count", host.reference, .derived 1 false, [(counted []).reference],
    instantOf tick⟩

theorem recorded_output_known_counted :
    (∃ c c' : Crew, Reached ⟨waiting, []⟩ c ∧ Step c (some request) c' ∧
      c'.pipeline.archive.attempts = c.pipeline.archive.attempts ++ [attempt] ∧
      attempt.Credited request c'.pipeline.store) ∧
    ∃ a, (recordOutcome request { job with lineage := [⟨"count", host.reference⟩] } outcome
        waiting).2.archive.attempts = [a] ∧ a.output = [(counted []).reference] := by
  have hdequeue : waiting.dequeue .derive = ((waiting.dequeue .derive).1, some request) := rfl
  have htake : Reached ⟨waiting, []⟩
      ⟨(waiting.dequeue .derive).1, [⟨some request, Worker.runJob request⟩]⟩ :=
    .single ⟨none, .take hdequeue⟩
  have hstarted := htake.tail ⟨_, step_first⟩
  have hevaluated := hstarted.tail ⟨_, evaluate_first .empty tick (.ok [outcome])⟩
  have hobserved := hevaluated.tail ⟨_, step_first⟩
  have hpolicy := hobserved.tail ⟨_, step_first⟩
  have hid := hpolicy.tail ⟨_, step_first⟩
  have hnow := hid.tail ⟨_, step_first⟩
  obtain ⟨hrecorded, hthrown⟩ := recorded_output_known (p := waiting)
  refine ⟨⟨_, _, hnow, step_first, rfl, ?_⟩, ?_⟩
  · obtain ⟨new, hnew, hcredited⟩ := hrecorded _ _ request hnow step_first
    obtain rfl : new = [attempt] := List.append_cancel_left hnew.symm
    exact hcredited attempt (List.mem_singleton_self _)
  · obtain ⟨a, ha, -, houtput, -⟩ := hthrown request { job with
      lineage := [⟨"count", host.reference⟩] } outcome waiting (List.mem_singleton_self _) rfl
    exact ⟨a, ha, houtput⟩

end Counting

end Crew

end ScanGraph
