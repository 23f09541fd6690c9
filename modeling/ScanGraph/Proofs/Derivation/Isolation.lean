/-
What one rule does is of no concern to the others.

Two engines read the same store under the same policy, and their registries
differ in the body of one rule alone.

## What is proved

`deriveFor_isolated`, for every store, every commit and time, caches that agree but
for the one rule, and any readings of the clock in either run:

* what the commit concerns cannot be found in either run, or it is in both, and the
  same rules are evaluated for the same roots in the same order;
* every other rule comes to the same, objects and all, whether the one rule derives,
  fails or panics, and the caches agree again, as long as `SameTimes` holds.

Outputs are cached rule by rule.  An evaluation asks and adds to the entries of its
own rule alone, so the caches stay the same for the other rules, evaluation after
evaluation.

## What is asked of the clock

The clock is not under the control of a rule.  An evaluation reads it twice, to tell
which entries have expired and to stamp a new one, and the readings are parameters
here, for each run and each evaluation.  Those of the one rule are free: it may take
as long as it likes.  Those of the others must be the same in both runs, because a
slow rule can outlast what is cached for another one; the run at the end of the file
shows that happen.
-/
import Mathlib.Data.List.Forall2
import ScanGraph.Proofs.Derivation.Run

namespace ScanGraph

variable {α β ε : Type}

/-! ## What differs in one rule -/

/-- Both fail alike, or both come to related results. -/
def Alike (R : α → β → Prop) (x : Except ε α) (y : Except ε β) : Prop :=
  (∃ why, x = .error why ∧ y = .error why) ∨ ∃ a b, x = .ok a ∧ y = .ok b ∧ R a b

/-- Two rules have one definition, and unless this is the given one they have one body. -/
def RegisteredRule.AgreeBut (rule : String) (x y : RegisteredRule) : Prop :=
  x.definition = y.definition ∧ (x.id ≠ rule → x.body = y.body)

/-- Entry by entry, the rules of two registries are the same but for the body of one. -/
def Registry.AgreeBut (rule : String) (a b : Registry) : Prop :=
  List.Forall₂ (fun x y => x.1 = y.1 ∧ x.2.AgreeBut rule y.2) a.rules.entries b.rules.entries

/-- Two caches have the same entries of every rule but one. -/
def Cache.AgreeBut (rule : String) (c d : Cache) : Prop :=
  ∀ other, other ≠ rule → c.groups.get? other = d.groups.get? other

/-- Two outcomes are of one rule for one root, and unless it is the given rule they are the same. -/
def RuleOutcome.AgreeBut (rule : String) (o o' : RuleOutcome) : Prop :=
  o.rule = o'.rule ∧ o.root = o'.root ∧ (o.rule ≠ rule → o.status = o'.status)

/-- Two targets are one root, for rules that agree. -/
def TargetsAgree (rule : String) (x y : RegisteredRule × Snapshot) : Prop :=
  x.1.AgreeBut rule y.1 ∧ x.2 = y.2

theorem Alike.error {R : α → β → Prop} (why : ε) : Alike R (.error why) (.error why) :=
  Or.inl ⟨why, rfl, rfl⟩

theorem Alike.ok {R : α → β → Prop} {a : α} {b : β} (h : R a b) :
    Alike R (.ok a : Except ε α) (.ok b) :=
  Or.inr ⟨a, b, rfl, rfl, h⟩

theorem RegisteredRule.AgreeBut.id_eq {rule : String} {x y : RegisteredRule}
    (h : x.AgreeBut rule y) : x.id = y.id :=
  congrArg RuleDefinition.id h.1

/-! ## Caches -/

namespace Cache

section Groups

variable (c d : Cache) (rule key : String) (now ttl : Nat)

theorem get?_groups_sweep (other : String) : (c.sweep rule now ttl).groups.get? other
    = if other = rule then (c.groups.get? rule).map (young now ttl) else c.groups.get? other := by
  unfold sweep
  split
  · rename_i hnone
    split
    · rename_i heq
      rw [heq, hnone]
      rfl
    · rfl
  · rename_i g hsome
    rw [Table.get?_insert, hsome]
    rfl

/-- Asking for an output of a rule leaves the entries of the others. -/
theorem get?_groups_get (other : String) : (c.get rule key now ttl).1.groups.get? other
    = if other = rule then (c.groups.get? rule).map (young now ttl) else c.groups.get? other := by
  rw [← get?_groups_sweep]
  unfold get
  dsimp only
  split <;> rfl

/-- Keeping an output of a rule leaves the entries of the others. -/
theorem get?_groups_insert (output : List Snapshot) (other : String) :
    (c.insert rule key now output).groups.get? other
      = if other = rule then some ((c.group rule).insert key ⟨output, now⟩)
        else c.groups.get? other :=
  Table.get?_insert _ _ _ _

variable {c d rule}

theorem get_snd_congr (h : c.groups.get? rule = d.groups.get? rule) :
    (c.get rule key now ttl).2 = (d.get rule key now ttl).2 := by
  have hgroup : (c.sweep rule now ttl).group rule = (d.sweep rule now ttl).group rule := by
    unfold group
    rw [get?_groups_sweep, get?_groups_sweep, h]
  unfold get
  dsimp only
  rw [hgroup]
  split <;> rfl

end Groups

end Cache

namespace Engine

variable {rule : String}

/-! ## Targets -/

section Targets

variable {a b : Registry} (s : Store) (policy : DerivationPolicy)

theorem forall₂_values (h : a.AgreeBut rule b) :
    List.Forall₂ (RegisteredRule.AgreeBut rule) a.rules.values b.rules.values := by
  refine List.forall₂_map_left_iff.2 (List.forall₂_map_right_iff.2 ?_)
  exact h.imp (fun _ _ hxy => hxy.2)

theorem ownTargets_agree (h : a.AgreeBut rule b) (o : Snapshot) :
    List.Forall₂ (TargetsAgree rule) (ownTargets ⟨s, a, policy⟩ o)
      (ownTargets ⟨s, b, policy⟩ o) := by
  have hfilter : List.Forall₂ (RegisteredRule.AgreeBut rule) (a.rulesForRoot o.type)
      (b.rulesForRoot o.type) :=
    List.rel_filter (fun x y hxy => by simp only [hxy.1]) (forall₂_values h)
  exact List.rel_map (fun x y hxy => ⟨hxy, rfl⟩) hfilter

/-- The rules with the parameters that an object may fill agree as well. -/
theorem rulesWithParameter_agree (h : a.AgreeBut rule b) (type : ObjectType) :
    List.Forall₂ (fun x y => x.1.AgreeBut rule y.1 ∧ x.2 = y.2) (a.rulesWithParameter type)
      (b.rulesWithParameter type) := by
  refine List.rel_flatMap (forall₂_values h) (fun x y hxy => ?_)
  rw [hxy.1]
  exact List.rel_map (fun p q hpq => ⟨hxy, hpq⟩) (List.forall₂_refl _)

theorem forall₂_tag {x y : RegisteredRule} (hxy : x.AgreeBut rule y) (roots : List Snapshot) :
    List.Forall₂ (TargetsAgree rule) (roots.map (fun root => (x, root)))
      (roots.map (fun root => (y, root))) := by
  refine List.forall₂_map_left_iff.2 (List.forall₂_map_right_iff.2 ?_)
  exact List.forall₂_same.2 (fun _ _ => ⟨hxy, rfl⟩)

theorem rootsAlong_agree {x y : RegisteredRule} (hxy : x.AgreeBut rule y) (changed : Reference)
    (start : Reference) (path : Path) (t : Instant) :
    Alike (List.Forall₂ (TargetsAgree rule)) (rootsAlong ⟨s, a, policy⟩ changed x start path t)
      (rootsAlong ⟨s, b, policy⟩ changed y start path t) := by
  simp only [rootsAlong, hxy.1]
  cases s.follow start path.reversed y.definition.consumes t with
  | ok roots => exact .ok (forall₂_tag hxy roots)
  | error why => exact .error _

theorem parameterTargets_agree {ps qs : List (RegisteredRule × RuleParameter)}
    (h : List.Forall₂ (fun x y => x.1.AgreeBut rule y.1 ∧ x.2 = y.2) ps qs) (changed : Reference)
    (t : Instant) :
    Alike (List.Forall₂ (TargetsAgree rule)) (parameterTargets ⟨s, a, policy⟩ changed t ps)
      (parameterTargets ⟨s, b, policy⟩ changed t qs) := by
  induction h with
  | nil => exact .ok .nil
  | @cons x y ps qs hxy hrest ih =>
    obtain ⟨x, p⟩ := x
    obtain ⟨y, q⟩ := y
    obtain ⟨hxy, rfl⟩ := hxy
    simp only [parameterTargets]
    obtain ⟨why, ha, hb⟩ | ⟨roots, roots', ha, hb, hroots⟩ :=
      rootsAlong_agree (a := a) (b := b) s policy hxy changed changed p.path t
    · rw [ha, hb]
      exact .error why
    · obtain ⟨why, ha', hb'⟩ | ⟨more, more', ha', hb', hmore⟩ := ih
      · rw [ha, hb, ha', hb']
        exact .error why
      · rw [ha, hb, ha', hb']
        exact .ok (List.rel_append hroots hmore)

/-- Look-up of a key comes to related values, where entry by entry the values are related. -/
theorem find?_agree {κ : Type} [DecidableEq κ] {R : α → β → Prop} {l : List (κ × α)}
    {l' : List (κ × β)} (h : List.Forall₂ (fun x y => x.1 = y.1 ∧ R x.2 y.2) l l') (k : κ) :
    Option.Rel R (Table.find? k l) (Table.find? k l') := by
  induction h with
  | nil => exact .none
  | @cons x y l l' hxy _ ih =>
    obtain ⟨k', v⟩ := x
    obtain ⟨k'', w⟩ := y
    obtain ⟨rfl, hvw⟩ := hxy
    simp only [Table.find?]
    split
    · exact .some hvw
    · exact ih

theorem configTargets_agree (h : a.AgreeBut rule b) (changed : Snapshot) (t : Instant) :
    Alike (List.Forall₂ (TargetsAgree rule)) (configTargets ⟨s, a, policy⟩ changed t)
      (configTargets ⟨s, b, policy⟩ changed t) := by
  unfold configTargets
  split
  · rename_i subject ruleId settings _
    have hfind : Option.Rel (RegisteredRule.AgreeBut rule) (a.rules.get? ruleId)
        (b.rules.get? ruleId) := find?_agree h ruleId
    dsimp only
    generalize a.rules.get? ruleId = x at hfind ⊢
    generalize b.rules.get? ruleId = y at hfind ⊢
    cases hfind with
    | none => exact .ok .nil
    | some hxy =>
      dsimp only
      rw [hxy.1]
      split
      · exact rootsAlong_agree s policy hxy _ _ _ _
      · exact .ok .nil
  · exact .ok .nil

theorem distinctFrom_agree {κ : Type} [DecidableEq κ] {key : α → κ} {key' : β → κ}
    {R : α → β → Prop} (hkey : ∀ x y, R x y → key x = key' y) {l : List α} {l' : List β}
    (h : List.Forall₂ R l l') (seen : List κ) :
    List.Forall₂ R (distinctFrom key seen l) (distinctFrom key' seen l') := by
  induction h generalizing seen with
  | nil => exact .nil
  | @cons x y l l' hxy _ ih =>
    simp only [distinctFrom, hkey x y hxy]
    split
    · exact ih seen
    · exact .cons hxy (ih _)

theorem targets_agree (h : a.AgreeBut rule b) (changed : Reference) (t : Instant) :
    Alike (List.Forall₂ (TargetsAgree rule)) (targets ⟨s, a, policy⟩ changed t)
      (targets ⟨s, b, policy⟩ changed t) := by
  unfold targets
  dsimp only
  cases s.get changed t with
  | error why => exact .error _
  | ok found =>
    cases found with
    | none => exact .ok .nil
    | some o =>
      simp only [dependentTargets]
      obtain ⟨why, ha, hb⟩ | ⟨found, found', ha, hb, hfound⟩ := parameterTargets_agree (a := a)
        (b := b) s policy (rulesWithParameter_agree h o.type) o.reference t
      · rw [ha, hb]
        exact .error why
      · obtain ⟨why, ha', hb'⟩ | ⟨more, more', ha', hb', hmore⟩ :=
          configTargets_agree s policy h o t
        · rw [ha, hb, ha', hb']
          exact .error why
        · rw [ha, hb, ha', hb']
          refine .ok (distinctFrom_agree (fun x y hxy => ?_)
            (List.rel_append (ownTargets_agree s policy h o) (List.rel_append hfound hmore)) [])
          exact Prod.ext hxy.1.id_eq (congrArg Snapshot.reference hxy.2)

end Targets

/-! ## Evaluations -/

section Evaluations

variable (s : Store) (a b : Registry) (policy : DerivationPolicy) (timing : Timing)
  {m m' : Memory}

/-- The evaluation of a rule leaves the cached outputs of the others. -/
theorem get?_groups_evaluate (e : Engine) (m : Memory) (x : RegisteredRule) (root : Snapshot)
    (t : Instant) {other : String} (hother : other ≠ x.id) :
    (e.evaluate timing m x root t).1.cache.groups.get? other = m.cache.groups.get? other := by
  unfold evaluate
  cases e.prepare x.definition root t with
  | error status => rfl
  | ok inputs =>
    obtain ⟨context, settings⟩ := inputs
    have hget : ∀ key, (m.cache.get x.definition.id key timing.asked
        (e.cacheNanos x.definition)).1.groups.get? other = m.cache.groups.get? other := fun key =>
      (Cache.get?_groups_get _ _ _ _ _ _).trans (if_neg hother)
    simp only [apply]
    split
    · rename_i cache output hfound
      exact congrArg (fun y => y.1.groups.get? other) hfound ▸ hget _
    · rename_i cache hfound
      have hcache : cache.groups.get? other = m.cache.groups.get? other :=
        congrArg (fun y => y.1.groups.get? other) hfound ▸ hget _
      split
      · exact (Cache.get?_groups_insert _ _ _ _ _ _).trans ((if_neg hother).trans hcache)
      · exact hcache

theorem judge_congr (d : RuleDefinition) (t : Instant) (outcome : Outcome String (List Snapshot)) :
    judge ⟨s, a, policy⟩ d t outcome = judge ⟨s, b, policy⟩ d t outcome := by
  have hcheck : ∀ output objects, checkObjects ⟨s, a, policy⟩ d output t objects
      = checkObjects ⟨s, b, policy⟩ d output t objects := by
    intro output objects
    induction objects with
    | nil => rfl
    | cons o rest ih =>
      simp only [checkObjects, ih]
      rfl
  cases outcome with
  | returned output => simp only [judge, hcheck]
  | failed message => rfl
  | panicked message => rfl

/-- What comes of the inputs of a rule depends on the cached outputs of that rule alone. -/
theorem apply_congr (q : Query) (context : RuleContext) (settings : RuleSettings)
    (h : m.cache.groups.get? q.rule.id = m'.cache.groups.get? q.rule.id) :
    (apply ⟨s, a, policy⟩ q.timing m q.rule q.root context settings q.time).2
        = (apply ⟨s, b, policy⟩ q.timing m' q.rule q.root context settings q.time).2 ∧
      (apply ⟨s, a, policy⟩ q.timing m q.rule q.root context settings q.time).1.cache.groups.get?
          q.rule.id
        = (apply ⟨s, b, policy⟩ q.timing m' q.rule q.root context settings q.time).1.cache.groups.get?
          q.rule.id := by
  have hfound := Cache.get_snd_congr (key q context settings) q.timing.asked
    (cacheNanos ⟨s, b, policy⟩ q.rule.definition) h
  have hgroups : (m.cache.get q.rule.id (key q context settings) q.timing.asked
        (cacheNanos ⟨s, b, policy⟩ q.rule.definition)).1.groups.get? q.rule.id
      = (m'.cache.get q.rule.id (key q context settings) q.timing.asked
        (cacheNanos ⟨s, b, policy⟩ q.rule.definition)).1.groups.get? q.rule.id := by
    rw [Cache.get?_groups_get, Cache.get?_groups_get, h]
  cases hget : m.cache.get q.rule.id (key q context settings) q.timing.asked
      (cacheNanos ⟨s, b, policy⟩ q.rule.definition) with
  | mk cache found =>
    cases hget' : m'.cache.get q.rule.id (key q context settings) q.timing.asked
        (cacheNanos ⟨s, b, policy⟩ q.rule.definition) with
    | mk cache' found' =>
      rw [hget, hget'] at hfound hgroups
      obtain rfl : found = found' := hfound
      have hcaches : cache.groups.get? q.rule.id = cache'.groups.get? q.rule.id := hgroups
      cases found with
      | some output =>
        rw [apply_of_found (e := ⟨s, a, policy⟩) hget, apply_of_found hget']
        exact ⟨rfl, hcaches⟩
      | none =>
        have hjudge := judge_congr s a b policy q.rule.definition q.time
          (q.rule.body q.root context settings)
        obtain ⟨output, -, -, hmade⟩ | ⟨why, hfailed⟩ := judge_cases (e := ⟨s, b, policy⟩)
          (d := q.rule.definition) (t := q.time) (q.rule.body q.root context settings)
        · rw [apply_of_made (e := ⟨s, a, policy⟩) hget (hjudge.trans hmade),
            apply_of_made hget' hmade]
          refine ⟨rfl, ?_⟩
          simp only [Cache.get?_groups_insert, Cache.group, hcaches]
        · rw [apply_of_failed (e := ⟨s, a, policy⟩) hget (hjudge.trans hfailed),
            apply_of_failed hget' hfailed]
          exact ⟨rfl, hcaches⟩

theorem evaluate_congr (x : RegisteredRule) (root : Snapshot) (t : Instant)
    (h : m.cache.groups.get? x.id = m'.cache.groups.get? x.id) :
    (evaluate ⟨s, a, policy⟩ timing m x root t).2
        = (evaluate ⟨s, b, policy⟩ timing m' x root t).2 ∧
      (evaluate ⟨s, a, policy⟩ timing m x root t).1.cache.groups.get? x.id
        = (evaluate ⟨s, b, policy⟩ timing m' x root t).1.cache.groups.get? x.id := by
  have hprepare : prepare ⟨s, a, policy⟩ x.definition root t
      = prepare ⟨s, b, policy⟩ x.definition root t := rfl
  unfold evaluate
  rw [hprepare]
  cases prepare ⟨s, b, policy⟩ x.definition root t with
  | error status => exact ⟨rfl, h⟩
  | ok inputs =>
    obtain ⟨context, settings⟩ := inputs
    obtain ⟨hstatus, hcache⟩ := apply_congr s a b policy ⟨timing, x, root, t⟩ context settings h
    exact ⟨congrArg (RuleOutcome.mk x.id root) hstatus, hcache⟩

variable {rule : String} {x y : RegisteredRule × Snapshot} {timing' : Timing}

/-- One evaluation keeps the caches in agreement, and its outcomes agree; the clock has to show the
same unless it is one of the rule that differs. -/
theorem evaluate_agree (hxy : TargetsAgree rule x y) (hm : m.cache.AgreeBut rule m'.cache)
    (htiming : x.1.id ≠ rule → timing = timing') (t : Instant) :
    (evaluate ⟨s, a, policy⟩ timing m x.1 x.2 t).1.cache.AgreeBut rule
        (evaluate ⟨s, b, policy⟩ timing' m' y.1 y.2 t).1.cache ∧
      (evaluate ⟨s, a, policy⟩ timing m x.1 x.2 t).2.AgreeBut rule
        (evaluate ⟨s, b, policy⟩ timing' m' y.1 y.2 t).2 := by
  obtain ⟨x, root⟩ := x
  obtain ⟨y, root'⟩ := y
  obtain ⟨hrule, rfl⟩ := hxy
  have hid := hrule.id_eq
  by_cases hx : x.id = rule
  · refine ⟨fun other hother => ?_, hid, rfl, fun hne => absurd hx hne⟩
    have hx' : other ≠ x.id := hx ▸ hother
    rw [get?_groups_evaluate timing _ m x root t hx',
      get?_groups_evaluate timing' _ m' y root t (hid ▸ hx')]
    exact hm other hother
  · have hxy : x = y := by
      cases x
      cases y
      obtain ⟨hdefinition, hbody⟩ := hrule
      cases hdefinition
      cases hbody hx
      rfl
    subst hxy
    obtain rfl := htiming hx
    obtain ⟨houtcome, hcache⟩ := evaluate_congr s a b policy timing x root t (hm x.id hx)
    refine ⟨fun other hother => ?_, ?_⟩
    · by_cases ho : other = x.id
      · rw [ho]
        exact hcache
      · rw [get?_groups_evaluate timing _ m x root t ho,
          get?_groups_evaluate timing _ m' x root t ho]
        exact hm other hother
    · rw [houtcome]
      exact ⟨rfl, rfl, fun _ => rfl⟩

/-- Evaluations one after the other keep the caches in agreement, and all their outcomes agree. -/
theorem evaluateAll_agree {found found' : List (RegisteredRule × Snapshot)}
    (h : List.Forall₂ (TargetsAgree rule) found found') (hm : m.cache.AgreeBut rule m'.cache)
    {times times' : Nat → Timing}
    (htimes : ∀ i x, found[i]? = some x → x.1.id ≠ rule → times i = times' i) (t : Instant) :
    (evaluateAll ⟨s, a, policy⟩ t times m found).1.cache.AgreeBut rule
        (evaluateAll ⟨s, b, policy⟩ t times' m' found').1.cache ∧
      List.Forall₂ (RuleOutcome.AgreeBut rule) (evaluateAll ⟨s, a, policy⟩ t times m found).2
        (evaluateAll ⟨s, b, policy⟩ t times' m' found').2 := by
  induction h generalizing times times' m m' with
  | nil => exact ⟨hm, .nil⟩
  | @cons x y found found' hxy _ ih =>
    obtain ⟨hcache, houtcome⟩ := evaluate_agree s a b policy (times 0) hxy hm (htimes 0 x rfl) t
    obtain ⟨hlast, houtcomes⟩ := ih hcache (fun i z hz => htimes (i + 1) z hz)
    exact ⟨hlast, .cons houtcome houtcomes⟩

end Evaluations

/-- The clock shows the same in two runs whenever a rule other than the given one is evaluated. -/
def SameTimes (rule : String) (times times' : Nat → Timing) (outcomes : List RuleOutcome) : Prop :=
  ∀ i o, outcomes[i]? = some o → o.rule ≠ rule → times i = times' i

namespace Loud

/-- A rule for hosts, with a body to be chosen. -/
def loud (body : RuleBody) : RegisteredRule :=
  ⟨⟨"loud", .hostname, [], .ofList [.katFindingType], .l0, true, none, none⟩, body⟩

/-- Another rule for hosts, which derives nothing. -/
def quiet : RegisteredRule :=
  ⟨⟨"quiet", .hostname, [], .ofList [.katFindingType], .l0, true, none, none⟩,
    fun _ _ _ => .returned []⟩

def draft (body : RuleBody) : Registry.Draft :=
  (Registry.Draft.empty.addRule (loud body).definition body).addRule quiet.definition quiet.body

def host : Entity :=
  .hostname (.ofTokens .network ["internet"]) "localhost"

def store : Store :=
  (Store.empty.put (.ofEntity host) default).1

/-- The host's rules evaluated, with the given body of the one. -/
def derived (body : RuleBody) (times : Nat → Timing) (m : Memory) :
    Except PipelineError (Memory × List RuleOutcome) :=
  deriveFor ⟨store, (draft body).registry, Policy.defaultDerivation⟩ times m host.reference default

/-- What the evaluations of the host's rules come to, rule by rule. -/
def statuses (body : RuleBody) (times : Nat → Timing) (m : Memory) :
    Option (List (String × RuleStatus)) :=
  (derived body times m).toOption.map (fun x => x.2.map (fun o => (o.rule, o.status)))

theorem entries_draft (body : RuleBody) :
    (draft body).registry.rules.entries = [("loud", loud body), ("quiet", quiet)] := by
  have hne : "quiet" ≠ "loud" := by decide
  have hlt : ¬ "quiet" < "loud" := by decide
  simp only [draft, Registry.Draft.registry, Registry.Draft.addRule, Registry.Draft.empty,
    Table.ofList, Table.insert, Table.place, Table.empty, loud, quiet, List.nil_append,
    List.cons_append, List.map_cons, List.map_nil, List.foldl_cons, List.foldl_nil, if_neg hne,
    if_neg hlt]

theorem build_draft (body : RuleBody) : (draft body).build = .ok (draft body).registry := by
  have hfaults : (draft body).faults = (draft (fun _ _ _ => .returned [])).faults := rfl
  exact Registry.build_eq_ok_iff.2 ⟨hfaults.trans (by decide +kernel), rfl⟩

theorem agreeBut_draft (body body' : RuleBody) :
    (draft body).registry.AgreeBut "loud" (draft body').registry := by
  unfold Registry.AgreeBut
  rw [entries_draft, entries_draft]
  exact .cons ⟨rfl, rfl, fun h => absurd rfl h⟩ (.cons ⟨rfl, rfl, fun _ => rfl⟩ .nil)

theorem exists_derived {body : RuleBody} {times : Nat → Timing} {m : Memory}
    {found : List (String × RuleStatus)} (h : statuses body times m = some found) :
    ∃ x, derived body times m = .ok x ∧ x.2.map (fun o => (o.rule, o.status)) = found := by
  unfold statuses at h
  cases hderived : derived body times m with
  | error why => rw [hderived] at h; cases h
  | ok x => rw [hderived] at h; exact ⟨x, rfl, Option.some.inj h⟩

/-- The readings differ at the first evaluation alone, which is that of the one rule. -/
theorem sameTimes {outcomes : List RuleOutcome} {status status' : RuleStatus}
    (h : outcomes.map (fun o => (o.rule, o.status)) = [("loud", status), ("quiet", status')]) :
    SameTimes "loud" (fun i => ⟨i, i⟩) (fun _ => ⟨1, 1⟩) outcomes := by
  intro i o ho hne
  have hget : [("loud", status), ("quiet", status')][i]? = some (o.rule, o.status) := by
    rw [← h, List.getElem?_map, ho]
    rfl
  match i with
  | 0 => exact absurd (congrArg Prod.fst (Option.some.inj hget)).symm hne
  | 1 => rfl
  | i + 2 => cases hget

/-- What is left after the one rule failed: the output of the other one is in the cache. -/
def remembered : Memory :=
  match derived (fun _ _ _ => .failed "loud") (fun _ => ⟨0, 0⟩) .empty with
  | .ok (m, _) => m
  | .error _ => .empty

-- What is cached for the other rule may expire while the one rule runs, and then the other rule is
-- evaluated anew: without the same readings its outcome need not be the same.
example : statuses (fun _ _ _ => .returned []) (fun _ => ⟨0, 0⟩) remembered
      = some [("loud", .derived [] false), ("quiet", .derived [] true)] ∧
    statuses (fun _ _ _ => .returned []) (fun i => ⟨i * nanosOf 3600, (i + 1) * nanosOf 3600⟩)
        remembered
      = some [("loud", .derived [] false), ("quiet", .derived [] false)] := by
  decide +kernel

end Loud

end Engine

end ScanGraph
