/-
What an engine has evaluated, and what its cache keeps of that.

Asking the cache for an output takes entries away and adds none; keeping an output
adds the one entry that it says.  So every entry is one that was kept at some time,
and an output that is found again is the output of such an entry.  A young entry
is always found.

An evaluation is refused, finds an output again, keeps a new output or fails:
`Evaluates` says all that it can do.  In a run of evaluations, with calls to the
store in between, every entry of the cache is therefore the checked output of
one of them: `Run.exists_made`.

## How a run is described

A run starts without memory.  It is a list of evaluations, each with the store that it
read and the clock that it saw, and between two of them the store is called any number
of times (`Run`).  The same registry and policy serve throughout.

`Evaluates` is the one description of what an evaluation can come to, and the lemmas
after it derive from it what later modules need, so that the engine's definitions are
opened in this module only.

## What is left open

Nothing is said about when entries go: `get_of_young` says that a young one is found,
and `Derivation.Expiry` what becomes of old ones.  What the checked output means is
`Derivation.Validation`, and whether it is what the body would return now is
`Derivation.Reuse`.
-/
import ScanGraph.Derivation
import ScanGraph.Proofs.Registry.Built
import ScanGraph.Proofs.Store.Lasting
import ScanGraph.Proofs.Table.Canonical

namespace ScanGraph

/-! ## Entries of the cache -/

theorem Table.get?_filter_of_pos {κ α : Type} [DecidableEq κ] {t : Table κ α} {k : κ} {v : α}
    {p : κ → α → Bool} (h : t.get? k = some v) (hp : p k v = true) :
    (t.filter p).get? k = some v := by
  obtain ⟨l⟩ := t
  change find? k l = some v at h
  change find? k (l.filter (fun e => p e.1 e.2)) = some v
  induction l with
  | nil => cases h
  | cons e rest ih =>
    obtain ⟨a, w⟩ := e
    simp only [find?] at h
    split at h
    · rename_i hk
      cases h
      subst hk
      simp [hp, find?]
    · rename_i hk
      rw [List.filter_cons]
      split
      · simp [find?, hk, ih h]
      · exact ih h

namespace Cache

/-- The cache has an entry of a rule under a fingerprint. -/
def Holds (c : Cache) (rule key : String) (entry : CacheEntry) : Prop :=
  ∃ g, (rule, g) ∈ c.groups.entries ∧ (key, entry) ∈ g.entries

section Laws

variable {c : Cache} {rule key : String} {entry : CacheEntry}

theorem not_holds_empty : ¬ Cache.empty.Holds rule key entry := by
  rintro ⟨g, hg, -⟩
  exact List.not_mem_nil hg

theorem holds_of_mem_group (h : (key, entry) ∈ (c.group rule).entries) :
    c.Holds rule key entry := by
  unfold group at h
  cases hget : c.groups.get? rule with
  | none =>
    rw [hget] at h
    exact absurd h List.not_mem_nil
  | some g =>
    rw [hget] at h
    exact ⟨g, Table.mem_entries_of_get? hget, h⟩

theorem Holds.of_sweep {r : String} {now ttl : Nat} (h : (c.sweep r now ttl).Holds rule key entry) :
    c.Holds rule key entry := by
  unfold sweep at h
  split at h
  · exact h
  · rename_i g hget
    obtain ⟨g', hg', hentry⟩ := h
    rcases Table.mem_place hg' with heq | hold
    · cases heq
      exact ⟨g, Table.mem_entries_of_get? hget, (List.mem_filter.1 hentry).1⟩
    · exact ⟨g', hold, hentry⟩

theorem Holds.of_get {r k : String} {now ttl : Nat}
    (h : (c.get r k now ttl).1.Holds rule key entry) : c.Holds rule key entry := by
  unfold get at h
  dsimp only at h
  split at h <;> exact Holds.of_sweep h

theorem holds_of_get {r k : String} {now ttl : Nat} {output : List Snapshot}
    (h : (c.get r k now ttl).2 = some output) :
    ∃ entry, c.Holds r k entry ∧ entry.output = output := by
  unfold get at h
  dsimp only at h
  split at h
  · rename_i entry hget
    exact ⟨entry, Holds.of_sweep (holds_of_mem_group (Table.mem_entries_of_get? hget)),
      Option.some.inj h⟩
  · cases h

theorem Holds.of_insert {r k : String} {now : Nat} {output : List Snapshot}
    (h : (c.insert r k now output).Holds rule key entry) :
    c.Holds rule key entry ∨ rule = r ∧ key = k ∧ entry.output = output := by
  obtain ⟨g, hg, hentry⟩ := h
  rcases Table.mem_place hg with heq | hold
  · cases heq
    rcases Table.mem_place hentry with heq | hold
    · cases heq
      exact .inr ⟨rfl, rfl, rfl⟩
    · exact .inl (holds_of_mem_group hold)
  · exact .inl ⟨g, hold, hentry⟩

theorem get_of_young {now ttl : Nat} (h : (c.group rule).get? key = some entry)
    (hyoung : now - entry.madeAt < ttl) : (c.get rule key now ttl).2 = some entry.output := by
  have hswept : ((c.sweep rule now ttl).group rule).get? key = some entry := by
    unfold group at h
    cases hget : c.groups.get? rule with
    | none =>
      rw [hget] at h
      cases h
    | some g =>
      rw [hget] at h
      unfold sweep group
      rw [hget]
      simp only [Table.get?_insert_self, Option.getD_some]
      exact Table.get?_filter_of_pos h (decide_eq_true hyoung)
  unfold get
  simp only [hswept]

theorem get?_group_insert (c : Cache) (rule key : String) (now : Nat) (output : List Snapshot) :
    ((c.insert rule key now output).group rule).get? key = some ⟨output, now⟩ := by
  simp [insert, group]

end Laws

end Cache

/-- A cache has no other entries than another one. -/
def Cache.Within (c c' : Cache) : Prop :=
  ∀ rule key entry, c.Holds rule key entry → c'.Holds rule key entry

theorem Cache.within_get (c : Cache) (rule key : String) (now ttl : Nat) :
    (c.get rule key now ttl).1.Within c :=
  fun _ _ _ h => h.of_get

namespace Engine

/-! ## Single evaluations -/

structure Query where
  timing : Timing
  rule : RegisteredRule
  root : Snapshot
  time : Instant

/-- An evaluation had these inputs and the body gave this output for them, which was checked. -/
structure Made (e : Engine) (q : Query) (context : RuleContext) (settings : RuleSettings)
    (output : List Snapshot) : Prop where
  prepared : e.prepare q.rule.definition q.root q.time = .ok (context, settings)
  returned : q.rule.body q.root context settings = .returned output
  checked : e.checkObjects q.rule.definition output q.time output = .ok ()

/-- The fingerprint of an evaluation with the given inputs. -/
def key (q : Query) (context : RuleContext) (settings : RuleSettings) : String :=
  fingerprint q.rule.id q.root context settings

/-- What an evaluation can come to, and what it leaves behind. -/
inductive Evaluates (e : Engine) (m : Memory) (q : Query) : Memory → RuleStatus → Prop
  | refused {m' : Memory} {why : RuleStatus} :
      e.prepare q.rule.definition q.root q.time = .error why → m'.cache.Within m.cache →
      Evaluates e m q m' why
  | reused {m' : Memory} {context : RuleContext} {settings : RuleSettings} {entry : CacheEntry} :
      e.prepare q.rule.definition q.root q.time = .ok (context, settings) →
      m.cache.Holds q.rule.id (key q context settings) entry → m'.cache.Within m.cache →
      Evaluates e m q m' (.derived entry.output true)
  | kept {m' : Memory} {context : RuleContext} {settings : RuleSettings}
      {output : List Snapshot} :
      e.Made q context settings output →
      (∀ rule k entry, m'.cache.Holds rule k entry → m.cache.Holds rule k entry ∨
        rule = q.rule.id ∧ k = key q context settings ∧ entry.output = output) →
      Evaluates e m q m' (.derived output false)
  | failed {m' : Memory} {why : PipelineError} :
      m'.cache.Within m.cache → Evaluates e m q m' (.failed why)

/-- An evaluation as it was asked for. -/
def answer (e : Engine) (m : Memory) (q : Query) : Memory × RuleOutcome :=
  e.evaluate q.timing m q.rule q.root q.time

section Single

variable {e : Engine} {m : Memory} {q : Query}

theorem prepare_ne_derived {objects : List Snapshot} {cached : Bool} :
    e.prepare q.rule.definition q.root q.time ≠ .error (.derived objects cached) := by
  intro h
  unfold prepare at h
  repeat' split at h
  all_goals cases h

theorem judge_cases {t : Instant} {d : RuleDefinition} (outcome : Outcome String (List Snapshot)) :
    (∃ output, outcome = .returned output ∧ e.checkObjects d output t output = .ok () ∧
        e.judge d t outcome = .derived output false) ∨
      ∃ why, e.judge d t outcome = .failed why := by
  cases outcome with
  | returned output =>
    cases hcheck : e.checkObjects d output t output with
    | ok u => exact .inl ⟨output, rfl, hcheck, by simp [judge, hcheck]⟩
    | error why => exact .inr ⟨why, by simp [judge, hcheck]⟩
  | failed message => exact .inr ⟨_, rfl⟩
  | panicked message => exact .inr ⟨_, rfl⟩

section Apply

variable {context : RuleContext} {settings : RuleSettings} {cache : Cache}
  {output : List Snapshot} {why : PipelineError}

theorem apply_of_found (hget : m.cache.get q.rule.id (key q context settings) q.timing.asked
      (e.cacheNanos q.rule.definition) = (cache, some output)) :
    e.apply q.timing m q.rule q.root context settings q.time
      = ({ m with cache }, .derived output true) := by
  simp only [key, RegisteredRule.id] at hget
  simp only [apply, hget]

variable (hget : m.cache.get q.rule.id (key q context settings) q.timing.asked
  (e.cacheNanos q.rule.definition) = (cache, none))

include hget

theorem apply_of_made (hjudge : e.judge q.rule.definition q.time
      (q.rule.body q.root context settings) = .derived output false) :
    e.apply q.timing m q.rule q.root context settings q.time
      = ({ (Memory.countRun { m with cache } q.rule.id) with
          cache := cache.insert q.rule.id (key q context settings) q.timing.kept output },
        .derived output false) := by
  simp only [key, RegisteredRule.id] at hget
  simp only [apply, hget, hjudge]
  rfl

theorem apply_of_failed (hjudge : e.judge q.rule.definition q.time
      (q.rule.body q.root context settings) = .failed why) :
    e.apply q.timing m q.rule q.root context settings q.time
      = (Memory.countRun { m with cache } q.rule.id, .failed why) := by
  simp only [key, RegisteredRule.id] at hget
  simp only [apply, hget, hjudge]
  rfl

end Apply

theorem evaluates_apply {context : RuleContext} {settings : RuleSettings}
    (h : e.prepare q.rule.definition q.root q.time = .ok (context, settings)) :
    Evaluates e m q (e.apply q.timing m q.rule q.root context settings q.time).1
      (e.apply q.timing m q.rule q.root context settings q.time).2 := by
  have hwithin := m.cache.within_get q.rule.id (key q context settings) q.timing.asked
    (e.cacheNanos q.rule.definition)
  cases hget : m.cache.get q.rule.id (key q context settings) q.timing.asked
      (e.cacheNanos q.rule.definition) with
  | mk cache found =>
    rw [hget] at hwithin
    cases found with
    | some output =>
      obtain ⟨entry, hentry, rfl⟩ := Cache.holds_of_get (congrArg Prod.snd hget)
      rw [apply_of_found hget]
      exact .reused h hentry hwithin
    | none =>
      rcases judge_cases (e := e) (t := q.time) (d := q.rule.definition)
          (q.rule.body q.root context settings)
        with ⟨output, hreturned, hchecked, hjudge⟩ | ⟨why, hjudge⟩
      · rw [apply_of_made hget hjudge]
        refine .kept ⟨h, hreturned, hchecked⟩ (fun rule k entry hentry => ?_)
        exact (Cache.Holds.of_insert hentry).imp_left (hwithin rule k entry)
      · rw [apply_of_failed hget hjudge]
        exact .failed hwithin

theorem evaluates_answer (e : Engine) (m : Memory) (q : Query) :
    Evaluates e m q (e.answer m q).1 (e.answer m q).2.status := by
  unfold answer evaluate
  cases hprepare : e.prepare q.rule.definition q.root q.time with
  | error why => exact .refused hprepare (fun _ _ _ hentry => hentry)
  | ok inputs =>
    obtain ⟨context, settings⟩ := inputs
    exact evaluates_apply hprepare

/-- An evaluation adds no entry but that of the output that it made. -/
theorem Evaluates.holds {m' : Memory} {status : RuleStatus} (h : Evaluates e m q m' status)
    {rule k : String} {entry : CacheEntry} (hentry : m'.cache.Holds rule k entry) :
    m.cache.Holds rule k entry ∨ q.rule.id = rule ∧ ∃ context settings,
      key q context settings = k ∧ e.Made q context settings entry.output := by
  cases h with
  | refused _ hwithin => exact .inl (hwithin rule k entry hentry)
  | reused _ _ hwithin => exact .inl (hwithin rule k entry hentry)
  | @kept context settings output hmade hinsert =>
    rcases hinsert rule k entry hentry with hheld | ⟨rfl, rfl, rfl⟩
    · exact .inl hheld
    · exact .inr ⟨rfl, context, settings, rfl, hmade⟩
  | failed hwithin => exact .inl (hwithin rule k entry hentry)

/-- Objects that were derived were made by this evaluation, or they are the output of an entry. -/
theorem Evaluates.of_derived {m' : Memory} {objects : List Snapshot} {cached : Bool}
    (h : Evaluates e m q m' (.derived objects cached)) :
    ∃ context settings, e.prepare q.rule.definition q.root q.time = .ok (context, settings) ∧
      (cached = false ∧ e.Made q context settings objects ∨
        cached = true ∧ ∃ entry, m.cache.Holds q.rule.id (key q context settings) entry ∧
          entry.output = objects) := by
  cases h with
  | refused hprepare _ => exact absurd hprepare prepare_ne_derived
  | reused hprepare hentry _ => exact ⟨_, _, hprepare, .inr ⟨rfl, _, hentry, rfl⟩⟩
  | kept hmade _ => exact ⟨_, _, hmade.prepared, .inl ⟨rfl, hmade⟩⟩

/-- An evaluation that derives nothing leaves nothing in the cache. -/
theorem Evaluates.within {m' : Memory} {status : RuleStatus} (h : Evaluates e m q m' status)
    (hnot : ∀ objects cached, status ≠ .derived objects cached) : m'.cache.Within m.cache := by
  cases h with
  | refused _ hwithin => exact hwithin
  | reused _ _ hwithin => exact hwithin
  | kept _ _ => exact absurd rfl (hnot _ _)
  | failed hwithin => exact hwithin

/-! ## The same output again -/

theorem answer_eq_apply {context : RuleContext} {settings : RuleSettings}
    (h : e.prepare q.rule.definition q.root q.time = .ok (context, settings)) :
    e.answer m q = ((e.apply q.timing m q.rule q.root context settings q.time).1,
      ⟨q.rule.id, q.root, (e.apply q.timing m q.rule q.root context settings q.time).2⟩) := by
  unfold answer evaluate
  rw [h]

theorem judge_of_made {context : RuleContext} {settings : RuleSettings} {output : List Snapshot}
    (h : e.Made q context settings output) :
    e.judge q.rule.definition q.time (q.rule.body q.root context settings)
      = .derived output false := by
  rw [h.returned]
  simp [judge, h.checked]

/-- The output of the first evaluation of an engine is derived again by the next one that has its
fingerprint, until it reaches the age. -/
theorem answer_again {e' : Engine} {q' : Query} {context context' : RuleContext}
    {settings settings' : RuleSettings} {output : List Snapshot}
    (hmade : e.Made q context settings output)
    (hprepare : e'.prepare q'.rule.definition q'.root q'.time = .ok (context', settings'))
    (hrule : q'.rule.id = q.rule.id) (hkey : key q' context' settings' = key q context settings)
    (hyoung : q'.timing.asked - q.timing.kept < e'.cacheNanos q'.rule.definition) :
    (e.answer .empty q).2.status = .derived output false ∧
      (e'.answer (e.answer .empty q).1 q').2.status = .derived output true := by
  have hfirst := answer_eq_apply (m := .empty) hmade.prepared
  rw [apply_of_made rfl (judge_of_made hmade)] at hfirst
  refine ⟨congrArg (fun x => x.2.status) hfirst, ?_⟩
  have hheld : ((e.answer .empty q).1.cache.group q'.rule.id).get? (key q' context' settings')
      = some ⟨output, q.timing.kept⟩ := by
    rw [hfirst, hrule, hkey]
    exact Cache.get?_group_insert _ _ _ _ _
  have hfound := Cache.get_of_young hheld hyoung
  rw [answer_eq_apply hprepare, apply_of_found (Prod.ext rfl hfound)]

end Single

/-! ## Evaluations one after the other -/

section All

variable (e : Engine) (t : Instant) (times : Nat → Timing) (m : Memory)
  (found : List (RegisteredRule × Snapshot))

theorem map_evaluateAll : (e.evaluateAll t times m found).2.map (fun o => (o.rule, o.root))
    = found.map (fun x => (x.1.id, x.2)) := by
  induction found generalizing times m with
  | nil => rfl
  | cons x found ih =>
    obtain ⟨rule, root⟩ := x
    simp only [evaluateAll, List.map_cons, ih]
    rfl

theorem length_evaluateAll : (e.evaluateAll t times m found).2.length = found.length := by
  have hmap := congrArg List.length (e.map_evaluateAll t times m found)
  rwa [List.length_map, List.length_map] at hmap

end All

/-! ## Runs -/

/-- An engine without memory evaluates what is asked for, latest first, and the store is called in
between. -/
inductive Run (registry : Registry) (policy : DerivationPolicy) :
    List (Store × Query) → Store → Memory → Prop
  | start {s : Store} : s.Reachable → Run registry policy [] s .empty
  | call {past : List (Store × Query)} {s s' : Store} {m : Memory} :
      Run registry policy past s m → s.Call s' → Run registry policy past s' m
  | evaluate {past : List (Store × Query)} {s : Store} {m : Memory} (q : Query) :
      Run registry policy past s m → q.rule ∈ registry.rules.values →
      Run registry policy ((s, q) :: past) s (answer ⟨s, registry, policy⟩ m q).1

namespace Run

variable {registry : Registry} {policy : DerivationPolicy} {past : List (Store × Query)}
  {s : Store} {m : Memory}

theorem reachable (h : Run registry policy past s m) : s.Reachable := by
  induction h with
  | start hs => exact hs
  | call _ hcall ih => exact ih.call hcall
  | evaluate _ _ _ ih => exact ih

/-- Every evaluation was of a rule of the registry, on a reachable store. -/
theorem mem_past (h : Run registry policy past s m) : ∀ x ∈ past,
    x.2.rule ∈ registry.rules.values ∧ x.1.Reachable := by
  induction h with
  | start _ => exact fun _ hx => absurd hx List.not_mem_nil
  | call _ _ ih => exact ih
  | evaluate q hrun hrule ih => exact List.forall_mem_cons.2 ⟨⟨hrule, hrun.reachable⟩, ih⟩

/-- What was visible when something was evaluated is visible still. -/
theorem known (h : Run registry policy past s m) {t : Instant} {r : Reference} : ∀ x ∈ past,
    x.1.Known t r → s.Known t r := by
  induction h with
  | start _ => exact fun _ hx => absurd hx List.not_mem_nil
  | call _ hcall ih => exact fun x hx hknown => hcall.known (ih x hx hknown)
  | evaluate q _ _ ih => exact List.forall_mem_cons.2 ⟨id, ih⟩

/-- Every entry of the cache is the checked output of an evaluation, under its fingerprint. -/
theorem exists_made (h : Run registry policy past s m) {rule k : String} {entry : CacheEntry}
    (hentry : m.cache.Holds rule k entry) : ∃ x ∈ past, x.2.rule.id = rule ∧
      ∃ context settings, key x.2 context settings = k ∧
        Made ⟨x.1, registry, policy⟩ x.2 context settings entry.output := by
  induction h with
  | start _ => exact absurd hentry Cache.not_holds_empty
  | call _ _ ih => exact ih hentry
  | @evaluate past s m q _ _ ih =>
    rcases (evaluates_answer ⟨s, registry, policy⟩ m q).holds hentry with hheld | hmade
    · obtain ⟨x, hx, hmade⟩ := ih hheld
      exact ⟨x, List.mem_cons_of_mem _ hx, hmade⟩
    · exact ⟨(s, q), List.mem_cons_self, hmade⟩

end Run

end Engine

end ScanGraph
