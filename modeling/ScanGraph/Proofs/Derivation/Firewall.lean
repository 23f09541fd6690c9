/-
What a rule is shown of the objects on its paths.

Every object that the walk of a parameter finds is lowered to the bounds of all the
edges on the path before the minimum of the parameter applies to it.  No slot of a
context then holds an object at a level that one of these edges does not let
through, and what is left out is left out for its lowered level alone:
`context_behind_firewall`.

All bounds count, whichever way the path crosses an edge.  This is stricter than the
propagation of clearance, where a bound limits what flows in its own direction only.

## What is proved

For every reachable store, any root and any parameters, paths that nobody parsed
included: a context that is ready has for each parameter the objects that count for it
and no others, in order, lowered and not empty unless the parameter is optional
(`Resolves`); a parameter is reported as missing exactly if it is the first that lacks
objects; and the context is ready exactly if none does.

## What is not

Nothing stops a rule from deriving what it was not shown, or from reading it off an
object that it was shown: an object that is let through is let through as a whole, at a
lower level.  Nor do the bounds on a path protect an object from a rule that has it as
its root.
-/
import ScanGraph.Proofs.Derivation.Reuse
import ScanGraph.Proofs.Store.Chains

namespace ScanGraph

/-! ## Levels below bounds -/

namespace Level

/-- A level is not above a bound, if there is one. -/
def Within (l : Level) (bound : Option Level) : Prop :=
  ∀ b ∈ bound, l ≤ b

variable {l m : Level} {bound : Option Level}

@[simp] theorem within_none : l.Within none := by
  intro b hb
  cases hb

@[simp] theorem within_some {b : Level} : l.Within (some b) ↔ l ≤ b := by
  unfold Within
  simp only [Option.mem_some_iff, forall_eq']

/-- The clamped level is the greatest one that is below the level and within the bound. -/
theorem le_clampTo_iff : m ≤ l.clampTo bound ↔ m ≤ l ∧ m.Within bound := by
  cases bound with
  | none => simp [clampTo]
  | some b => rw [within_some, ← le_lower_iff, clampTo]

theorem clampTo_within (l : Level) (bound : Option Level) : (l.clampTo bound).Within bound :=
  (le_clampTo_iff.1 (le_refl _)).2

theorem within_lowest?_iff {bounds : List (Option Level)} :
    l.Within (lowest? bounds) ↔ ∀ bound ∈ bounds, l.Within bound := by
  induction bounds with
  | nil => simp [lowest?]
  | cons bound bounds ih =>
    rw [List.forall_mem_cons, ← ih]
    cases bound with
    | none => simp [lowest?]
    | some b =>
      cases hrest : lowest? bounds with
      | none => simp [lowest?, hrest]
      | some c => simp [lowest?, hrest, le_lower_iff]

end Level

theorem Relation.within_firewallBound_iff {r : Relation} {l : Level} :
    l.Within r.firewallBound ↔ l.Within r.issueBound ∧ l.Within r.inheritBound := by
  unfold firewallBound
  rw [Level.within_lowest?_iff, List.forall_mem_cons, List.forall_mem_singleton]

/-- The bound of a path takes in both bounds of every edge on it. -/
theorem Path.within_firewallBound_iff {p : Path} {l : Level} :
    l.Within p.firewallBound ↔
      ∀ step ∈ p.steps,
        l.Within step.relation.issueBound ∧ l.Within step.relation.inheritBound := by
  unfold firewallBound
  rw [Level.within_lowest?_iff, List.forall_mem_map]
  simp only [Relation.within_firewallBound_iff]

theorem Snapshot.level_clampTo (o : Snapshot) (bound : Option Level) :
    (o.clampTo bound).level = o.level.clampTo bound := by
  obtain ⟨e, profile, t⟩ := o
  cases profile with
  | some p => rfl
  | none =>
    -- without a profile there is nothing to lower, and the lowest level is within every bound
    cases bound with
    | none => rfl
    | some b => cases b <;> rfl

/-! ## What counts for a parameter -/

namespace RuleParameter

/-- The object as the path of a parameter lets it through. -/
def lowered (p : RuleParameter) (o : Snapshot) : Snapshot :=
  o.clampTo p.path.firewallBound

/-- An object counts for a parameter: a walk along its path finds it, and what is left of its level
reaches the minimum. -/
def Counts (p : RuleParameter) (s : Store) (root : Reference) (t : Instant) (o : Snapshot) : Prop :=
  o ∈ s.walk root p.path p.type t ∧ p.minLevel ≤ (p.lowered o).level

/-- A parameter cannot do without objects, and none counts for it. -/
def Lacking (p : RuleParameter) (s : Store) (root : Reference) (t : Instant) : Prop :=
  p.optional = false ∧ ∀ o, ¬ p.Counts s root t o

/-- What a parameter says of an object that it is shown: a visible object of its type, at a level
that reaches the minimum and that every edge on the path lets through, and otherwise as stored. -/
structure Admits (p : RuleParameter) (s : Store) (t : Instant) (o : Snapshot) : Prop where
  stored : ∃ found, s.read? o.reference t = some found ∧ p.lowered found = o
  type : o.type.isA p.type = true
  cleared : p.minLevel ≤ o.level
  issued : ∀ step ∈ p.path.steps, o.level.Within step.relation.issueBound
  inherited : ∀ step ∈ p.path.steps, o.level.Within step.relation.inheritBound

/-- A slot holds what counts for a parameter, in order and lowered, and is not empty unless the
parameter is optional. -/
structure Resolves (p : RuleParameter) (s : Store) (root : Reference) (t : Instant) (slot : Slot) :
    Prop extends p.Fills slot where
  objects : ∀ o, o ∈ slot.objects ↔ ∃ found, p.Counts s root t found ∧ p.lowered found = o
  admitted : ∀ o ∈ slot.objects, p.Admits s t o
  mandatory : p.optional = false → slot.objects ≠ []

def slot (p : RuleParameter) (s : Store) (root : Reference) (t : Instant) : Slot :=
  ⟨p.name, p.type, p.eligible (s.walk root p.path p.type t)⟩

section Counts

variable {p : RuleParameter} {s : Store} {root : Reference} {t : Instant} {o : Snapshot}

theorem mem_slot_iff :
    o ∈ (p.slot s root t).objects ↔ ∃ found, p.Counts s root t found ∧ p.lowered found = o := by
  unfold slot eligible Counts lowered
  rw [List.mem_filter, List.mem_map, decide_eq_true_eq]
  constructor
  · rintro ⟨⟨found, hfound, rfl⟩, hlevel⟩
    exact ⟨found, ⟨hfound, hlevel⟩, rfl⟩
  · rintro ⟨found, ⟨hfound, hlevel⟩, rfl⟩
    exact ⟨⟨found, hfound, rfl⟩, hlevel⟩

theorem slot_eq_nil_iff : (p.slot s root t).objects = [] ↔ ∀ o, ¬ p.Counts s root t o := by
  rw [List.eq_nil_iff_forall_not_mem]
  constructor
  · intro h o ho
    exact h _ (mem_slot_iff.2 ⟨o, ho, rfl⟩)
  · intro h o ho
    obtain ⟨found, hfound, -⟩ := mem_slot_iff.1 ho
    exact h found hfound

theorem lacking_iff :
    p.Lacking s root t ↔ ((p.slot s root t).objects.isEmpty && !p.optional) = true := by
  rw [Bool.and_eq_true, List.isEmpty_iff, slot_eq_nil_iff, Bool.not_eq_true']
  exact and_comm

instance : Decidable (p.Lacking s root t) :=
  decidable_of_iff _ lacking_iff.symm

/-- What counts for a parameter is let through by every edge on its path. -/
theorem Counts.admits (hs : s.Reachable) (h : p.Counts s root t o) :
    p.Admits s t (p.lowered o) := by
  obtain ⟨hwalk, hlevel⟩ := h
  obtain ⟨hread, htype, -⟩ := hs.wellFormed.mem_walk_iff_chain.1 hwalk
  have hwithin : (p.lowered o).level.Within p.path.firewallBound := by
    unfold lowered
    rw [Snapshot.level_clampTo]
    exact Level.clampTo_within _ _
  have hedges := Path.within_firewallBound_iff.1 hwithin
  exact {
    stored := ⟨o, hread, rfl⟩
    type := htype
    cleared := hlevel
    issued := fun step hstep => (hedges step hstep).1
    inherited := fun step hstep => (hedges step hstep).2 }

theorem lookUp_eq_ok (honline : s.offline = false) :
    p.lookUp s root t = .ok (p.slot s root t).objects := by
  have hfollow : s.follow root p.path p.type t = .ok (s.walk root p.path p.type t) :=
    Store.guarded_eq_ok_iff.2 ⟨honline, rfl⟩
  unfold lookUp
  rw [hfollow]
  rfl

theorem lookUp_offline (hoffline : s.offline = true) (root : Reference) (t : Instant) :
    ∃ e, p.lookUp s root t = .error e := by
  unfold lookUp Store.follow Store.guarded
  rw [hoffline]
  exact ⟨_, rfl⟩

/-- The slot of a parameter that does not lack objects is filled as it should be. -/
theorem resolves_slot (hs : s.Reachable) (honline : s.offline = false)
    (h : ¬ p.Lacking s root t) : p.Resolves s root t (p.slot s root t) where
  parameter := rfl
  type := rfl
  listed := p.pairwise_lookUp hs (lookUp_eq_ok honline)
  objects := fun _ => mem_slot_iff
  admitted := by
    intro o ho
    obtain ⟨found, hfound, rfl⟩ := mem_slot_iff.1 ho
    exact hfound.admits hs
  mandatory := by
    intro hoptional hempty
    exact h ⟨hoptional, slot_eq_nil_iff.1 hempty⟩

end Counts

end RuleParameter

/-! ## Contexts -/

section Contexts

variable {s : Store} {root : Reference} {t : Instant}

/-- One more parameter in front: its slot is in front, or it is the one that is missing. -/
theorem resolveContext_cons (honline : s.offline = false) (root : Reference) (t : Instant)
    (p : RuleParameter) (ps : List RuleParameter) :
    (p.Lacking s root t ∧ resolveContext s root t (p :: ps) = .ok (.missing p.name)) ∨
    (¬ p.Lacking s root t ∧ resolveContext s root t (p :: ps)
      = match resolveContext s root t ps with
        | .ok (.ready slots) => .ok (.ready (p.slot s root t :: slots))
        | other => other) := by
  by_cases hlacking : p.Lacking s root t
  · refine .inl ⟨hlacking, ?_⟩
    unfold resolveContext
    rw [RuleParameter.lookUp_eq_ok honline]
    exact if_pos (RuleParameter.lacking_iff.1 hlacking)
  · refine .inr ⟨hlacking, ?_⟩
    conv_lhs => unfold resolveContext
    rw [RuleParameter.lookUp_eq_ok honline]
    exact if_neg (fun hempty => hlacking (RuleParameter.lacking_iff.2 hempty))

theorem resolveContext_cons_offline (hoffline : s.offline = true) (root : Reference) (t : Instant)
    (p : RuleParameter) (ps : List RuleParameter) :
    ∃ e, resolveContext s root t (p :: ps) = .error e := by
  obtain ⟨e, he⟩ := p.lookUp_offline hoffline root t
  refine ⟨e, ?_⟩
  unfold resolveContext
  rw [he]

/-- A context is ready if the store answers and no parameter lacks objects. -/
theorem resolveContext_eq_ready_iff {ps : List RuleParameter} {slots : RuleContext} :
    resolveContext s root t ps = .ok (.ready slots) ↔
      (∀ p ∈ ps, s.offline = false ∧ ¬ p.Lacking s root t) ∧
        slots = ps.map (fun p => p.slot s root t) := by
  induction ps generalizing slots with
  | nil =>
    constructor
    · intro h
      cases h
      exact ⟨fun _ hp => absurd hp List.not_mem_nil, rfl⟩
    · rintro ⟨-, rfl⟩
      rfl
  | cons p ps ih =>
    rw [List.forall_mem_cons, List.map_cons]
    cases hoffline : s.offline with
    | true =>
      obtain ⟨e, he⟩ := resolveContext_cons_offline hoffline root t p ps
      simp [he]
    | false =>
      simp only [hoffline, true_and] at ih ⊢
      rcases resolveContext_cons hoffline root t p ps with
        ⟨hlacking, heq⟩ | ⟨hlacking, heq⟩
      · simp [heq, hlacking]
      · rw [heq]
        simp only [hlacking, not_false_eq_true, true_and]
        constructor
        · intro h
          split at h
          · rename_i rest hrest
            obtain ⟨hall, rfl⟩ := ih.1 hrest
            cases h
            exact ⟨hall, rfl⟩
          · rename_i hother
            exact absurd h (hother _)
        · rintro ⟨hall, rfl⟩
          rw [ih.2 ⟨hall, rfl⟩]

theorem resolveContext_eq_missing_iff {ps : List RuleParameter} {name : String} :
    resolveContext s root t ps = .ok (.missing name) ↔
      s.offline = false ∧
        ∃ p, ps.find? (fun p => decide (p.Lacking s root t)) = some p ∧ p.name = name := by
  induction ps with
  | nil => simp [resolveContext]
  | cons p ps ih =>
    cases hoffline : s.offline with
    | true =>
      obtain ⟨e, he⟩ := resolveContext_cons_offline hoffline root t p ps
      simp [he]
    | false =>
      simp only [hoffline, true_and] at ih ⊢
      rcases resolveContext_cons hoffline root t p ps with
        ⟨hlacking, heq⟩ | ⟨hlacking, heq⟩
      · simp [heq, hlacking]
      · rw [heq]
        simp only [List.find?_cons, hlacking, decide_false, ← ih]
        split
        · rename_i slots hslots
          simp [hslots]
        · rfl

theorem find?_lacking_eq_some_iff {ps : List RuleParameter} {p : RuleParameter} :
    ps.find? (fun p => decide (p.Lacking s root t)) = some p ↔
      p.Lacking s root t ∧ ∃ before after, ps = before ++ p :: after ∧
        ∀ q ∈ before, ¬ q.Lacking s root t := by
  rw [List.find?_eq_some_iff_append]
  simp only [decide_eq_true_eq, Bool.not_eq_true', decide_eq_false_iff_not]

/-- The context of a rule has one slot for each of its parameters, in their order, each with the
objects that the edges on the path let through at the level that the parameter asks for.  It is
ready if no parameter lacks objects, and otherwise the first one that does is missing. -/
theorem context_behind_firewall (hs : s.Reachable) (d : RuleDefinition) (root : Reference)
    (t : Instant) :
    (∀ slots, resolveContext s root t d.parameters = .ok (.ready slots) →
      List.Forall₂ (fun p slot => p.Resolves s root t slot) d.parameters slots) ∧
    (∀ name, resolveContext s root t d.parameters = .ok (.missing name) ↔
      s.offline = false ∧ ∃ p, p.name = name ∧ p.Lacking s root t ∧
        ∃ before after, d.parameters = before ++ p :: after ∧
          ∀ q ∈ before, ¬ q.Lacking s root t) ∧
    ((∃ slots, resolveContext s root t d.parameters = .ok (.ready slots)) ↔
      ∀ p ∈ d.parameters, s.offline = false ∧ ¬ p.Lacking s root t) := by
  refine ⟨?_, ?_, ?_⟩
  · intro slots h
    obtain ⟨hall, rfl⟩ := resolveContext_eq_ready_iff.1 h
    rw [List.forall₂_map_right_iff, List.forall₂_same]
    intro p hp
    obtain ⟨honline, hlacking⟩ := hall p hp
    exact p.resolves_slot hs honline hlacking
  · intro name
    rw [resolveContext_eq_missing_iff]
    simp only [find?_lacking_eq_some_iff]
    exact and_congr_right (fun _ => exists_congr (fun p => and_comm))
  · constructor
    · rintro ⟨slots, h⟩
      exact (resolveContext_eq_ready_iff.1 h).1
    · intro hall
      exact ⟨_, resolveContext_eq_ready_iff.2 ⟨hall, rfl⟩⟩

end Contexts

/-! ## The records that name a server -/

namespace Firewalled

def network : Entity :=
  .network "internet"

def domain : Entity :=
  .hostname network.reference "example.com"

def server : Entity :=
  .hostname network.reference "ns1.example.net"

/-- The record that names the server of the domain. -/
def record : Entity :=
  .dnsNS domain.reference "ns1.example.net." server.reference none

/-- From a server to the records that name it; nothing is passed back to a record. -/
def path : Path :=
  ⟨.hostname, [⟨.incoming, ⟨.dnsNS, "name_server_hostname", .hostname, some .l1, some .l0⟩,
    .hostname, .dnsNS⟩]⟩

/-- A rule that asks for the records that name a server, with the clearance that they need. -/
def rule (minLevel : Level) : RuleDefinition :=
  ⟨"clearance-recorder", .hostname, [⟨"ns_records", .dnsNS, path, false, minLevel⟩],
    .empty, .l0, true, none, none⟩

/-- The store before clearance was declared for the record. -/
def before : Store :=
  .holding [network, domain, server, record] default

/-- The store with high clearance for the record. -/
def store : Store :=
  before.mergeProfile (.declared record.reference .l3)

theorem reachable : store.Reachable := by
  have hdeclare : before.declare record.reference .l3 default = .ok store :=
    Store.declare_eq_ok_iff.2 ⟨Store.online_holding _ default, by decide +kernel, rfl⟩
  exact .declare (Store.reachable_holding _ default) hdeclare

/-- The record is shown without its clearance, and a rule that asks for some is not shown it. -/
theorem context_behind_firewall_nameserver :
    store.Reachable ∧
    (store.read? record.reference default).map Snapshot.level = some .l3 ∧
    (∃ slots, resolveContext store server.reference default (rule .l0).parameters
        = .ok (.ready slots) ∧
      ∀ slot ∈ slots, slot.objects ≠ [] ∧ ∀ o ∈ slot.objects, o.level = .l0) ∧
    resolveContext store server.reference default (rule .l1).parameters
      = .ok (.missing "ns_records") := by
  obtain ⟨hslots, -, hready⟩ :=
    context_behind_firewall reachable (rule .l0) server.reference default
  obtain ⟨-, hmissing, -⟩ := context_behind_firewall reachable (rule .l1) server.reference default
  refine ⟨reachable, by decide +kernel, ?_, ?_⟩
  · obtain ⟨slots, hresolve⟩ := hready.2 (by decide +kernel)
    refine ⟨slots, hresolve, ?_⟩
    obtain ⟨slot, rest, hfilled, hrest, rfl⟩ := List.forall₂_cons_left_iff.1 (hslots slots hresolve)
    obtain rfl := List.forall₂_nil_left_iff.1 hrest
    rw [List.forall_mem_singleton]
    refine ⟨hfilled.mandatory rfl, ?_⟩
    intro o ho
    have hwithin := (hfilled.admitted o ho).inherited _ (List.mem_singleton_self _)
    exact Level.le_l0_iff.1 (Level.within_some.1 hwithin)
  · refine (hmissing "ns_records").2 ⟨by decide +kernel, _, rfl, ?_, [], [], rfl, ?_⟩
    · decide +kernel
    · exact fun _ hq => absurd hq List.not_mem_nil

end Firewalled

end ScanGraph
