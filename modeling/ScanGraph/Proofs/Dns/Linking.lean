/-
What the rules make of a survey.

The records of a survey lead the rule that links a host to its addresses back to
the host, and the rule derives a link to every address, in the order in which it
finds the records.  Every later evaluation, which may find the first one's output
in the cache, derives the same links: `Stocked.deriveFor_record`.

## What is proved

For a store that is `Stocked` with what a survey leads to, before the links or after
them: a commit of one of the records concerns the host and nothing else, each of its
evaluations derives the links of all addresses or is skipped, and the derived links are
the same whether they come from the body or from the cache.

## What is asked

The cache has, for the rule about addresses, nothing but the links of this survey
(`Caches`), which holds at the beginning, as it is empty, and is kept from then on.  The
times of the evaluations may be any: an entry that has expired is made again with the
same objects.
-/
import ScanGraph.Proofs.Derivation.Resolving
import ScanGraph.Proofs.Dns.Survey
import ScanGraph.Proofs.Store.Walk

namespace ScanGraph

namespace Survey

open Dns Builtin

/-- The store holds the addresses and their records, and nothing that a survey does not lead to. -/
def Stocked (v : Survey) (s : Store) : Prop :=
  ∃ os, v.before ⊆ os ∧ os ⊆ v.after ∧ s.Holds os

/-- What the cache holds for the rule that links a host to its addresses are the links of a
survey. -/
def Caches (v : Survey) (m : Memory) : Prop :=
  ∀ k entry, m.cache.Holds dnsResolving k entry → entry.output.Perm v.links

section Visible

variable {v : Survey} {s : Store} {x : Address} {e : Entity} {r : Reference}

theorem entity_of_mem_after {o : Snapshot} (h : o ∈ v.after) :
    o.entity = v.host ∨ ∃ x ∈ v.addresses, o.entity = addressEntity v.network x ∨
      o.entity = recordEntity v.network v.name x ∨ o.entity = linkEntity v.network v.name x := by
  have himplied : ∀ os : List Snapshot, o ∈ (v.seen.imply os).map (·.readAt v.scanned) →
      ∃ o' ∈ os, o.entity = o'.entity := by
    intro os ho
    obtain ⟨y, hy, rfl⟩ := List.mem_map.1 ho
    obtain ⟨o', ho', hentity, -⟩ := Snapshot.mem_imply hy
    exact ⟨o', ho', hentity⟩
  rcases List.mem_append.1 h with hbefore | hlinks
  · rcases List.mem_cons.1 hbefore with rfl | hkept
    · exact .inl rfl
    · obtain ⟨o', ho', hentity⟩ := himplied _ hkept
      obtain ⟨x, hx, rfl | rfl⟩ := mem_kept_iff.1 ho'
      · exact .inr ⟨x, hx, .inl hentity⟩
      · exact .inr ⟨x, hx, .inr (.inl hentity)⟩
  · obtain ⟨o', ho', hentity⟩ := himplied _ hlinks
    obtain ⟨x, hx, rfl⟩ := mem_links_iff.1 ho'
    exact .inr ⟨x, hx, .inr (.inr hentity)⟩

theorem stocked_before (h : s.Holds v.before) : v.Stocked s :=
  ⟨_, List.Subset.refl _, List.subset_append_left _ _, h⟩

theorem stocked_after (h : s.Holds v.after) : v.Stocked s :=
  ⟨_, List.subset_append_left _ _, List.Subset.refl _, h⟩

theorem Stocked.wellFormed (h : v.Stocked s) : s.WellFormed := by
  obtain ⟨os, -, -, hholds⟩ := h
  exact hholds.wellFormed

theorem Stocked.host (h : v.Stocked s) (hv : v.Sound) :
    s.visible? v.host.reference v.scanned = some v.host := by
  obtain ⟨os, hbefore, -, hholds⟩ := h
  have hstart : s.Has v.start := hholds.has _ (hbefore List.mem_cons_self)
  exact hstart.visible? (fun t ht => Option.some.inj ht ▸ hv.times)

theorem Stocked.seen (h : v.Stocked s) :
    s.snapshot v.scanned v.host.reference v.host = v.seen := by
  obtain ⟨os, hbefore, -, hholds⟩ := h
  have hstart : s.Has v.start := hholds.has _ (hbefore List.mem_cons_self)
  have hprofile : s.profileOf v.host.reference = .declared v.host.reference v.level :=
    hstart.profileOf rfl
  unfold Store.snapshot
  rw [hprofile]
  rfl

theorem Stocked.record (h : v.Stocked s) (hx : x ∈ v.addresses) :
    s.visible? (v.recordOf x).reference v.scanned = some (v.recordOf x).entity := by
  obtain ⟨os, hbefore, -, hholds⟩ := h
  obtain ⟨o, ho, hentity⟩ : ∃ o ∈ v.seen.imply v.kept, o.entity = (v.recordOf x).entity :=
    Snapshot.exists_mem_imply (mem_kept_iff.2 ⟨x, hx, .inr rfl⟩)
  have hhas : s.Has (o.readAt v.scanned) :=
    hholds.has _ (hbefore (List.mem_cons_of_mem _ (List.mem_map_of_mem ho)))
  have hvisible := hhas.visible? (t := v.scanned)
    (fun t ht => Option.some.inj ht ▸ Store.upTo_refl v.scanned)
  have hreference : (o.readAt v.scanned).reference = (v.recordOf x).reference :=
    congrArg Entity.reference hentity
  rw [hreference] at hvisible
  exact hvisible.trans (congrArg some hentity)

/-- A visible object that points at the host as the host of a record is the record of an address. -/
theorem Stocked.exists_of_visible? (h : v.Stocked s) (he : s.visible? r v.scanned = some e)
    (htype : e.type.isA .dnsRecord = true) :
    ∃ x ∈ v.addresses, e = (v.recordOf x).entity ∧ r = (v.recordOf x).reference := by
  obtain ⟨os, -, hafter, hholds⟩ := h
  obtain ⟨o, ho, rfl, rfl⟩ := hholds.exists_of_visible? he
  rcases entity_of_mem_after (hafter ho) with hentity | ⟨x, hx, hentity | hentity | hentity⟩
  · rw [hentity] at htype
    exact absurd htype Bool.false_ne_true
  · rw [hentity] at htype
    cases x <;> exact absurd htype Bool.false_ne_true
  · exact ⟨x, hx, hentity, congrArg Entity.reference hentity⟩
  · rw [hentity] at htype
    exact absurd htype Bool.false_ne_true

end Visible

/-! ## The addresses found -/

section Found

variable {v : Survey} {s : Store} {x : Address}

def readRecord (v : Survey) (s : Store) (x : Address) : Snapshot :=
  s.snapshot v.scanned (v.recordOf x).reference (v.recordOf x).entity

theorem relation?_recordOf (v : Survey) (x : Address) :
    (v.recordOf x).entity.relation? recordHost.name = some v.host.reference := by
  cases x <;> rfl

/-- The walk from the host to its records of a type finds those that the survey found. -/
theorem Stocked.perm_walk (h : v.Stocked s) (hv : v.Sound) (holder : ObjectType)
    (hholder : holder.isA .dnsRecord = true) (hmax : ∀ type, type.isA holder = true → type = holder) :
    (s.walk v.host.reference (hostPath recordHost holder) holder v.scanned).Perm
      ((v.addresses.filter (fun x => decide ((v.recordOf x).type = holder))).map
        (v.readRecord s)) := by
  have hwalk : (s.walk v.host.reference (hostPath recordHost holder) holder v.scanned).Nodup :=
    List.Pairwise.imp (S := fun a b => a ≠ b)
      (fun hlt heq => String.lt_irrefl _ (congrArg Snapshot.reference heq ▸ hlt))
      (h.wellFormed.pairwise_walk _ _ _)
  have hread : ((v.addresses.filter (fun x => decide ((v.recordOf x).type = holder))).map
      (v.readRecord s)).Nodup := by
    refine (List.nodup_map_iff_inj_on (hv.nodup.filter _)).2 (fun x _ y _ heq => ?_)
    exact recordEntity_inj (congrArg Snapshot.reference heq)
  refine (List.perm_ext_iff_of_nodup hwalk hread).2 (fun o => ?_)
  rw [mem_walk_hostPath h.wellFormed, List.mem_map]
  constructor
  · rintro ⟨-, r, e, he, htype, -, rfl⟩
    have hholder' : e.type = holder := hmax _ htype
    obtain ⟨x, hx, rfl, rfl⟩ := h.exists_of_visible? he (hholder' ▸ hholder)
    exact ⟨x, List.mem_filter.2 ⟨hx, decide_eq_true hholder'⟩, rfl⟩
  · rintro ⟨x, hx, rfl⟩
    obtain ⟨hmem, htype⟩ := List.mem_filter.1 hx
    have htype' : (v.recordOf x).type = holder := of_decide_eq_true htype
    refine ⟨⟨_, h.host hv⟩, _, _, h.record hmem, ?_, relation?_recordOf v x, rfl⟩
    exact htype' ▸ ObjectType.isA_refl _

theorem resolvedAddresses_recordContext (s : Store) (h : Reference) (t : Instant) :
    resolvedAddresses (recordContext s h t)
      = (s.walk h aRecords.path aRecords.type t).filterMap (fun o => aAddress? o.entity)
        ++ (s.walk h aaaaRecords.path aaaaRecords.type t).filterMap
          (fun o => aaaaAddress? o.entity) := by
  have ha : (recordContext s h t).objects aRecords.name = (slotOf s h t aRecords).objects := rfl
  have haaaa : (recordContext s h t).objects aaaaRecords.name = (slotOf s h t aaaaRecords).objects :=
    rfl
  unfold resolvedAddresses
  rw [ha, haaaa, slotOf, slotOf, List.filterMap_map, List.filterMap_map]
  rfl

theorem Stocked.perm_resolvedAddresses (h : v.Stocked s) (hv : v.Sound) :
    (resolvedAddresses (recordContext s v.host.reference v.scanned)).Perm
      (v.addresses.map (fun x => (v.addressOf x).reference)) := by
  have hfilter : ∀ (holder : ObjectType) (address? : Entity → Option Reference),
      (∀ x, (v.recordOf x).type = holder →
        address? (v.recordOf x).entity = some (v.addressOf x).reference) →
      (((v.addresses.filter (fun x => decide ((v.recordOf x).type = holder))).map
        (v.readRecord s)).filterMap (fun o => address? o.entity))
        = (v.addresses.filter (fun x => decide ((v.recordOf x).type = holder))).map
          (fun x => (v.addressOf x).reference) := by
    intro holder address? haddress
    rw [List.filterMap_map, ← List.filterMap_eq_map]
    refine List.filterMap_congr (fun x hx => haddress x ?_)
    exact of_decide_eq_true (List.mem_filter.1 hx).2
  have ha := (h.perm_walk hv .dnsA (by decide)
    (by intro type; cases type <;> decide)).filterMap (fun o => aAddress? o.entity)
  have haaaa := (h.perm_walk hv .dnsAAAA (by decide)
    (by intro type; cases type <;> decide)).filterMap (fun o => aaaaAddress? o.entity)
  rw [hfilter .dnsA aAddress? (fun x hx => by cases x <;> first | rfl | cases hx)] at ha
  rw [hfilter .dnsAAAA aaaaAddress? (fun x hx => by cases x <;> first | rfl | cases hx)] at haaaa
  have hother : ∀ x, decide ((v.recordOf x).type = .dnsAAAA)
      = !decide ((v.recordOf x).type = .dnsA) := by
    intro x
    cases x <;> rfl
  rw [resolvedAddresses_recordContext]
  refine (ha.append haaaa).trans ?_
  rw [← List.map_append]
  simp only [hother]
  exact (List.filter_append_perm _ _).map _

theorem Stocked.perm_links (h : v.Stocked s) (hv : v.Sound) :
    (linksTo v.host.reference
      (resolvedAddresses (recordContext s v.host.reference v.scanned))).Perm v.links := by
  have hperm := (h.perm_resolvedAddresses hv).map
    (fun address => Snapshot.ofEntity (.resolvedHostname v.host.reference address))
  rw [List.map_map] at hperm
  exact hperm

end Found

/-! ## Evaluations -/

section Evaluations

variable {v : Survey} {e : Engine} {m : Memory} {x : Address}

/-- The evaluation of a rule for the host as it was scanned. -/
def query (v : Survey) (timing : Timing) (rule : RegisteredRule) : Engine.Query :=
  ⟨timing, rule, v.seen, v.scanned⟩

/-- The rule derives the links, whether it finds them in the cache or not. -/
theorem Stocked.answer_resolving (h : v.Stocked e.store) (hv : v.Sound)
    (honline : e.store.offline = false)
    (henabled : e.policy.isEnabled dnsResolving true = true) (hm : v.Caches m)
    (timing : Timing) :
    ∃ m' os cached, e.answer m (v.query timing resolvingRule)
        = (m', ⟨dnsResolving, v.seen, .derived os cached⟩) ∧
      os.Perm v.links ∧ v.Caches m' := by
  have hperm := h.perm_links hv
  have hprepare : e.prepare resolvingRule.definition v.seen v.scanned
      = .ok (recordContext e.store v.host.reference v.scanned, .empty) :=
    prepare_resolving honline henabled
  have hreturned : resolving v.seen (recordContext e.store v.host.reference v.scanned) .empty
      = .returned (linksTo v.host.reference
          (resolvedAddresses (recordContext e.store v.host.reference v.scanned))) :=
    resolving_eq rfl _ _
  have hevaluates := Engine.evaluates_answer e m (v.query timing resolvingRule)
  have hmade : ∀ context settings output,
      e.Made (v.query timing resolvingRule) context settings output → output.Perm v.links := by
    intro context settings output hmade
    obtain ⟨rfl, rfl⟩ := Prod.mk.inj (Except.ok.inj (hmade.prepared.symm.trans hprepare))
    obtain rfl := Outcome.returned.inj (hmade.returned.symm.trans hreturned)
    exact hperm
  have hcaches : v.Caches (e.answer m (v.query timing resolvingRule)).1 := by
    intro k entry hentry
    rcases hevaluates.holds hentry with hheld | ⟨-, context, settings, -, hentry⟩
    · exact hm k entry hheld
    · exact hmade _ _ _ hentry
  rw [Engine.answer_eq_apply hprepare] at hevaluates hcaches ⊢
  cases hget : m.cache.get dnsResolving (Engine.key (v.query timing resolvingRule)
      (recordContext e.store v.host.reference v.scanned) .empty) timing.asked
      (e.cacheNanos dnsResolvingDefinition) with
  | mk cache found =>
    cases found with
    | some output =>
      rw [Engine.apply_of_found hget] at hcaches ⊢
      obtain ⟨entry, hentry, rfl⟩ := Cache.holds_of_get (congrArg Prod.snd hget)
      exact ⟨_, _, _, rfl, hm _ entry hentry, hcaches⟩
    | none =>
      have hjudge : e.judge resolvingRule.definition v.scanned
          (resolvingRule.body v.seen (recordContext e.store v.host.reference v.scanned) .empty)
            = .derived (linksTo v.host.reference (resolvedAddresses
                (recordContext e.store v.host.reference v.scanned))) false :=
        (congrArg (e.judge dnsResolvingDefinition v.scanned) hreturned).trans
          (judge_linksTo v.host.reference _)
      rw [Engine.apply_of_made hget hjudge] at hcaches ⊢
      exact ⟨_, _, _, rfl, hperm, hcaches⟩

theorem Stocked.answer_nameserver (h : v.Stocked e.store) (honline : e.store.offline = false)
    (timing : Timing) :
    ∃ reason, e.answer m (v.query timing nameserverRule)
      = (m, ⟨ipv6OnNameservers, v.seen, .skipped reason⟩) := by
  have hnone : e.store.walk v.seen.reference nsRecords.path nsRecords.type v.scanned = [] := by
    refine List.eq_nil_iff_forall_not_mem.2 (fun o ho => ?_)
    obtain ⟨-, r, x, hx, htype, -⟩ := (mem_walk_hostPath h.wellFormed).1 ho
    obtain ⟨y, -, rfl, -⟩ := h.exists_of_visible? hx (ObjectType.isA_trans htype (by decide))
    cases y <;> exact absurd htype Bool.false_ne_true
  obtain ⟨reason, hprepare⟩ :=
    prepare_nameserver (e := e) (t := v.scanned) honline hnone
  refine ⟨reason, ?_⟩
  have hprepare' : e.prepare nameserverRule.definition v.seen v.scanned
      = .error (.skipped reason) := hprepare
  unfold Engine.answer Engine.evaluate query
  rw [hprepare']
  rfl

/-- What the evaluation of a rule may come to when a record of a survey was committed: the links, or
that it was skipped. -/
def Outcomes (v : Survey) (outcomes : List RuleOutcome) : Prop :=
  ∃ os cached rest, outcomes = ⟨dnsResolving, v.seen, .derived os cached⟩ :: rest ∧
    os.Perm v.links ∧ ∀ o ∈ rest, ∃ reason, o.status = .skipped reason

theorem Stocked.deriveFor_record (h : v.Stocked e.store) (hv : v.Sound)
    (hregistry : AtHand e.registry) (honline : e.store.offline = false)
    (henabled : e.policy.isEnabled dnsResolving true = true) (hm : v.Caches m)
    (hx : x ∈ v.addresses) (times : Nat → Timing) :
    ∃ m' outcomes, e.deriveFor times m (v.recordOf x).reference v.scanned = .ok (m', outcomes) ∧
      v.Outcomes outcomes ∧ v.Caches m' := by
  have htype : (v.recordOf x).entity.type = .dnsA ∨ (v.recordOf x).entity.type = .dnsAAAA :=
    type_recordEntity v.network v.name x
  have htargets := targets_record hregistry honline h.wellFormed (h.record hx) htype
    (relation?_recordOf v x) (h.host hv) rfl
  rw [h.seen] at htargets
  obtain ⟨m', os, cached, hanswer, hos, hm'⟩ := h.answer_resolving hv honline henabled hm
    (times 0)
  have hfirst : e.evaluate (times 0) m resolvingRule v.seen v.scanned
      = (m', ⟨dnsResolving, v.seen, .derived os cached⟩) := hanswer
  unfold Engine.deriveFor
  rw [htargets]
  rcases htype with hx' | hx'
  · rw [hx']
    refine ⟨m', _, ?_, ⟨os, cached, [], rfl, hos, fun o ho => absurd ho List.not_mem_nil⟩, hm'⟩
    simp [recordRules, Engine.evaluateAll, hfirst]
  · obtain ⟨reason, hskipped⟩ := h.answer_nameserver (m := m') honline (times 1)
    have hsecond : e.evaluate (times 1) m' nameserverRule v.seen v.scanned
        = (m', ⟨ipv6OnNameservers, v.seen, .skipped reason⟩) := hskipped
    rw [hx']
    refine ⟨m', _, ?_, ⟨os, cached, [⟨ipv6OnNameservers, v.seen, .skipped reason⟩], rfl, hos,
      fun o ho => ?_⟩, hm'⟩
    · simp [recordRules, Engine.evaluateAll, hfirst, hsecond]
    · rw [List.mem_singleton.1 ho]
      exact ⟨reason, rfl⟩

end Evaluations

end Survey

end ScanGraph
